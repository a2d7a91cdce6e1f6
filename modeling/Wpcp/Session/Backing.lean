import Wpcp.Session.DeliveryRuns
import Wpcp.Session.Kinds

/-!
# The data blocks of entries

A publish allocates one data block for all its entries, and `references_actual` of the block
counts them. An entry gives its reference up when it is handed out, when its session ends, and
when the result it waits with is complete and has no session any more. **In every run each data
block counts at least the entries that are in the publish queues of sessions and with results**
(`Wpcp.covered_of_run`), so that none of these entries is for a block that has been freed.
-/

namespace Wpcp

open Cbor (Value)

variable {S : Prop} {w w' : World} {more less : ℕ → ℕ}

/-! ### Entries and references -/

/-- How many of the entries are for a data block. -/
def uses (entries : List Entry) (data : ℕ) : ℕ := entries.countP fun e => e.data = data

theorem uses_append (l l' : List Entry) (data : ℕ) :
    uses (l ++ l') data = uses l data + uses l' data :=
  List.countP_append

theorem uses_cons (e : Entry) (l : List Entry) (data : ℕ) :
    uses (e :: l) data = uses l data + if data = e.data then 1 else 0 := by
  rw [uses, List.countP_cons]
  simp [uses, eq_comm]

theorem Result.entries_congr {ret ret' : Result} (h : ret'.blockedItems = ret.blockedItems) :
    ret'.entries = ret.entries := by
  rw [Result.entries, Result.entries, h]

/-- The references that a data block counts; one that has been freed counts none. -/
def dataReferences (heap : Heap PublishQueueItemData) (data : ℕ) : ℕ :=
  (heap.get data).elim 0 PublishQueueItemData.referencesActual

/-- The entries for a data block that are in the publish queue of a session or with a result. -/
def World.uses (w : World) (data : ℕ) : ℕ :=
  (w.sessions.total fun σ => Wpcp.uses σ.out.publishQueue data) +
    w.results.total fun ret => Wpcp.uses ret.entries data

/-- A data block that has not been freed counts some reference. -/
def ReferencesPos (heap : Heap PublishQueueItemData) : Prop :=
  ∀ data d, heap.get data = some d → 0 < d.referencesActual

/-- **The data blocks count the entries**, and `more` besides, but for `less` of them. -/
structure World.Covered (more less : ℕ → ℕ) (w : World) : Prop where
  count : ∀ data, w.uses data + more data = dataReferences w.publishData data + less data
  pos : ReferencesPos w.publishData

/-- There is no other entry, and none of those there are is left out. -/
abbrev World.AllCovered (w : World) : Prop := w.Covered 0 0

/-- No entry waits with a result. -/
def World.Empty (r : ℕ) (w : World) : Prop :=
  ∀ ret, w.results.get r = some ret → ret.entries = []

theorem World.Empty.setAnswer {r : ℕ} {ret ret' : Result} (h : w.Empty r)
    (hr : w.results.get r = some ret) (hblocked : ret'.blockedItems = ret.blockedItems) :
    World.Empty r { w with results := w.results.set r ret' } := by
  intro q hq
  have hset : (w.results.set r ret').get r = some ret' :=
    (Heap.get_set hr ret' r).trans (if_pos rfl)
  rw [← Option.some.inj (hset.symm.trans hq), Result.entries_congr hblocked]
  exact h ret hr

/-- A result that has accepted no item waits with no entry. -/
theorem ResultInv.entries_eq_nil {ret : Result} (h : ResultInv w ret) (hitems : ret.items = []) :
    ret.entries = [] := by
  rw [Result.entries]
  rcases hblocked : ret.blockedItems with _ | blocked
  · rfl
  · rw [Result.items, hblocked, Option.elim_some] at hitems
    have hgranted : ret.granted = [] :=
      List.map_eq_nil_iff.mp ((h.items blocked hblocked).symm.trans hitems)
    refine List.eq_nil_iff_forall_not_mem.mpr fun e he => ?_
    have hmem := h.entries blocked hblocked e he
    rw [hgranted] at hmem
    exact absurd hmem List.not_mem_nil

/-! ### Giving references up -/

/-- **An entry gives its reference up**; the data block is freed with its last one. -/
theorem run_publishQueueItemDeref {data : ℕ} (h : 0 < dataReferences w.publishData data) :
    ∃ heap, (publishQueueItemDeref data).run w = some (.ok (), { w with publishData := heap }) ∧
      (∀ k, dataReferences heap k + (if k = data then 1 else 0) =
        dataReferences w.publishData k) ∧
      (ReferencesPos w.publishData → ReferencesPos heap) := by
  rcases hd : w.publishData.get data with _ | d
  · rw [dataReferences, hd, Option.elim_none] at h
    exact absurd h (Nat.lt_irrefl 0)
  have hpos : 0 < d.referencesActual := by
    rwa [dataReferences, hd, Option.elim_some] at h
  have hrun : (publishQueueItemDeref data).run w = (if d.referencesActual - 1 ≠ 0 then
      publishData.write data { d with referencesActual := d.referencesActual - 1 }
      else publishData.free data).run w := Attempt.run_bind_ok (Place.run_read hd)
  by_cases hne : d.referencesActual - 1 ≠ 0
  · rw [if_pos hne] at hrun
    refine ⟨_, hrun.trans (Place.run_write hd _), fun k => ?_, fun h k d' hk => ?_⟩
    · rw [dataReferences, dataReferences, Heap.get_set hd]
      by_cases hk : k = data
      · rw [if_pos hk, if_pos hk, hk, hd]
        exact Nat.sub_add_cancel hpos
      · rw [if_neg hk, if_neg hk, Nat.add_zero]
    · have hk : (w.publishData.set data _).get k = some d' := hk
      rw [Heap.get_set hd] at hk
      split at hk
      · obtain rfl := Option.some.inj hk
        exact Nat.pos_of_ne_zero hne
      · exact h k d' hk
  · rw [if_neg hne] at hrun
    refine ⟨_, hrun.trans (Place.run_free hd), fun k => ?_, fun h k d' hk => ?_⟩
    · rw [dataReferences, dataReferences, Heap.get_free]
      by_cases hk : k = data
      · rw [if_pos hk, if_pos hk, hk, hd]
        show 0 + 1 = d.referencesActual
        omega
      · rw [if_neg hk, if_neg hk, Nat.add_zero]
    · exact h k d' (Heap.get_of_get_free hk).2

/-- **Entries that the data blocks count can all give their references up.** -/
theorem run_publishQueueItemsDeref {entries : List Entry}
    (h : ∀ data, uses entries data ≤ dataReferences w.publishData data) :
    ∃ heap, (publishQueueItemsDeref entries).run w =
        some (.ok (), { w with publishData := heap }) ∧
      (∀ k, dataReferences heap k + uses entries k = dataReferences w.publishData k) ∧
      (ReferencesPos w.publishData → ReferencesPos heap) := by
  induction entries generalizing w with
  | nil => exact ⟨w.publishData, rfl, fun _ => rfl, id⟩
  | cons e next ih =>
    have hpos : 0 < dataReferences w.publishData e.data := by
      refine lt_of_lt_of_le ?_ (h e.data)
      rw [uses_cons, if_pos rfl]
      exact Nat.succ_pos _
    obtain ⟨heap, hrun, hrefs, hheap⟩ := run_publishQueueItemDeref hpos
    have hnext : ∀ data, uses next data ≤
        dataReferences { w with publishData := heap }.publishData data := by
      intro data
      have hle := h data
      rw [uses_cons] at hle
      have heq : dataReferences heap data + _ = _ := hrefs data
      show uses next data ≤ dataReferences heap data
      omega
    obtain ⟨heap', hrun', hrefs', hheap'⟩ := ih hnext
    refine ⟨heap', (Attempt.run_bind_ok hrun).trans hrun', fun k => ?_, fun h => hheap' (hheap h)⟩
    have heq : dataReferences heap k + _ = _ := hrefs k
    have heq' : dataReferences heap' k + uses next k = dataReferences heap k := hrefs' k
    rw [uses_cons]
    omega

/-- Writing a PUBLISH message gives the references of its entries up. -/
theorem ensures_writePublish {w₀ : World} {n : ℕ → ℕ} (dest : PublishDest) (entries : List Entry) :
    Attempt.Ensures (fun w => ∃ heap, w = { w₀ with publishData := heap } ∧
        (∀ k, n k + uses entries k = dataReferences heap k) ∧ ReferencesPos heap)
      (writePublish dest entries)
      (fun _ w => ∃ heap, w = { w₀ with publishData := heap } ∧
        (∀ k, n k = dataReferences heap k) ∧ ReferencesPos heap)
      Stop.Any := by
  induction entries generalizing dest with
  | nil => exact .pure fun _ h => h
  | cons e next ih =>
    refine .ite (fun _ => .bind (Leaves.read _ _) fun d => .bind
      (Q := fun _ w => ∃ heap, w = { w₀ with publishData := heap } ∧
        (∀ k, n k + uses next k = dataReferences heap k) ∧ ReferencesPos heap) ?_
      fun _ => ih _) fun _ => .fail trivial
    refine .of_run fun w hw => ?_
    obtain ⟨heap, rfl, hrefs, hpositive⟩ := hw
    have hpos : 0 < dataReferences heap e.data := by
      rw [← hrefs, uses_cons, if_pos rfl]
      omega
    obtain ⟨heap', hrun, hrefs', hheap'⟩ :=
      run_publishQueueItemDeref (w := { w₀ with publishData := heap }) hpos
    refine ⟨_, _, hrun, fun _ _ => ⟨heap', rfl, fun k => ?_, hheap' hpositive⟩, fun _ _ => trivial⟩
    have heq : dataReferences heap' k + _ = dataReferences heap k := hrefs' k
    have hsum := hrefs k
    rw [uses_cons] at hsum
    omega

/-! ### Writes -/

namespace World.Covered

variable {more' less' : ℕ → ℕ}

/-- What the data blocks count may change as the entries do. -/
theorem trans {v : World} (h : w.Covered more less) (hpos : ReferencesPos v.publishData)
    (heq : ∀ data, v.uses data + more' data + (dataReferences w.publishData data + less data) =
      w.uses data + more data + (dataReferences v.publishData data + less' data)) :
    v.Covered more' less' := by
  refine ⟨fun data => ?_, hpos⟩
  have hbefore := h.count data
  have hafter := heq data
  omega

/-- Only sessions, results and data blocks matter. -/
theorem of_eq (h : w.Covered more less) (hsessions : w'.sessions = w.sessions)
    (hresults : w'.results = w.results) (hdata : w'.publishData = w.publishData) :
    w'.Covered more less := by
  refine h.trans (hdata ▸ h.pos) fun data => ?_
  rw [World.uses, World.uses, hsessions, hresults, hdata]

/-- A session is written to. -/
theorem setSession (h : w.Covered more less) {s : ℕ} {σ σ' : Session}
    (hσ : w.sessions.get s = some σ)
    (heq : ∀ data, Wpcp.uses σ'.out.publishQueue data + more' data + less data =
      Wpcp.uses σ.out.publishQueue data + more data + less' data) :
    World.Covered more' less' { w with sessions := w.sessions.set s σ' } := by
  refine h.trans h.pos fun data => ?_
  have hset := Heap.total_set (f := fun τ => Wpcp.uses τ.out.publishQueue data) hσ σ'
  have heq := heq data
  simp only [World.uses]
  omega

/-- A result is written to. -/
theorem setResult (h : w.Covered more less) {r : ℕ} {ret ret' : Result}
    (hr : w.results.get r = some ret)
    (heq : ∀ data, Wpcp.uses ret'.entries data + more' data + less data =
      Wpcp.uses ret.entries data + more data + less' data) :
    World.Covered more' less' { w with results := w.results.set r ret' } := by
  refine h.trans h.pos fun data => ?_
  have hset := Heap.total_set (f := fun q => Wpcp.uses q.entries data) hr ret'
  have heq := heq data
  simp only [World.uses]
  omega

/-- A write to a result that leaves its entries alone. -/
theorem setAnswer (h : w.Covered more less) {r : ℕ} {ret ret' : Result}
    (hr : w.results.get r = some ret) (hblocked : ret'.blockedItems = ret.blockedItems) :
    World.Covered more less { w with results := w.results.set r ret' } :=
  h.setResult hr fun data => by rw [Result.entries_congr hblocked]

/-- A write to a session that leaves its publish queue alone. -/
theorem setOutput (h : w.Covered more less) {s : ℕ} {σ σ' : Session}
    (hσ : w.sessions.get s = some σ) (hqueue : σ'.out.publishQueue = σ.out.publishQueue) :
    World.Covered more less { w with sessions := w.sessions.set s σ' } :=
  h.setSession hσ fun data => by rw [hqueue]

/-- **A result is freed**, whose entries have given their references up. -/
theorem freeResult {r : ℕ} {ret : Result} (h : w.Covered 0 (Wpcp.uses ret.entries))
    {ret' : Result} (hr : w.results.get r = some ret') (hentries : ret'.entries = ret.entries) :
    World.AllCovered { w with results := w.results.free r } := by
  refine h.trans h.pos fun data => ?_
  have hfree := Heap.total_free (f := fun q => Wpcp.uses q.entries data) hr
  rw [hentries] at hfree
  simp only [World.uses, Pi.zero_apply]
  omega

/-- Entries that are no more need no reference. -/
theorem dropResult (h : w.Covered more less) {r : ℕ} {ret : Result}
    (hr : w.results.get r = some ret) (hentries : ret.entries = []) :
    World.Covered more less { w with results := w.results.free r } := by
  refine h.trans h.pos fun data => ?_
  have hfree := Heap.total_free (f := fun q => Wpcp.uses q.entries data) hr
  have hnil : Wpcp.uses ret.entries data = 0 := by
    rw [hentries]
    rfl
  simp only [World.uses]
  omega

/-- **A session is freed**, whose entries have given their references up. -/
theorem freeSession {s : ℕ} {σ : Session} (h : w.Covered 0 (Wpcp.uses σ.out.publishQueue))
    (hσ : w.sessions.get s = some σ) :
    World.AllCovered { w with sessions := w.sessions.free s } := by
  refine h.trans h.pos fun data => ?_
  have hfree := Heap.total_free (f := fun τ => Wpcp.uses τ.out.publishQueue data) hσ
  simp only [World.uses, Pi.zero_apply]
  omega

theorem newResult (h : w.Covered more less) {ret : Result} (hentries : ret.entries = []) :
    World.Covered more less { w with results := w.results.alloc ret } := by
  refine h.trans h.pos fun data => ?_
  have halloc := Heap.total_alloc (h := w.results) (f := fun q => Wpcp.uses q.entries data) ret
  have hnil : Wpcp.uses ret.entries data = 0 := by
    rw [hentries]
    rfl
  simp only [World.uses]
  omega

theorem newSession (h : w.Covered more less) {σ : Session} (hqueue : σ.out.publishQueue = []) :
    World.Covered more less { w with sessions := w.sessions.alloc σ } := by
  refine h.trans h.pos fun data => ?_
  have halloc := Heap.total_alloc (h := w.sessions)
    (f := fun τ => Wpcp.uses τ.out.publishQueue data) σ
  have hnil : Wpcp.uses σ.out.publishQueue data = 0 := by
    rw [hqueue]
    rfl
  simp only [World.uses]
  omega

theorem emit (event : Event) (owed : List Owed) :
    Leaves (World.Covered more less) (emit event owed) :=
  .modifyWorld fun _ h => h.of_eq rfl rfl rfl

theorem ignoresTable : IgnoresTable (World.Covered more less) where
  malloc _ _ h := h.of_eq rfl rfl rfl
  subscriptionTable _ _ h := h.of_eq rfl rfl rfl
  subscriptions _ _ h := h.of_eq rfl rfl rfl
  referencesPeak _ _ h := h.of_eq rfl rfl rfl
  itemLinks _ _ h := h.of_eq rfl rfl rfl
  freeItem _ _ h := h.of_eq rfl rfl rfl
  events _ _ _ h := h.of_eq rfl rfl rfl
  sessions _ _ _ _ hσ hsame h := by
    obtain ⟨items, next, rfl⟩ := hsame
    exact h.setOutput hσ rfl
  newItem _ _ h := h.of_eq rfl rfl rfl
  results _ _ _ _ hr hsame h := h.setResult hr fun data => by rw [hsame.1]

end World.Covered

/-! ### Publishing -/

theorem uses_queued (σ : Session) (first : Entry) (rest : List Entry)
    (data : ℕ) : uses (σ.queued first rest).out.publishQueue data =
      uses σ.out.publishQueue data + uses (first :: rest) data := by
  rw [← uses_append]
  exact congrArg (uses · data) (OutState.publishQueue_publishQueueAppend _ _ _)

/-- A result that an entry waits for has accepted the item of the entry. -/
theorem ensures_blockedItemForNotifyItem_covered (it : ℕ) :
    Attempt.Ensures (World.Covered more less) (blockedItemForNotifyItem it)
      (fun found w => w.Covered more less ∧ ∀ r, found = some r → it ∈ w.blockedItems r)
      Stop.Any := by
  refine .bind (Leaves.read _ _) fun i => .bind (Leaves.read _ _) fun σ =>
    .bind ensures_getWorld fun w => .pure ?_
  rintro w' ⟨rfl, h⟩
  refine ⟨h, fun r hr => ?_⟩
  have hmem := List.find?_some hr
  simpa using hmem

/-- **An entry is put into its place**, and uses a reference that was kept for it. -/
theorem ensures_sessionAddPublishQueueItem_covered (it : ℕ) (e : Entry) :
    Attempt.Ensures (World.Covered (fun data => more data + if data = e.data then 1 else 0) less)
      (sessionAddPublishQueueItem it e) (fun _ => World.Covered more less) Stop.Any := by
  refine .bind (ensures_blockedItemForNotifyItem_covered it) ?_
  rintro (_ | r)
  · refine .bind ((Leaves.read _ _).imp (fun _ h => h.1) (fun _ _ h => h) fun _ h => h) fun i =>
      .bind (Place.ensures_read trivial) fun σ => Place.ensures_write trivial ?_
    rintro w - ⟨hσ, h⟩ -
    refine h.setSession hσ fun data => ?_
    have huses := uses_queued σ e [] data
    rw [uses_cons, show uses [] data = 0 from rfl] at huses
    have hqueue : uses (σ.out.sessionPublishQueueAppend e []).publishQueue data = _ := huses
    show uses (σ.out.sessionPublishQueueAppend e []).publishQueue data + _ + _ = _
    omega
  · refine .bind (Place.ensures_read trivial) fun ret => ?_
    rcases hblocked : ret.blockedItems with _ | blocked
    · -- such a result has accepted nothing
      refine .assume (p := False) ?_ False.elim
      rintro w ⟨hr, -, hmem⟩
      have hitem := hmem r rfl
      rw [blockedItems_of_get hr, Result.items, hblocked] at hitem
      exact absurd hitem List.not_mem_nil
    · refine Place.ensures_write trivial ?_
      rintro w - ⟨hr, h, -⟩ -
      refine h.setResult hr fun data => ?_
      show uses (blocked.publishQueue ++ [e]) data + _ + _ = _
      rw [uses_append, uses_cons, Result.entries, hblocked, Option.elim_some]
      show uses blocked.publishQueue data + (0 + _) + _ + _ = _
      omega

/-- The entries of a publish use the references of its data block. -/
theorem ensures_publishEntries_covered (data length : ℕ) (items : List ℕ) :
    Attempt.Ensures (World.Covered (fun k => if k = data then length else 0) 0)
      (publishEntries data length items) (fun _ => World.AllCovered) Stop.Any := by
  induction length generalizing items with
  | zero => exact .pure fun w h => h.trans h.pos fun k => by simp
  | succ length ih =>
    rcases items with _ | ⟨it, next⟩
    · exact .fail trivial
    refine .bind (Leaves.read _ _) fun i => .bind ((ensures_sessionAddPublishQueueItem_covered it
      { subscriptionid := i.subscriptionid, data := data, item := it }).imp ?_ (fun _ _ h => h)
      fun _ h => h) fun _ => ih next
    refine fun w h => h.trans h.pos fun k => ?_
    show _ + ((if k = data then length else 0) + if k = data then 1 else 0) + _ = _
    split
    · omega
    · omega

/-- A data block is allocated with a reference for each entry. -/
theorem World.Covered.newData (h : w.AllCovered) (buffer : Cbor.WriteBuffer) {length : ℕ}
    (hlength : length ≠ 0) :
    World.Covered (fun k => if k = w.publishData.next then length else 0) 0
      { w with publishData := w.publishData.alloc ⟨length, buffer⟩ } := by
  have hpos : ReferencesPos (w.publishData.alloc ⟨length, buffer⟩) := by
    intro k d hk
    rw [Heap.get_alloc] at hk
    split at hk
    · obtain rfl := Option.some.inj hk
      exact Nat.pos_of_ne_zero hlength
    · exact h.pos k d hk
  refine h.trans hpos fun k => ?_
  have hrefs : dataReferences (w.publishData.alloc ⟨length, buffer⟩) k =
      if k = w.publishData.next then length else dataReferences w.publishData k := by
    rw [dataReferences, Heap.get_alloc]
    split
    · rfl
    · rfl
  show _ + (if k = w.publishData.next then length else 0) + _ =
    _ + _ + (dataReferences (w.publishData.alloc ⟨length, buffer⟩) k + _)
  rw [hrefs]
  split
  · rename_i hk
    have hnext : dataReferences w.publishData k = 0 := by
      rw [dataReferences, w.publishData.fresh k hk.ge, Option.elim_none]
    rw [hnext]
    show w.uses k + length + 0 = w.uses k + 0 + (length + 0)
    omega
  · rfl

theorem leaves_publishGeneral_covered (handle : PublishHandle) :
    Leaves World.AllCovered (publishGeneral handle) := by
  have hignores : IgnoresTable (World.Covered 0 0) := World.Covered.ignoresTable
  have hmalloc := hignores.malloc
  have hpublish : Leaves World.AllCovered (publishHandlePublish handle) := by
    refine Attempt.Ensures.bind ensures_assert_any fun _ => .assume (fun _ h => h.1) fun hne =>
      .imp (Leaves.bind (.malloc hmalloc) fun _ => .ite ?_ (.pure _)) (fun _ h => h.2)
        (fun _ _ h => h) fun _ h => h
    refine .bind (.writeBufferInit hmalloc) fun buffer => Attempt.Ensures.bind
      (Q := fun data => World.Covered (fun k => if k = data then handle.length else 0) 0)
      (Place.ensures_new fun w h => h.newData buffer hne) fun data => .bind
      (World.Covered.emit _ _) fun _ => .bind
      (ensures_publishEntries_covered _ _ _) fun _ => .pure fun _ h => h
  refine .ite (.pure _) (.bind hpublish ?_)
  rintro (_ | data)
  · rcases handle.items with _ | ⟨it, next⟩
    · exact .fail _
    · refine .bind (.read _ _) fun i => .read_bind fun σ => Attempt.Ensures.bind
        (Q := fun _ => World.AllCovered)
        (Place.ensures_write trivial fun w _ h _ => h.2.setOutput h.1 rfl) fun _ =>
        .pure fun _ h => h
  · exact .pure _

theorem leaves_publish_covered (handle : Handle) (answer : Cbor.Item) :
    Leaves World.AllCovered (Call.publish handle answer).perform := by
  have hread : Leaves World.AllCovered (readHandle handle) := by
    cases handle with
    | subscription k => exact .bind (.read _ _) fun _ => .pure _
    | republish k => exact .bind (.read _ _) fun _ => .pure _
  refine .bind hread fun handle => .bind (leaves_publishGeneral_covered handle) ?_
  rintro (_ | data)
  · exact .pure _
  refine .bind .getWorld fun w => .read_bind fun d => ?_
  split
  · rename_i buffer _
    refine Place.ensures_write trivial ?_
    rintro w - ⟨hd, h⟩ -
    have hpos : ReferencesPos (w.publishData.set data { d with outputBuffer := buffer }) := by
      intro k d' hk
      rw [Heap.get_set hd] at hk
      split at hk
      · obtain rfl := Option.some.inj hk
        exact h.pos data d hd
      · exact h.pos k d' hk
    refine h.trans hpos fun k => ?_
    have hrefs : dataReferences (w.publishData.set data { d with outputBuffer := buffer }) k =
        dataReferences w.publishData k := by
      rw [dataReferences, dataReferences, Heap.get_set hd]
      split
      · rename_i hk
        rw [hk, hd]
        rfl
      · rfl
    show _ = _ + (dataReferences (w.publishData.set data _) k + _)
    rw [hrefs]
    rfl
  · exact .fail trivial

/-! ### Results -/

theorem leaves_writeResult_covered (r : ℕ) (f : Cbor.WriteBuffer → Option Cbor.WriteBuffer) :
    Leaves World.AllCovered (writeResult r f) := by
  refine .read_bind fun ret => ?_
  split
  · exact Place.ensures_write trivial fun w _ h _ => h.2.setAnswer h.1 rfl
  · exact .fail trivial

/-- The entries of one result have references. -/
theorem World.Covered.uses_entries_le (h : w.AllCovered) {r : ℕ} {ret : Result}
    (hr : w.results.get r = some ret) (data : ℕ) :
    Wpcp.uses ret.entries data ≤ dataReferences w.publishData data := by
  have hle := Heap.le_total (f := fun q => Wpcp.uses q.entries data) hr
  have hcovered := h.count data
  simp only [World.uses, Pi.zero_apply] at hcovered
  omega

/-- The entries of one session have references. -/
theorem World.Covered.uses_publishQueue_le (h : w.AllCovered) {s : ℕ} {σ : Session}
    (hσ : w.sessions.get s = some σ) (data : ℕ) :
    Wpcp.uses σ.out.publishQueue data ≤ dataReferences w.publishData data := by
  have hle := Heap.le_total (f := fun τ => Wpcp.uses τ.out.publishQueue data) hσ
  have hcovered := h.count data
  simp only [World.uses, Pi.zero_apply] at hcovered
  omega

/-- Entries that have given their references up are not covered any more. -/
theorem World.Covered.dereference (h : w.AllCovered) {entries : List Entry}
    {heap : Heap PublishQueueItemData}
    (hrefs : ∀ k, dataReferences heap k + Wpcp.uses entries k = dataReferences w.publishData k)
    (hpos : ReferencesPos heap) :
    World.Covered 0 (Wpcp.uses entries) { w with publishData := heap } := by
  refine h.trans hpos fun k => ?_
  have heq := hrefs k
  show w.uses k + 0 + (_ + 0) = w.uses k + 0 + (dataReferences heap k + Wpcp.uses entries k)
  omega

/-- **What a complete result holds back** moves to the publish queue of its session, or gives
its references up. -/
theorem ensures_sendResult_covered {r : ℕ} (ret : Result) :
    Attempt.Ensures (fun w => (∃ ret', w.results.get r = some ret' ∧
        ret'.session = ret.session ∧ ret'.entries = ret.entries) ∧
        w.Inv S none none ∧ w.AllCovered) (sendResult r ret)
      (fun _ w => (∃ ret', w.results.get r = some ret' ∧ ret'.entries = ret.entries) ∧
        w.Covered 0 (uses ret.entries)) Stop.Any := by
  rcases hs : ret.session with _ | s
  · have hderef : sendResult r ret = publishQueueItemsDeref ret.entries := by
      rw [sendResult, hs, Result.entries]
      rcases ret.blockedItems with _ | blocked
      · rfl
      · rfl
    rw [hderef]
    refine .of_run ?_
    rintro w ⟨⟨ret', hr, -, hentries⟩, -, h⟩
    obtain ⟨heap, hrun, hrefs, hpos⟩ := run_publishQueueItemsDeref fun data =>
      hentries ▸ h.uses_entries_le hr data
    exact ⟨_, _, hrun, fun _ _ => ⟨⟨ret', hr, hentries⟩, h.dereference hrefs (hpos h.pos)⟩,
      fun _ _ => trivial⟩
  · refine .of_run ?_
    rintro w ⟨⟨ret', hr, hs', hentries⟩, hinv, h⟩
    obtain ⟨σ, hσ, -⟩ := hinv.waiting r ret' s hr hs' (by simp)
    refine ⟨_, _, run_sendResult hs hσ, fun _ _ => ⟨⟨ret', hr, hentries⟩, ?_⟩, fun _ _ => trivial⟩
    have hset : World.Covered 0 (uses ret.entries) { w with
        sessions := w.sessions.set s (σ.completed r ret (w.malloc 0)) } := by
      refine h.setSession hσ fun data => ?_
      rw [Session.publishQueue_completed, uses_append]
      rfl
    exact hset.of_eq rfl rfl rfl

/-- A result is answered once more. -/
theorem ensures_releaseResult_covered (r : ℕ) :
    Attempt.Ensures (fun w => w.Inv S none none ∧ w.AllCovered) (releaseResult r)
      (fun _ => World.AllCovered) Stop.Any := by
  refine .bind (Place.ensures_read trivial) fun ret => .bind (Q := fun _ (w : World) =>
    (∃ ret', w.results.get r = some ret' ∧ ret'.session = ret.session ∧
      ret'.entries = ret.entries) ∧ w.Inv S none none ∧ w.AllCovered)
    (Place.ensures_write trivial ?_) fun _ => .ite (fun _ => .pure fun _ h => h.2.2) fun _ =>
    .bind (ensures_sendResult_covered ret) fun _ => Place.ensures_free trivial ?_
  · rintro w - ⟨hr, hinv, h⟩ -
    exact ⟨⟨_, (Heap.get_set hr _ r).trans (if_pos rfl), rfl, Result.entries_congr rfl⟩,
      hinv.setAnswer hr rfl rfl rfl, h.setAnswer hr rfl⟩
  · rintro w - ⟨⟨ret', hr, hentries⟩, h⟩ -
    exact h.freeResult hr hentries

theorem ensures_requestSubresult_covered (r count : ℕ) :
    Attempt.Ensures (fun w => w.Inv S none none ∧ w.AllCovered) (requestSubresult r count)
      (fun _ => World.AllCovered) Stop.Any := by
  refine .bind (Attempt.Ensures.imp ((preserves_writeResult (S := S) r _).and
    (leaves_writeResult_covered r _)) (fun _ h => h) (fun _ _ h => h)
    fun _ _ => trivial) fun _ => .ite (fun _ => ?_) fun _ => ensures_releaseResult_covered r
  exact .bind (Place.ensures_read trivial) fun ret => Place.ensures_write trivial
    fun w _ h _ => h.2.2.setAnswer h.1 rfl

theorem ensures_releaseSubresult_covered (r : ℕ) :
    Attempt.Ensures (fun w => w.Inv S none none ∧ w.AllCovered) (releaseSubresult r)
      (fun _ => World.AllCovered) Stop.Any := by
  refine .bind (Place.ensures_read trivial) fun ret => .bind
    (Q := fun _ w => w.Inv S none none ∧ w.AllCovered) (Place.ensures_write trivial ?_)
    fun _ => .ite (fun _ => .pure fun _ h => h.2) fun _ => ensures_releaseResult_covered r
  rintro w - ⟨hr, hinv, h⟩ -
  exact ⟨hinv.setAnswer hr rfl rfl rfl, h.setAnswer hr rfl⟩

theorem ensures_resultAddUnsignedInteger_covered (r : ℕ)
    (diagnosticInfo : Option (Value (List UInt8))) (value : ℕ) :
    Attempt.Ensures (fun w => w.Inv S none none ∧ w.AllCovered)
      (resultAddUnsignedInteger r diagnosticInfo value) (fun _ => World.AllCovered) Stop.Any := by
  have hwrite : ∀ f, Attempt.Ensures (fun w => w.Inv S none none ∧ w.AllCovered)
      (writeResult r f) (fun _ w => w.Inv S none none ∧ w.AllCovered) Stop.Any := fun f =>
    ((preserves_writeResult (S := S) r f).and (leaves_writeResult_covered r f)).imp
      (fun _ h => h) (fun _ _ h => h) fun _ _ => trivial
  refine .bind (Q := fun _ w => w.Inv S none none ∧ w.AllCovered)
    (.bind (ensures_getWorld.imp (fun _ h => h) (fun _ _ h => h.2) fun _ h => h) fun w => ?_)
    fun _ => .bind (hwrite _) fun _ => ensures_releaseResult_covered r
  cases diagnosticInfo with
  | none => exact hwrite _
  | some value => exact hwrite _

/-- **Accepting a subscription** changes no entry, but for those of a result that is complete. -/
theorem ensures_returnSubscribeInternal_covered (r : ℕ)
    (diagnosticInfo : Option (Value (List UInt8))) (k : ℕ) :
    Attempt.Ensures (fun w => w.Inv S none none ∧ w.AllCovered)
      (returnSubscribeInternal r diagnosticInfo k) (fun _ => World.AllCovered) Stop.Any := by
  rw [returnSubscribeInternal_eq]
  refine .bind (Place.ensures_read trivial) fun ret => ?_
  cases hs : ret.session with
  | none => exact .fail trivial
  | some s =>
    refine .bind (((ensures_acceptSubscription (S := S) r s k).and
      (World.Covered.ignoresTable.acceptSubscription r s k)).imp
      (fun w h => ⟨⟨h.2.1, ret, h.1, hs⟩, h.2.2⟩) (fun _ _ h => h) fun _ _ => trivial) ?_
    rintro ⟨id, _ | it⟩
    · exact .bind (ensures_resultAddUnsignedInteger_covered r diagnosticInfo 0) fun _ =>
        .pure fun _ h => h
    · exact .bind (ensures_resultAddUnsignedInteger_covered r diagnosticInfo id) fun _ =>
        Leaves.bind (.malloc fun _ _ h => h.of_eq rfl rfl rfl) fun _ => .ite
          (.bind (.new (fun _ _ h => h.of_eq rfl rfl rfl) it) fun _ => .bind
            (.modifyWorld fun _ h => h.of_eq rfl rfl rfl) fun _ => .pure _) (.pure _)

/-- A result that is answered without its entries has none. -/
theorem ensures_releaseDummyUnsubscribeResult_covered (r : ℕ) :
    Attempt.Ensures (fun w => w.AllCovered ∧
        w.Empty r)
      (releaseDummyUnsubscribeResult r) (fun _ => World.AllCovered) Stop.Any := by
  refine .bind (Place.ensures_read trivial) fun ret => .bind ensures_assert_any fun _ => ?_
  dsimp only
  generalize hremaining : (ret.remaining + (2 ^ 32 - 1)) % 2 ^ 32 = remaining
  refine .bind (Q := fun _ w => w.AllCovered ∧ w.Empty r)
    (Place.ensures_write trivial ?_) fun _ => .ite (fun _ => .pure fun _ h => h.1) fun _ =>
    Place.ensures_free trivial fun w _ h hr => h.1.dropResult hr (h.2 _ hr)
  rintro w - ⟨-, hr, h, hentries⟩ -
  exact ⟨h.setAnswer hr rfl, hentries.setAnswer hr rfl⟩

theorem leaves_requestResult_covered (s requestId count : ℕ) :
    Leaves World.AllCovered (requestResult s requestId count) := by
  have hignores : IgnoresTable (World.Covered 0 0) := World.Covered.ignoresTable
  have hmalloc := hignores.malloc
  refine .bind (.malloc hmalloc) fun _ => .bind (.assert _) fun _ => .ite (.bind
    (.writeBufferInit hmalloc) fun buffer => .bind (Place.ensures_new fun w h => h.newResult rfl)
    fun r => .read_bind fun σ => Attempt.Ensures.bind (Q := fun _ => World.AllCovered)
      (Place.ensures_write trivial fun w _ h _ => h.2.setOutput h.1 rfl) fun _ =>
      .pure fun _ h => h) (.pure _)

/-! ### Taking messages out -/

/-- The entries of a message that is handed out. -/
def OutMessage.entries {ε : Type} : OutMessage ε → List ε
  | .queued _ => []
  | .publish entries => entries

/-- **The entries of a message come from the publish queue.** -/
theorem OutState.publishQueue_sessionOutMessageCreate {ρ ε : Type} (out : OutState ρ ε)
    (malloc : Bool) :
    (out.sessionOutMessageCreate malloc).1.elim [] OutMessage.entries ++
      (out.sessionOutMessageCreate malloc).2.publishQueue = out.publishQueue := by
  have h := out.entries_sessionOutMessageCreate malloc []
  rcases hcreate : out.sessionOutMessageCreate malloc with ⟨_ | m | entries, out'⟩
  · rw [hcreate] at h
    simpa [OutSystem.handedOutEntries] using h
  · rw [hcreate] at h
    simpa [OutSystem.handedOutEntries, OutMessage.entries] using h
  · rw [hcreate] at h
    simpa [OutSystem.handedOutEntries, OutMessage.entries] using h

/-- The data blocks count the entries of a message besides, and handing it out gives their
references up. -/
theorem ensures_handOut_covered (s size : ℕ) (messages : List QueuedOutMessage)
    (message : OutMessage Entry) :
    Attempt.Ensures (World.Covered (uses message.entries) 0) (handOut s size messages message)
      (fun _ => World.AllCovered) Stop.Any := by
  cases message with
  | queued m =>
    refine .bind Leaves.getWorld fun w => ?_
    split
    · exact World.Covered.emit _ _
    · exact .fail trivial
  | publish entries =>
    refine .bind Leaves.getWorld fun v => ?_
    intro w₀ h
    have hwrite := @ensures_writePublish w₀
      (fun k => dataReferences w₀.publishData k - uses entries k)
      { written := outMessageHeader .publish 0 (entries.length * 2 % 2 ^ 32)
        valid := true
        contents := [] } entries
    refine Attempt.Ensures.bind (@Attempt.Ensures.imp _ _ _ _ (fun w => w = w₀) _ _ _ _ _ hwrite ?_
      ?_ fun _ h => h) (fun dest => .ite (fun _ => World.Covered.emit _ _) fun _ => .fail trivial)
      w₀ rfl
    · rintro w rfl
      refine ⟨_, rfl, fun k => ?_, h.pos⟩
      have hcovered : w.uses k + uses entries k = dataReferences w.publishData k + 0 := h.count k
      show dataReferences w.publishData k - uses entries k + _ = _
      omega
    · rintro dest _ ⟨heap, rfl, hrefs, hpos⟩
      refine h.trans hpos fun k => ?_
      have heq : dataReferences w₀.publishData k - uses entries k = dataReferences heap k := hrefs k
      have hcovered : w₀.uses k + uses entries k = dataReferences w₀.publishData k + 0 :=
        h.count k
      show w₀.uses k + 0 + (dataReferences w₀.publishData k + 0) =
        w₀.uses k + uses entries k + (dataReferences heap k + 0)
      omega

theorem leaves_sessionOutMessageCreate_covered (s : ℕ) :
    Leaves World.AllCovered (sessionOutMessageCreate s) := by
  refine .read_bind fun σ => .bind (Leaves.publishContentSize (P := fun w =>
    w.sessions.get s = some σ ∧ w.AllCovered) _) fun size => .bind (Leaves.ite (.malloc
    fun w malloc h => ⟨h.1, h.2.of_eq rfl rfl rfl⟩) (.pure _)) fun ret => ?_
  have hqueue := σ.out.publishQueue_sessionOutMessageCreate ret
  rcases hcreate : σ.out.sessionOutMessageCreate ret with ⟨message, out⟩
  rw [hcreate] at hqueue
  refine .bind (Q := fun _ => World.Covered (uses (message.elim [] OutMessage.entries)) 0)
    (Place.ensures_write trivial ?_) fun _ => ?_
  · rintro w - ⟨hσ, h⟩ -
    refine h.setSession hσ fun data => ?_
    rw [← hqueue, uses_append]
    dsimp only [Pi.zero_apply]
    omega
  · cases message with
    | none => exact .pure fun w h => h
    | some message =>
      exact .bind (ensures_handOut_covered s size _ message) fun _ => .pure fun _ h => h

/-! ### Every operation -/

/-- **When a session ends**, the entries in its publish queue give their references up. -/
theorem ensures_closeSession_covered (s : ℕ) (σ : Session) :
    Attempt.Ensures (fun w => w.AllCovered ∧ w.sessions.get s = some σ) (closeSession s σ)
      (fun _ => World.AllCovered) Stop.Any := by
  -- the session is still there, but the entries in its publish queue are not counted
  let Closing : World → Prop := fun w =>
    w.sessions.get s = some σ ∧ w.Covered 0 (uses σ.out.publishQueue)
  have hrelease : Leaves (fun w => w.AllCovered ∧ w.sessions.get s = some σ)
      (releaseQueuedOutMessages σ) := by
    unfold releaseQueuedOutMessages
    dsimp only
    split
    · exact .pure _
    · exact .fail _
  have horphans : ∀ l, Leaves Closing (orphanResults l) := by
    intro l
    induction l with
    | nil => exact .pure _
    | cons r next ih =>
      refine .read_bind fun ret => .bind (Q := fun _ => Closing) (Place.ensures_write trivial ?_)
        fun _ => ih
      rintro w - ⟨hr, hσ, h⟩ -
      exact ⟨hσ, h.setAnswer hr rfl⟩
  have hfree : Attempt.Ensures Closing (sessions.free s) (fun _ => World.AllCovered) Stop.Any :=
    Place.ensures_free trivial fun w _ h _ => h.2.freeSession h.1
  refine .bind hrelease fun _ => .bind (Q := fun _ => Closing) (.of_run ?_) fun _ =>
    .bind (horphans _) fun _ => .ite (fun _ => .bind (.bind hfree fun _ => .bind (Leaves.assert _)
      fun _ => Place.ensures_new fun w h => h.newResult rfl) fun _ => .pure fun _ h => h)
      fun _ => .bind hfree fun _ => .pure fun _ h => h
  rintro w ⟨h, hσ⟩
  obtain ⟨heap, hrun, hrefs, hpos⟩ := run_publishQueueItemsDeref (h.uses_publishQueue_le hσ)
  exact ⟨_, _, hrun, fun _ _ => ⟨hσ, h.dereference hrefs (hpos h.pos)⟩, fun _ _ => trivial⟩

/-- Every entry has its reference. -/
abbrev covered (_ : Multiset Token) (w : World) : Prop := w.AllCovered

/-- **Every operation leaves every entry its reference**, given what the results are for: those
that are answered without their entries have accepted no item, and thus wait with none. -/
theorem conservesRuns_covered (plain : ℕ → Prop) :
    ConservesRuns (Owed.Fits plain) S (settledKinds plain) covered where
  fits _ _ h _ := h.2.owed
  malloc _ _ _ h _ := h.of_eq rfl rfl rfl
  retain _ k := (World.Covered.ignoresTable.retainSubscription k).moves fun _ _ h => h
  release _ k := (World.Covered.ignoresTable.releaseSubscription k).moves fun _ _ h => h
  write _ r f _ := (leaves_writeResult_covered r f).moves fun _ _ h => h
  answer _ r := (ensures_releaseResult_covered r).imp (fun _ h => ⟨h.1, h.2.2.1⟩)
    (fun _ _ h => h) fun _ h => h
  announce _ r count _ := by
    refine .bind (Q := fun _ w => w.Inv S none none ∧ w.AllCovered)
      (ensures_modifyWorld fun w h => ?_) fun _ => ensures_requestSubresult_covered r count
    refine ⟨h.1.frame ?_, World.Covered.of_eq h.2.2.1 rfl rfl rfl⟩
    exact (inert_owed (fun owed => owed ++ List.replicate count (.subitem r)) w w (.refl w) _ _
      rfl).1 _ rfl
  subanswer _ r := (ensures_releaseSubresult_covered r).imp (fun _ h => ⟨h.1, h.2.2.1⟩)
    (fun _ _ h => h) fun _ h => h
  dummy _ r := by
    refine (ensures_releaseDummyUnsubscribeResult_covered r).imp ?_ (fun _ _ h => h) fun _ h => h
    rintro w ⟨hinv, hkinds, h, ⟨k, hplain⟩, -⟩
    exact ⟨h, fun ret hr =>
      (hinv.result r ret hr).entries_eq_nil (hkinds.2.items r ret hr hplain)⟩
  owe _ event owed _ := ensures_emit fun w h => h.2.2.1.of_eq rfl rfl rfl
  redeem _ o := ensures_modifyWorld fun w h => h.2.2.1.of_eq rfl rfl rfl
  oweAlias _ k := ensures_modifyWorld fun w h => h.2.2.1.of_eq rfl rfl rfl
  freeRepublish _ handle :=
    (Leaves.free (fun _ _ h => h.of_eq rfl rfl rfl) handle).moves fun _ _ h => h
  publish _ handle item := (leaves_publish_covered handle item).moves fun _ _ h => h
  take _ s := (leaves_sessionOutMessageCreate_covered s).moves fun _ _ h => h
  slots _ s count _ := (Leaves.read_bind fun σ => Place.ensures_write trivial fun w _ h _ =>
    h.2.setOutput h.1 (OutState.publishQueue_addFreePublishSlots _ _)).moves fun _ _ h => h
  subscribe _ r diagnosticInfo k :=
    (ensures_returnSubscribeInternal_covered (S := S) r diagnosticInfo k).imp
      (fun _ h => ⟨h.1, h.2.2.1⟩) (fun _ _ h => h) fun _ h => h
  request _ type key := (World.Covered.ignoresTable.requestSubscription type key).moves
    fun _ _ h => h
  append _ s messageId requestId payloadCount buffer _ := by
    refine Leaves.moves (.bind (.malloc fun _ _ h => h.of_eq rfl rfl rfl) fun ret => .read_bind
      fun σ => Place.ensures_write trivial fun w _ h _ => ?_) fun _ _ h => h
    exact h.2.setOutput h.1 (OutState.publishQueue_appendOutMessage _ _ _)
  requestResult _ s requestId count _ _ := (leaves_requestResult_covered s requestId count).moves
    fun _ _ h => h
  unsubscribe _ s id := (World.Covered.ignoresTable.unsubscribeItem s id).moves fun _ _ h => h
  create _ := by
    refine Leaves.moves (.bind (.malloc fun _ _ h => h.of_eq rfl rfl rfl) fun _ => .ite (.bind
      (Place.ensures_new fun w h => h.newSession rfl) fun _ => .bind (.modifyWorld fun w h => ?_)
      fun _ => .pure _) (.pure _)) fun _ _ h => h
    split
    · exact h
    · exact h.of_eq rfl rfl rfl
  hello _ s σ := Place.ensures_write trivial fun w _ h _ => h.2.2.1.setOutput h.2.2.2 rfl
  close _ s σ := (ensures_closeSession_covered s σ).imp (fun _ h => ⟨h.2.2.1, h.2.2.2⟩)
    (fun _ _ h => h) fun _ h => h
  deleteItem _ it := (World.Covered.ignoresTable.deletePublishItem it).moves fun _ _ h => h

/-- **In every run the data blocks count exactly the entries** that are in the publish queue of a
session or with a result. -/
theorem covered_of_run {app : Application} {sizeT : Cbor.SizeT} {callbacks : Callback → Bool}
    {malloc : ℕ → Bool} {acts : List Act}
    (hrun : Transition.Run (World.step app) Transition.anyStep
      (World.create sizeT callbacks malloc) acts w) : w.AllCovered := by
  have hcreate : settledKinds (fun _ => False) 0 (World.create sizeT callbacks malloc) ∧
      (World.create sizeT callbacks malloc).AllCovered :=
    ⟨⟨⟨nofun, nofun, fun r _ => ⟨rfl, rfl⟩⟩, nofun, nofun⟩, fun _ => rfl, nofun⟩
  obtain ⟨plain, -, -, h⟩ := (conservesKinds_plain (S := False) conservesRuns_covered).of_run
    False.elim (fun _ => False) hcreate hrun
  exact h

end Wpcp

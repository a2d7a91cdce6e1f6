import Wpcp.Session.Writes

/-!
# Every function keeps the invariant

For each function of the library that touches sessions, results or publish items: from a
world with the invariant it ends in one with the invariant, and it fails no assertion of
its own. The functions are taken in the order in which they call each other; what a
function leaves to its caller, such as the item it has registered without a result, is in
its postcondition. This module has the functions that write to sessions and publish
items; an assertion `F` on the heap of results passes through them.
-/

namespace Wpcp

open Cbor (Value WriteBuffer)

variable {S : Prop} {er ei : Option ℕ} {P : World → Prop} {F : Heap Result → Prop}

/-- An assertion that an inert call cannot tell apart. -/
def Framed (P : World → Prop) : Prop := ∀ w w', Frame w w' → P w → P w'

theorem framed_inv : Framed (World.Inv S er ei) := fun _ _ hf h => h.frame hf

theorem Framed.and {P Q : World → Prop} (hP : Framed P) (hQ : Framed Q) :
    Framed fun w => P w ∧ Q w :=
  fun w w' hf h => ⟨hP w w' hf h.1, hQ w w' hf h.2⟩

theorem framed_results : Framed fun w => F w.results := by
  intro w w' hf h
  rw [hf.results]
  exact h

/-- An inert call keeps every framed assertion. -/
theorem Inert.keeps {α : Type} {m : Calls α} (h : Inert m) (hP : Framed P) :
    Attempt.Ensures P m (fun _ => P) Stop.Fair :=
  h.ensures hP

/-- Where every allocation succeeds, so does the next one. -/
theorem ensures_malloc {E : Stop → Prop} (hP : Framed P)
    (hS : ∀ w, P w → S → ∀ n, w.malloc n = true) :
    Attempt.Ensures P malloc (fun ok w => P w ∧ (S → ok = true)) E := by
  intro w hw r t hrun
  obtain ⟨rfl, rfl⟩ := Prod.mk.inj (Option.some.inj hrun)
  refine ⟨fun a ha => ?_, fun e he => (nomatch he)⟩
  obtain rfl := Except.ok.inj ha
  have hframe := Inert.malloc w w (Frame.refl w) _ _ rfl
  exact ⟨hP w _ (hframe.1 _ rfl) hw, fun h => hS w hw h 0⟩

/-! ### The output of a session -/

/-- The ids of a list have been announced to their items in a session. -/
def World.AnnouncedAll (w : World) (s : ℕ) (granted : List (ℕ × ℕ)) : Prop :=
  ∀ σ, w.sessions.get s = some σ → ∀ g ∈ granted, Announced σ.ops g.1 g.2

/-- **A message that is queued announces what it grants.** -/
theorem ensures_sessionAppendOutMessage (s : ℕ) (messageId : MessageId)
    (requestId payloadCount : ℕ) (buffer : WriteBuffer) (granted : List (ℕ × ℕ)) :
    Attempt.Ensures (fun w => w.Inv S er ei ∧ F w.results)
      (sessionAppendOutMessage s messageId requestId payloadCount buffer granted)
      (fun _ w => w.Inv S er ei ∧ F w.results ∧ (S → w.AnnouncedAll s granted)) Stop.Fair := by
  have hframed : Framed fun w => w.Inv S er ei ∧ F w.results := framed_inv.and framed_results
  refine .bind (ensures_malloc hframed fun w hw => hw.1.malloc) fun ret =>
    .bind (Place.ensures_read Stop.fair_dangling) fun σ =>
    Place.ensures_write Stop.fair_dangling ?_
  rintro w - ⟨hσ, ⟨hinv, hF⟩, hret⟩ -
  refine ⟨hinv.setOutput hσ rfl rfl rfl (fun hS => ?_) (fun hS id it hid hann => ?_), hF, ?_⟩
  · obtain ⟨htrace, htracked⟩ := hinv.output hS s σ hσ
    obtain rfl := hret hS
    exact ⟨htrace.snoc fun first rest heq => (nomatch heq), fun h => (htracked h).snoc trivial rfl⟩
  · obtain rfl := hret hS
    refine hann.append fun g hg hreused hgid => ?_
    obtain ⟨p, -, rfl⟩ := List.mem_map.mp hg
    by_contra hne
    obtain rfl : p.1 = id := hgid
    exact of_decide_eq_false hreused (Or.inl ⟨it, hid, fun heq => hne heq.symm⟩)
  · intro hS τ hτ g hg
    obtain rfl := hret hS
    have hset := hτ
    rw [Heap.get_set hσ, if_pos rfl] at hset
    obtain rfl := Option.some.inj hset
    refine announced_append ⟨_, List.mem_map_of_mem hg, rfl, rfl⟩ fun hreused g' hg' hid => ?_
    obtain ⟨p, hp, rfl⟩ := List.mem_map.mp hg'
    by_contra hne
    exact of_decide_eq_false (hreused _ (List.mem_map_of_mem hg)) (Or.inr ⟨p, hp, hid, hne⟩)

/-- Entries may be published when their ids have been announced to their items. -/
theorem ensures_sessionPublishQueueAppend (s : ℕ) (first : Entry) (rest : List Entry)
    (granted : List (ℕ × ℕ))
    (hentries : ∀ e ∈ first :: rest, (e.subscriptionid, e.item) ∈ granted) :
    Attempt.Ensures
      (fun w => w.Inv S er ei ∧ F w.results ∧ (S → w.AnnouncedAll s granted))
      (sessionPublishQueueAppend s first rest)
      (fun _ w => w.Inv S er ei ∧ F w.results ∧ (S → w.AnnouncedAll s granted))
      Stop.Fair := by
  refine .bind (Place.ensures_read Stop.fair_dangling) fun σ =>
    Place.ensures_write Stop.fair_dangling ?_
  rintro w - ⟨hσ, hinv, hF, hgranted⟩ -
  refine ⟨hinv.setOutput hσ rfl rfl rfl (fun hS => ?_) (fun _ _ _ _ hann => hann.publish _ _),
    hF, fun hS τ hτ g hg => ?_⟩
  · obtain ⟨htrace, htracked⟩ := hinv.output hS s σ hσ
    refine ⟨htrace.snoc ?_, fun h => (htracked h).snoc trivial rfl⟩
    intro first' rest' heq e he
    obtain ⟨rfl, rfl⟩ := OutOp.publish.inj heq
    exact hgranted hS σ hσ _ (hentries e he)
  · have hset := hτ
    rw [Heap.get_set hσ, if_pos rfl] at hset
    obtain rfl := Option.some.inj hset
    exact (hgranted hS σ hσ g hg).publish _ _

/-- There is a message to take out. -/
def World.HasOutMessage (w : World) (s : ℕ) : Prop :=
  ∃ σ, w.sessions.get s = some σ ∧ σ.out.sessionHasOutMessage = true

/-- Taking a message out, when there is one. -/
theorem ensures_sessionOutMessageCreate (s : ℕ) :
    Attempt.Ensures (fun w => w.Inv S er ei ∧ w.HasOutMessage s)
      (sessionOutMessageCreate s) (fun _ => World.Inv S er ei) Stop.Fair := by
  have hframed (σ : Session) : Framed fun w =>
      w.sessions.get s = some σ ∧ w.Inv S er ei ∧ w.HasOutMessage s := by
    rintro w w' hf ⟨hσ, hinv, hout⟩
    refine ⟨?_, hinv.frame hf, ?_⟩
    · rw [hf.sessions]
      exact hσ
    · rw [World.HasOutMessage, hf.sessions]
      exact hout
  have hmalloc (σ : Session) := ensures_malloc (E := Stop.Fair) (hframed σ) fun w hw =>
    hw.2.1.malloc
  refine .bind (Place.ensures_read Stop.fair_dangling) fun σ =>
    .bind ((inert_publishContentSize _).keeps (hframed σ)) fun size =>
    .bind (.ite (fun _ => hmalloc σ) fun _ => .pure fun w hw => ⟨hw, fun _ => rfl⟩) fun ret =>
    .bind (Q := fun _ => World.Inv S er ei) (Place.ensures_write Stop.fair_dangling ?_) fun _ => ?_
  · rintro w - ⟨⟨hσ, hinv, τ, hτ, hout⟩, hret⟩ -
    obtain rfl := Option.some.inj (hσ.symm.trans hτ)
    refine hinv.setOutput hσ rfl rfl rfl (fun hS => ?_) fun _ _ _ _ hann => hann.create
    obtain ⟨htrace, htracked⟩ := hinv.output hS s σ hσ
    obtain rfl := hret hS
    exact ⟨htrace.snoc fun first rest heq => (nomatch heq), fun h =>
      (htracked h).snoc trivial (if_pos hout)⟩
  · split
    · exact .bind ((inert_handOut _ _ _ _).keeps framed_inv) fun _ => .pure fun _ h => h
    · exact .pure fun _ h => h

/-- Adding free slots changes the output, and the trace does not count them. -/
theorem ensures_sessionAddFreePublishSlots (s count : ℕ) :
    Attempt.Ensures (fun w => w.Inv S er ei) (sessionAddFreePublishSlots s count)
      (fun _ => World.Inv S er ei) Stop.Fair := by
  refine .bind (Place.ensures_read Stop.fair_dangling) fun σ =>
    Place.ensures_write Stop.fair_dangling ?_
  rintro w - ⟨hσ, hinv⟩ -
  refine hinv.setOutput hσ rfl rfl rfl (fun hS => ?_) fun _ _ _ _ hann => hann
  obtain ⟨htrace, htracked⟩ := hinv.output hS s σ hσ
  refine ⟨htrace, fun h => ?_⟩
  obtain ⟨hnone, rfl⟩ : σ.slotsAdded = 0 ∧ count = 0 := by
    simp only at h
    omega
  have hrun := htracked hnone
  rwa [← σ.out.sessionAddFreePublishSlots_zero (OutSystem.slots_lt_of_run hrun)] at hrun

/-! ### Publish items -/

/-- The id of the first free place from some place on. -/
theorem nextFreeId_spec (items : List (Option ℕ)) (id : ℕ) :
    id ≤ nextFreeId items id ∧ nextFreeId items id ≤ id + items.length ∧
      (nextFreeId items id < id + items.length → items[nextFreeId items id - id]? = some none) := by
  induction items generalizing id with
  | nil => simp [nextFreeId]
  | cons item items ih =>
    cases item with
    | none => simp [nextFreeId]
    | some item =>
      obtain ⟨hle, hge, hnone⟩ := ih (id + 1)
      simp only [nextFreeId, List.length_cons]
      refine ⟨by omega, by omega, fun hlt => ?_⟩
      rw [show nextFreeId items (id + 1) - id = nextFreeId items (id + 1) - (id + 1) + 1 by omega]
      exact hnone (by omega)

/-- The id found is that of a free place of the table, once that is 16 places longer. -/
theorem nextFreeId_table {table : List (Option ℕ)} {start : ℕ}
    (hstart : start ≤ table.length + 1) :
    (table ++ List.replicate 16 none)[nextFreeId (table.drop start) start]? = some none := by
  obtain ⟨hle, hge, hnone⟩ := nextFreeId_spec (table.drop start) start
  rw [List.length_drop] at hge hnone
  by_cases hlt : nextFreeId (table.drop start) start < table.length
  · rw [List.getElem?_append_left hlt]
    have h := hnone (by omega)
    rw [List.getElem?_drop] at h
    rwa [show start + (nextFreeId (table.drop start) start - start) =
      nextFreeId (table.drop start) start by omega] at h
  · rw [List.getElem?_append_right (by omega), List.getElem?_replicate, if_pos (by omega)]

/-- **The next free id is free**, unless it is 0. -/
theorem ensures_sessionGetNextFreePublishId (s : ℕ) :
    Attempt.Ensures (fun w => w.Inv S er ei ∧ F w.results)
      (sessionGetNextFreePublishId s)
      (fun id w => w.Inv S er ei ∧ F w.results ∧
        (id = 0 ∨ ∃ σ, w.sessions.get s = some σ ∧ σ.publishItems[id]? = some none))
      Stop.Fair := by
  refine .bind (Place.ensures_read Stop.fair_dangling) fun σ => ?_
  refine .ite (fun hlt => .pure ?_) fun _ => .bind (Q := fun _ (w : World) =>
    w.sessions.get s = some σ ∧ w.Inv S er ei ∧ F w.results) ?_ fun ok => .ite
      (fun _ => .ite (fun _ => ?_) fun _ => .fail Stop.fair_dangling)
      fun _ => .pure fun w hw => ⟨hw.2.1, hw.2.2, Or.inl rfl⟩
  · rintro w ⟨hσ, hinv, hF⟩
    have hfree := nextFreeId_table (hinv.session s σ hσ).nextFree
    rw [List.getElem?_append_left hlt] at hfree
    exact ⟨hinv, hF, Or.inr ⟨σ, hσ, hfree⟩⟩
  · exact Inert.malloc.keeps fun w w' hf h =>
      ⟨(congrArg (·.get s) hf.sessions).trans h.1, h.2.1.frame hf, framed_results w w' hf h.2.2⟩
  · refine .bind (Q := fun _ (w : World) => w.Inv S er ei ∧ F w.results ∧
      ∃ σ', w.sessions.get s = some σ' ∧
        σ'.publishItems[nextFreeId (σ.publishItems.drop σ.nextFreePublishItem)
          σ.nextFreePublishItem]? = some none)
      (Place.ensures_write Stop.fair_dangling ?_) fun _ => .pure fun w hw =>
        ⟨hw.1, hw.2.1, Or.inr hw.2.2⟩
    rintro w - ⟨hσ, hinv, hF⟩ -
    have hses := hinv.session s σ hσ
    have hkeeps (id it : ℕ) : (σ.publishItems ++ List.replicate 16 none)[id]? = some (some it) ↔
        σ.publishItems[id]? = some (some it) := by
      by_cases hid : id < σ.publishItems.length
      · rw [List.getElem?_append_left hid]
      · rw [List.getElem?_append_right (by omega), List.getElem?_replicate,
          List.getElem?_eq_none (by omega)]
        split
        · simp
        · simp
    refine ⟨hinv.setTable hσ rfl (fun id it hid => hses.table id it ((hkeeps id it).mp hid)) ?_
      (fun hS => ?_) (fun id it _ hid => (hkeeps id it).mpr hid) (fun _ _ _ _ h => h), hF,
      { σ with publishItems := σ.publishItems ++ List.replicate 16 none }, ?_,
      nextFreeId_table hses.nextFree⟩
    · simp only [List.length_append]
      have := hses.nextFree
      omega
    · obtain ⟨htrace, htracked⟩ := hinv.output hS s σ hσ
      exact ⟨htrace, htracked⟩
    · show (w.sessions.set s _).get s = _
      rw [Heap.get_set hσ, if_pos rfl]

/-- An item is in its places, with an id of a session. -/
def World.Registered (w : World) (s id it : ℕ) : Prop :=
  ∃ i, w.publishItems.get it = some i ∧ i.session = s ∧ i.subscriptionid = id ∧ ItemInv w it i

/-- **A new publish item is put into its places**; only a result that has granted its id
is still missing. -/
theorem ensures_sessionRequestPublishItem (s subscription id : ℕ) :
    Attempt.Ensures
      (fun w => w.Inv S er none ∧ F w.results ∧
        ∃ σ, w.sessions.get s = some σ ∧ σ.publishItems[id]? = some none)
      (sessionRequestPublishItem s subscription id)
      (fun
        | none => World.Inv S er none
        | some it => fun w => w.Inv S er (some it) ∧ F w.results ∧ w.Registered s id it)
      Stop.Fair := by
  have hframed : Framed fun w => w.Inv S er none ∧ F w.results ∧
      ∃ σ, w.sessions.get s = some σ ∧ σ.publishItems[id]? = some none := by
    rintro w w' hf ⟨hinv, hF, σ, hσ, hid⟩
    exact ⟨hinv.frame hf, framed_results w w' hf hF, σ, (congrArg (·.get s) hf.sessions).trans hσ,
      hid⟩
  -- the item is in its list, and not in its table yet
  have framed_unlisted : ∀ it, Framed fun w => w.Inv S er (some it) ∧ F w.results ∧
      w.publishItems.get it = some ⟨subscription, s, id⟩ ∧
      (∃ σ, w.sessions.get s = some σ ∧ σ.publishItems[id]? = some none) ∧
      subscription < w.subscriptions.next ∧
      ∀ sub, w.subscriptions.get subscription = some sub → it ∈ sub.publishHandle.items := by
    rintro it w w' hf ⟨hinv, hF, hi, ⟨σ, hσ, hid⟩, hlt, hhandle⟩
    refine ⟨hinv.frame hf, framed_results w w' hf hF, ?_, ⟨σ, ?_, hid⟩,
      hlt.trans_le hf.next, fun sub hsub => ?_⟩
    · rw [hf.publishItems]
      exact hi
    · rw [hf.sessions]
      exact hσ
    · obtain ⟨sub', hsub', heq⟩ := hf.handle subscription sub hsub hlt
      rw [heq]
      exact hhandle sub' hsub'
  refine .bind (Inert.malloc.keeps hframed) fun ok => .ite (fun _ => ?_) fun _ => ?_
  · refine .bind (Q := fun it (w : World) => w.Inv S er (some it) ∧ F w.results ∧
      w.publishItems.get it = some ⟨subscription, s, id⟩ ∧
      ∃ σ, w.sessions.get s = some σ ∧ σ.publishItems[id]? = some none)
      (Place.ensures_new ?_) fun it => .bind (Place.ensures_read Stop.fair_dangling) fun sub => ?_
    · rintro w ⟨hinv, hF, hfree⟩
      refine ⟨hinv.newItem, hF, ?_, hfree⟩
      show (w.publishItems.alloc _).get _ = _
      rw [Heap.get_alloc, if_pos rfl]
    refine .bind (Q := fun _ (w : World) => w.Inv S er (some it) ∧ F w.results ∧
      w.publishItems.get it = some ⟨subscription, s, id⟩ ∧
      (∃ σ, w.sessions.get s = some σ ∧ σ.publishItems[id]? = some none) ∧
      subscription < w.subscriptions.next ∧
      ∀ sub, w.subscriptions.get subscription = some sub → it ∈ sub.publishHandle.items)
      (Place.ensures_write Stop.fair_dangling ?_) fun _ => .bind
      ((Inert.linkItem subscription it).keeps (framed_unlisted it)) fun _ =>
      .bind (Place.ensures_read Stop.fair_dangling) fun σ => .bind
        (Q := fun _ (w : World) => w.Inv S er (some it) ∧ F w.results ∧ w.Registered s id it)
        (Place.ensures_write Stop.fair_dangling ?_) fun _ => .pure fun _ h => h
    · rintro w - ⟨hsub, hinv, hF, hi, hfree⟩ -
      have hlt := Heap.lt_next hsub
      refine ⟨hinv.setHandle hsub fun k hk _ => List.mem_cons_of_mem _ hk, hF, hi, hfree, hlt,
        fun sub' hsub' => ?_⟩
      rw [Heap.get_set hsub, if_pos rfl] at hsub'
      obtain rfl := Option.some.inj hsub'
      exact List.mem_cons_self
    · rintro w - ⟨hσ, hinv, hF, hi, ⟨τ, hτ, hfree⟩, hlt, hhandle⟩ -
      obtain rfl := Option.some.inj (hσ.symm.trans hτ)
      have hid := (List.getElem?_eq_some_iff.mp hfree).1
      refine ⟨hinv.setTable hσ rfl ?_ ?_ (fun hS => ?_) ?_ (fun _ _ _ _ h => h), hF, _, hi, rfl,
        rfl, (Heap.lt_next hσ : s < w.sessions.next), fun τ hτ => ?_, hlt, hhandle⟩
      · intro id' k hk
        rw [List.getElem?_set] at hk
        split at hk
        · rename_i heq
          obtain rfl := Option.some.inj (Option.some.inj hk)
          exact ⟨_, hi, rfl, heq⟩
        · exact (hinv.session s σ hσ).table id' k hk
      · rw [List.length_set]
        exact Nat.succ_le_succ hid.le
      · obtain ⟨htrace, htracked⟩ := hinv.output hS s σ hσ
        exact ⟨htrace, htracked⟩
      · intro id' k _ hk
        rw [List.getElem?_set_ne, hk]
        rintro rfl
        rw [hfree] at hk
        simp at hk
      · have hset := hτ
        rw [Heap.get_set hσ, if_pos rfl] at hset
        obtain rfl := Option.some.inj hset
        exact List.getElem?_set_self hid
  · exact .bind ((inert_releaseSubscription _).keeps hframed) fun _ => .pure fun _ h => h.1

/-- No session has the item in its table. -/
def World.Untabled (w : World) (it : ℕ) : Prop :=
  ∀ s σ (id : ℕ), w.sessions.get s = some σ → σ.publishItems[id]? ≠ some (some it)

/-- The item is in the list of its subscription. -/
def World.Handled (w : World) (it : ℕ) : Prop :=
  ∀ i s, w.publishItems.get it = some i → w.subscriptions.get i.subscription = some s →
    it ∈ s.publishHandle.items

/-- **An item that is in no table any more is released**: the assertion that its list
holds it does not fail. -/
theorem ensures_publishItemRelease (it : ℕ) :
    Attempt.Ensures (fun w => w.Inv S er (some it) ∧ w.Untabled it ∧ w.Handled it)
      (publishItemRelease it) (fun _ => World.Inv S er none) Stop.Fair := by
  have framed_untabled : Framed fun w => w.Inv S er (some it) ∧ w.Untabled it := by
    rintro w w' hf ⟨hinv, huntabled⟩
    refine ⟨hinv.frame hf, ?_⟩
    rw [World.Untabled, hf.sessions]
    exact huntabled
  refine .bind (Place.ensures_read Stop.fair_dangling) fun i =>
    .bind (Place.ensures_read Stop.fair_dangling) fun s =>
    .bind (ensures_assert fun w hw => ?_) fun _ =>
    .bind (Q := fun _ (w : World) => w.Inv S er (some it) ∧ w.Untabled it)
      (Place.ensures_write Stop.fair_dangling ?_) fun _ =>
    .bind ((Inert.unlinkItem i.subscription it).keeps framed_untabled) fun _ =>
    .bind (Q := fun _ => World.Inv S er none) (Place.ensures_free Stop.fair_dangling ?_) fun _ =>
    .bind (Inert.getWorld.keeps framed_inv) fun _ => .bind ((Inert.emit _ _).keeps framed_inv)
    fun _ => (inert_releaseSubscription _).keeps framed_inv
  · obtain ⟨hs, hi, -, -, hhandled⟩ := hw
    exact hhandled i s hi hs
  · rintro w - ⟨hs, hi, hinv, huntabled, -⟩ -
    refine ⟨hinv.setHandle hs fun k hk hne => ?_, huntabled⟩
    exact (List.mem_erase_of_ne fun heq => hne (congrArg some heq.symm)).mpr hk
  · rintro w - ⟨hinv, huntabled⟩ -
    exact hinv.freeItem huntabled

/-- An item of a session is taken out of its table and released. -/
theorem ensures_sessionReleasePublishItem (s it : ℕ) :
    Attempt.Ensures
      (fun w => w.Inv S er none ∧ ∃ i, w.publishItems.get it = some i ∧ i.session = s)
      (sessionReleasePublishItem s it) (fun _ => World.Inv S er none) Stop.Fair := by
  refine .bind (Place.ensures_read Stop.fair_dangling) fun σ =>
    .bind (Place.ensures_read Stop.fair_dangling) fun i =>
    .bind (Place.ensures_write Stop.fair_dangling ?_) fun _ => ensures_publishItemRelease it
  rintro w - ⟨hi, hσ, hinv, j, hj, rfl⟩ -
  obtain rfl := Option.some.inj (hi.symm.trans hj)
  have hses := hinv.session _ σ hσ
  refine ⟨(hinv.exempt it).setTable hσ rfl ?_ ?_ (fun hS => ?_) ?_ (fun _ _ _ _ h => h), ?_, ?_⟩
  · intro id k hk
    rw [List.getElem?_set] at hk
    split at hk
    · split at hk
      · simp at hk
      · simp at hk
    · exact hses.table id k hk
  · rw [List.length_set]
    exact Nat.le_trans (Nat.min_le_right _ _) hses.nextFree
  · obtain ⟨htrace, htracked⟩ := hinv.output hS _ σ hσ
    exact ⟨htrace, htracked⟩
  · intro id k hne hk
    rw [List.getElem?_set_ne, hk]
    rintro rfl
    -- the place cleared is that of the item
    obtain ⟨j, hj, -, hid⟩ := hses.table _ k hk
    have htable := (hinv.item it i hi nofun).table σ hσ
    exact hne (Option.some.inj (htable.symm.trans hk))
  · intro k τ id hτ hmem
    rw [Heap.get_set hσ] at hτ
    split at hτ
    · obtain rfl := Option.some.inj hτ
      rw [List.getElem?_set] at hmem
      split at hmem
      · split at hmem
        · simp at hmem
        · simp at hmem
      · obtain ⟨j, hj, -, hid⟩ := hses.table id it hmem
        obtain rfl := Option.some.inj (hi.symm.trans hj)
        exact absurd hid ‹_›
    · obtain ⟨j, hj, hsession, -⟩ := (hinv.session k τ hτ).table id it hmem
      obtain rfl := Option.some.inj (hi.symm.trans hj)
      exact absurd hsession.symm ‹_›
  · intro j sub hj hsub
    obtain rfl := Option.some.inj (hi.symm.trans hj)
    exact (hinv.item it i hi nofun).handle.2 sub hsub

end Wpcp

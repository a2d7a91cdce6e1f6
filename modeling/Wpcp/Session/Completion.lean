import Wpcp.Session.Preservation

/-!
# Results and publishing keep the invariant

An entry published to an item waits with the first result of the session that has
accepted the item, and goes to the output where there is none; by the invariant, the
item has then been announced. A result that is complete is taken out of the list of its
session, sent, and freed; sending it announces what it has granted, and the entries that
have waited with it follow.
-/

namespace Wpcp

open Cbor (Value WriteBuffer)

variable {S : Prop} {er ei : Option ℕ} {α : Type}

/-- A function that keeps the invariant, with nothing exempted, and fails no assertion. -/
abbrev Preserves (S : Prop) (m : Calls α) : Prop :=
  Attempt.Ensures (World.Inv S none none) m (fun _ => World.Inv S none none) Stop.Fair

theorem Inert.preserves {m : Calls α} (h : Inert m) : Preserves S m := h.keeps framed_inv

/-! ### Publishing -/

/-- What a result has granted are the items it has accepted. -/
theorem World.Inv.mem_blockedItems {w : World} (h : w.Inv S er ei) {r it : ℕ} :
    it ∈ w.blockedItems r ↔ ∃ ret id, w.results.get r = some ret ∧ (id, it) ∈ ret.granted := by
  unfold World.blockedItems
  cases hr : w.results.get r with
  | none => simp
  | some ret =>
    obtain ⟨hitems, hnone, -, -⟩ := h.result r ret hr
    cases hblocked : ret.blockedItems with
    | none => simp [hblocked, hnone hblocked]
    | some blocked => simp [hblocked, hitems blocked hblocked]

/-- **An entry reaches the output only when its item has been announced.** -/
theorem ensures_sessionAddPublishQueueItem (it : ℕ) (entry : Entry) :
    Attempt.Ensures
      (fun w => w.Inv S none none ∧ ∃ i, w.publishItems.get it = some i ∧
        i.subscriptionid = entry.subscriptionid ∧ entry.item = it)
      (sessionAddPublishQueueItem it entry) (fun _ => World.Inv S none none) Stop.Fair := by
  refine .bind (Q := fun found (w : World) => w.Inv S none none ∧ ∃ i σ,
    w.publishItems.get it = some i ∧ i.subscriptionid = entry.subscriptionid ∧ entry.item = it ∧
      w.sessions.get i.session = some σ ∧
      found = σ.results.find? fun result => it ∈ w.blockedItems result) ?_ ?_
  · refine .bind (Place.ensures_read Stop.fair_dangling) fun i =>
      .bind (Place.ensures_read Stop.fair_dangling) fun σ => .bind ensures_getWorld fun w =>
      .pure ?_
    rintro w' ⟨rfl, hσ, hi, hinv, j, hj, hid, hitem⟩
    obtain rfl := Option.some.inj (hi.symm.trans hj)
    exact ⟨hinv, i, σ, hi, hid, hitem, hσ, rfl⟩
  rintro (_ | result)
  · refine .bind (Place.ensures_read Stop.fair_dangling) fun i => ?_
    refine (ensures_sessionPublishQueueAppend (F := fun _ => True) i.session entry []
      [(entry.subscriptionid, entry.item)] (by simp)).imp ?_
      (fun _ _ h => h.1) fun _ h => h
    rintro w ⟨hi, hinv, j, σ, hj, hid, hitem, hσ, hfind⟩
    obtain rfl := Option.some.inj (hi.symm.trans hj)
    refine ⟨hinv, trivial, fun hS τ hτ g hg => ?_⟩
    obtain rfl := List.mem_singleton.mp hg
    rw [hitem, ← hid]
    obtain ⟨r, ret, hr, hs, hgranted⟩ | hann := hinv.announced hS it i τ hi nofun hτ
    · -- a result that waits would have been found
      obtain ⟨υ, hυ, hmem⟩ := hinv.waiting r ret _ hr hs nofun
      obtain rfl := Option.some.inj (hσ.symm.trans hυ)
      have hno := List.find?_eq_none.mp hfind.symm r hmem
      simp only [decide_eq_true_eq] at hno
      exact absurd (hinv.mem_blockedItems.mpr ⟨ret, _, hr, hgranted⟩) hno
    · exact hann
  · refine .bind (Place.ensures_read Stop.fair_dangling) fun ret => ?_
    cases hblocked : ret.blockedItems with
    | none => exact .pure fun w hw => hw.2.1
    | some blocked =>
      refine Place.ensures_write Stop.fair_dangling ?_
      rintro w - ⟨hr, hinv, i, σ, hi, hid, hitem, hσ, hfind⟩ -
      obtain ⟨hitems, hnone, hentries, hgr⟩ := hinv.result result ret hr
      have hmem := List.find?_some hfind.symm
      simp only [decide_eq_true_eq] at hmem
      obtain ⟨ret', id, hr', hgranted⟩ := hinv.mem_blockedItems.mp hmem
      obtain rfl := Option.some.inj (hr.symm.trans hr')
      obtain rfl := ((hgr id it hgranted).2 i hi).1
      refine hinv.setResult hr rfl ⟨?_, nofun, ?_, hgr⟩ fun g hg => hg
      · intro b hb
        obtain rfl := Option.some.inj hb
        exact hitems blocked hblocked
      · intro b hb e he
        obtain rfl := Option.some.inj hb
        obtain he | he := List.mem_append.mp he
        · exact hentries blocked hblocked e he
        · obtain rfl := List.mem_singleton.mp he
          rw [← hid, hitem]
          exact hgranted

theorem preserves_publishEntries (data length : ℕ) (items : List ℕ) :
    Preserves S (publishEntries data length items) := by
  induction length generalizing items with
  | zero => exact .pure fun _ h => h
  | succ length ih =>
    cases items with
    | nil => exact .fail Stop.fair_dangling
    | cons it next =>
      refine .bind (Place.ensures_read Stop.fair_dangling) fun i => .bind ?_ fun _ => ih next
      refine (ensures_sessionAddPublishQueueItem it _).imp ?_ (fun _ _ h => h) fun _ h => h
      rintro w ⟨hi, hinv⟩
      exact ⟨hinv, i, hi, rfl, rfl⟩

/-- Where every allocation succeeds, so does the publish. -/
theorem ensures_publishHandlePublish {handle : PublishHandle} (hlength : handle.length ≠ 0) :
    Attempt.Ensures (World.Inv S none none) (publishHandlePublish handle)
      (fun data w => w.Inv S none none ∧ (S → data.isSome)) Stop.Fair := by
  refine .bind (ensures_assert fun _ _ => hlength) fun _ =>
    .bind (ensures_malloc framed_inv fun w hw => hw.malloc) fun ok => .ite (fun _ => ?_)
      fun hfail => ?_
  · refine .bind (Inert.writeBufferInit.keeps (framed_inv.and fun _ _ _ h => h)) fun buffer =>
      .bind ((Inert.new_publishData _).keeps (framed_inv.and fun _ _ _ h => h)) fun data =>
      .bind ((Inert.emit _ _).keeps (framed_inv.and fun _ _ _ h => h)) fun _ =>
      .bind ((preserves_publishEntries data _ _).imp (fun _ h => h.1) (fun _ _ h => h)
        fun _ h => h) fun _ => .pure fun w hw => ⟨hw, fun _ => rfl⟩
  · exact .pure fun w hw => ⟨hw.1, fun hS => absurd (hw.2 hS) hfail⟩

/-- A publish on any handle keeps the invariant. -/
theorem preserves_publishGeneral (handle : PublishHandle) :
    Preserves S (publishGeneral handle) := by
  refine .ite (fun _ => .pure fun _ h => h) fun hlength =>
    .bind (ensures_publishHandlePublish hlength) ?_
  rintro (_ | data)
  · -- an allocation has failed, and the first session is to be killed
    cases handle.items with
    | nil => exact .fail Stop.fair_dangling
    | cons it next =>
      refine .bind (Place.ensures_read Stop.fair_dangling) fun i =>
        .bind (Place.ensures_read Stop.fair_dangling) fun σ =>
        .bind (Place.ensures_write Stop.fair_dangling ?_) fun _ => .pure fun _ h => h
      rintro w - ⟨hσ, -, hinv, hsome⟩ -
      exact hinv.setOutput hσ rfl rfl rfl (fun hS => absurd (hsome hS) (by simp))
        fun _ _ _ _ h => h
  · exact .pure fun w hw => hw.1

/-! ### Results -/

/-- A result that has just been requested is in the list of its session. -/
theorem preserves_requestResult {s requestId payloadCount : ℕ} (hcount : payloadCount ≠ 0) :
    Preserves S (requestResult s requestId payloadCount) := by
  refine .bind (Inert.malloc.keeps framed_inv) fun ok =>
    .bind (ensures_assert fun _ _ => hcount) fun _ => .ite (fun _ => ?_) fun _ => .pure fun _ h => h
  refine .bind (Inert.writeBufferInit.keeps framed_inv) fun buffer =>
    .bind (Q := fun r (w : World) => w.Inv S (some r) none ∧
      ∃ ret, w.results.get r = some ret ∧ ret.session = some s)
      (Place.ensures_new ?_) fun r => .bind (Place.ensures_read Stop.fair_dangling) fun σ =>
    .bind (Place.ensures_write Stop.fair_dangling ?_) fun _ => .pure fun _ h => h
  · intro w hinv
    exact ⟨hinv.newResult rfl rfl, _, (Heap.get_alloc _ _ _).trans (if_pos rfl), rfl⟩
  · rintro w - ⟨hσ, hinv, ret, hr, hs⟩ -
    exact hinv.listResult hσ hr hs

/-- A result has been taken out of the list of its session and sent. -/
def World.Sent (S : Prop) (r : ℕ) (ret : Result) (w : World) : Prop :=
  ∃ er, w.Inv S er none ∧ (er = some r ∨ er = none ∧ ret.session = none) ∧
    w.results.get r = some ret ∧
    (S → ∀ s, ret.session = some s → w.AnnouncedAll s ret.granted)

/-- Only the number of open answers of a result has changed. -/
def Result.Answered (ret ret' : Result) : Prop :=
  ret'.session = ret.session ∧ ret'.blockedItems = ret.blockedItems ∧ ret'.granted = ret.granted

/-- **Sending a complete result** announces what it has granted before it publishes the
entries that have waited. -/
theorem ensures_sendResult {r : ℕ} {ret ret' : Result} (hans : ret.Answered ret') :
    Attempt.Ensures (fun w => w.Inv S none none ∧ w.results.get r = some ret')
      (sendResult r ret) (fun _ => World.Sent S r ret') Stop.Fair := by
  obtain ⟨hs, hblocked, hgranted⟩ := hans
  unfold sendResult
  refine .assume (fun w hw => hw.1.result r ret' hw.2 |>.entries) fun hentries => ?_
  rw [hblocked, hgranted] at hentries
  cases hsession : ret.session with
  | none =>
    have hnone := hs.trans hsession
    have hsent : ∀ w : World, w.Inv S none none ∧ w.results.get r = some ret' → w.Sent S r ret' :=
      fun w hw => ⟨none, hw.1, Or.inr ⟨rfl, hnone⟩, hw.2, fun _ s h => by simp [hnone] at h⟩
    cases ret.blockedItems with
    | none => exact .pure hsent
    | some blocked =>
      refine ((inert_publishQueueItemsDeref _).keeps
        (framed_inv.and (framed_results (F := fun R => R.get r = some ret')))).imp
        (fun _ h => h) (fun _ => hsent) fun _ h => h
  | some s =>
    have hsome := hs.trans hsession
    have hsent : ∀ w : World, w.Inv S (some r) none ∧ w.results.get r = some ret' ∧
        (S → w.AnnouncedAll s ret.granted) → w.Sent S r ret' := by
      rintro w ⟨hinv, hr, hann⟩
      refine ⟨some r, hinv, Or.inl rfl, hr, fun hS t ht => ?_⟩
      obtain rfl := Option.some.inj (hsome.symm.trans ht)
      rw [hgranted]
      exact hann hS
    refine .bind (Place.ensures_read Stop.fair_dangling) fun σ =>
      .bind (Q := fun _ (w : World) => w.Inv S (some r) none ∧ w.results.get r = some ret')
        (Place.ensures_write Stop.fair_dangling ?_) fun _ =>
      .bind (ensures_sessionAppendOutMessage (F := fun R => R.get r = some ret') s _ _ _ _ _)
        fun _ => ?_
    · rintro w - ⟨hσ, hinv, hr⟩ -
      exact ⟨hinv.unlistResult hσ hr hsome, hr⟩
    · split
      · rename_i first rest _ _ heq
        exact (ensures_sessionPublishQueueAppend (F := fun R => R.get r = some ret') s first rest
          _ (hentries _ heq)).imp (fun _ h => h) (fun _ => hsent) fun _ h => h
      · exact .pure hsent

/-- **Releasing a result**, once for every answer. -/
theorem preserves_releaseResult (r : ℕ) : Preserves S (releaseResult r) := by
  refine .bind (Place.ensures_read Stop.fair_dangling) fun ret => .bind
    (Q := fun _ (w : World) => w.Inv S none none ∧ w.results.get r =
      some { ret with remaining := (ret.remaining + (2 ^ 32 - 1)) % 2 ^ 32 })
    (Place.ensures_write Stop.fair_dangling ?_) fun _ =>
    .ite (fun _ => .pure fun _ h => h.1) fun _ =>
    .bind (ensures_sendResult ⟨rfl, rfl, rfl⟩) fun _ => Place.ensures_free Stop.fair_dangling ?_
  · rintro w - ⟨hr, hinv⟩ -
    refine ⟨hinv.setAnswer hr rfl rfl rfl, ?_⟩
    show (w.results.set r _).get r = _
    rw [Heap.get_set hr, if_pos rfl]
  · rintro w - ⟨er, hinv, her, hr, hann⟩ -
    exact hinv.freeResult hr her fun hS s σ hs hσ => hann hS s hs σ hσ

/-- A change of a result that keeps its blocked items and what it has granted. -/
theorem preserves_setAnswer (r : ℕ) (f : Result → Result)
    (hf : ∀ ret : Result, ret.Answered (f ret)) {m : Result → Calls α}
    (hm : ∀ ret, Preserves S (m ret)) :
    Preserves S (do
      let ret ← results.read r
      results.write r (f ret)
      m ret) := by
  refine .bind (Place.ensures_read Stop.fair_dangling) fun ret =>
    .bind (Q := fun _ => World.Inv S none none) (Place.ensures_write Stop.fair_dangling ?_)
      fun _ => hm ret
  rintro w - ⟨hr, hinv⟩ -
  exact hinv.setAnswer hr (hf ret).1 (hf ret).2.1 (hf ret).2.2

theorem preserves_writeResult (r : ℕ) (f : WriteBuffer → Option WriteBuffer) :
    Preserves S (writeResult r f) := by
  refine .bind (Place.ensures_read Stop.fair_dangling) fun ret => ?_
  cases f ret.outputBuffer with
  | none => exact .fail Stop.fair_encoder
  | some buffer =>
    refine Place.ensures_write Stop.fair_dangling ?_
    rintro w - ⟨hr, hinv⟩ -
    exact hinv.setAnswer hr rfl rfl rfl

theorem preserves_resultAddDiagnosticInfo (r : ℕ)
    (diagnosticInfo : Option (Value (List UInt8))) :
    Preserves S (resultAddDiagnosticInfo r diagnosticInfo) := by
  refine .bind Inert.getWorld.preserves fun w => ?_
  cases diagnosticInfo with
  | none => exact preserves_writeResult _ _
  | some value => exact preserves_writeResult _ _

theorem preserves_resultAddUnsignedInteger (r : ℕ)
    (diagnosticInfo : Option (Value (List UInt8))) (value : ℕ) :
    Preserves S (resultAddUnsignedInteger r diagnosticInfo value) :=
  .bind (preserves_resultAddDiagnosticInfo r diagnosticInfo) fun _ =>
    .bind (preserves_writeResult r _) fun _ => preserves_releaseResult r

theorem preserves_resultAddValue (r : ℕ) (diagnosticInfo : Option (Value (List UInt8)))
    (value : Value (List UInt8)) : Preserves S (resultAddValue r diagnosticInfo value) :=
  .bind (preserves_resultAddDiagnosticInfo r diagnosticInfo) fun _ => .bind Inert.getWorld.preserves
    fun _ => .bind (preserves_writeResult r _) fun _ => preserves_releaseResult r

theorem preserves_requestSubresult (r count : ℕ) : Preserves S (requestSubresult r count) := by
  refine .bind (preserves_writeResult r _) fun _ => .ite (fun _ => ?_) fun _ =>
    preserves_releaseResult r
  refine .bind (Place.ensures_read Stop.fair_dangling) fun ret =>
    Place.ensures_write Stop.fair_dangling ?_
  rintro w - ⟨hr, hinv⟩ -
  exact hinv.setAnswer hr rfl rfl rfl

theorem preserves_releaseSubresult (r : ℕ) : Preserves S (releaseSubresult r) :=
  preserves_setAnswer r
    (fun ret => { ret with
      remainingSubresults := (ret.remainingSubresults + (2 ^ 32 - 1)) % 2 ^ 32 })
    (fun _ => ⟨rfl, rfl, rfl⟩) fun _ => .ite (fun _ => .pure fun _ h => h) fun _ =>
      preserves_releaseResult r

/-- Releasing a stand-in, or any other result without a session, sends nothing. -/
theorem ensures_releaseDummyUnsubscribeResult (r : ℕ) :
    Attempt.Ensures
      (fun w => w.Inv S none none ∧ ∃ ret, w.results.get r = some ret ∧ ret.session = none)
      (releaseDummyUnsubscribeResult r) (fun _ => World.Inv S none none) Stop.Fair := by
  refine .bind (Place.ensures_read Stop.fair_dangling) fun ret =>
    .assume (p := ret.session = none) ?_ fun hnone => ?_
  · rintro w ⟨hr, -, ret', hr', hnone⟩
    obtain rfl := Option.some.inj (hr.symm.trans hr')
    exact hnone
  refine .bind (ensures_assert fun _ _ => hnone) fun _ => .bind
    (Q := fun _ (w : World) => w.Inv S none none ∧ w.results.get r =
      some { ret with remaining := (ret.remaining + (2 ^ 32 - 1)) % 2 ^ 32 })
    (Place.ensures_write Stop.fair_dangling ?_) fun _ =>
    .ite (fun _ => .pure fun _ h => h.1) fun _ => Place.ensures_free Stop.fair_dangling ?_
  · rintro w - ⟨hr, hinv, -⟩ -
    refine ⟨hinv.setAnswer hr rfl rfl rfl, ?_⟩
    show (w.results.set r _).get r = _
    rw [Heap.get_set hr, if_pos rfl]
  · rintro w - ⟨hinv, hr⟩ -
    exact hinv.freeResult hr (Or.inr ⟨rfl, hnone⟩) fun _ s _ hs => by simp [hnone] at hs

end Wpcp

import Wpcp.Session.Delivery

/-!
# Entries in every run

What is left are the operations that give a session an item or end it. A new item has no
entries, because nothing has been published to it and no result holds anything back for it
(`Wpcp.World.Fresh`). **Every operation keeps the entries of every item in order**
(`Wpcp.conserves_delivers`), so that they are so at the end of every run
(`Wpcp.delivered_of_run`).
-/

namespace Wpcp

open Cbor (WriteBuffer)

variable {S : Prop} {w : World}

/-! ### New items -/

/-- No result has accepted the item, and none holds an entry back for it. -/
def World.Fresh (it : ℕ) (w : World) : Prop :=
  ∀ r, it ∉ w.blockedItems r ∧ ∀ e ∈ w.blockedEntries r, e.item ≠ it

/-- Items that have not been allocated are fresh. -/
theorem World.Inv.fresh {er ei : Option ℕ} (h : w.Inv S er ei) {it : ℕ}
    (hit : w.publishItems.next ≤ it) : w.Fresh it := by
  have hnot : ∀ r, it ∉ w.blockedItems r := by
    intro r hmem
    obtain ⟨ret, id, hr, hgranted⟩ := h.mem_blockedItems.mp hmem
    have := ((h.result r ret hr).granted id it hgranted).1
    omega
  refine fun r => ⟨hnot r, fun e he heq => hnot r ?_⟩
  rw [← heq]
  exact h.item_mem_blockedItems he

/-- What is known of a session while an item is accepted for it: every item that will be
allocated is fresh. -/
def World.Accepting (s : ℕ) (w : World) : Prop :=
  (w.Delivers fun _ => []) ∧ s < w.sessions.next ∧ ∀ it, w.publishItems.next ≤ it → w.Fresh it

theorem ignoresUnsubscribes_accepting (s : ℕ) : IgnoresUnsubscribes (World.Accepting s) where
  malloc _ _ h := ⟨h.1.congr rfl rfl rfl rfl, h.2⟩
  subscriptionTable _ _ h := ⟨h.1.congr rfl rfl rfl rfl, h.2⟩
  subscriptions _ _ h := ⟨h.1.congr rfl rfl rfl rfl, h.2⟩
  referencesPeak _ _ h := ⟨h.1.congr rfl rfl rfl rfl, h.2⟩
  itemLinks _ _ h := ⟨h.1.congr rfl rfl rfl rfl, h.2⟩
  freeItem _ it h := ⟨h.1.freeItem it, h.2⟩
  events w e he h := ⟨World.Delivers.ignoresUnsubscribes.events w e he h.1, h.2⟩
  sessions w t σ σ' hσ hsame h :=
    ⟨World.Delivers.ignoresUnsubscribes.sessions w t σ σ' hσ hsame h.1, h.2⟩

/-- **A new item has no entries.** -/
theorem World.Delivers.newItem (h : w.Delivers fun _ => []) {i : PublishItem}
    (hi : i.session < w.sessions.next) :
    World.Delivers (fun _ => []) { w with publishItems := w.publishItems.alloc i } := by
  refine ⟨h.apart, h.slots, fun it hit => h.fresh it (Nat.le_of_succ_le hit), fun it => ?_⟩
  obtain ⟨home, id, hlt, hitem, hentries, helse⟩ := h.delivers it
  by_cases hit : it = w.publishItems.next
  · subst hit
    have hnone := h.fresh _ (Nat.le_refl w.publishItems.next)
    have hnil : ∀ s σ, w.sessions.get s = some σ → w.entriesOf σ w.publishItems.next = [] := by
      intro s σ hσ
      by_cases hs : s = home
      · subst hs
        have heq := hentries σ hσ
        rw [hnone] at heq
        simpa [entriesFor] using heq
      · exact helse s σ hs hσ
    refine ⟨i.session, i.subscriptionid, fun _ => hi, fun j hj => ?_, fun σ hσ => ?_,
      fun s σ _ hσ => hnil s σ hσ⟩
    · have hj : (w.publishItems.alloc i).get w.publishItems.next = some j := hj
      rw [Heap.get_alloc, if_pos rfl] at hj
      obtain rfl := Option.some.inj hj
      exact ⟨rfl, rfl⟩
    · show w.entriesOf σ _ ++ _ = entriesFor _ _ (published w.events _)
      rw [hnil _ σ hσ, hnone]
      rfl
  · refine ⟨home, id, fun hlt' => hlt ?_, fun j hj => hitem j ?_, hentries, helse⟩
    · have hlt' : it < w.publishItems.next + 1 := hlt'
      omega
    · have hj : (w.publishItems.alloc i).get it = some j := hj
      rwa [Heap.get_alloc, if_neg hit] at hj

/-- **A result accepts an item** for which it holds nothing back. -/
theorem World.Delivers.accept (h : w.Delivers fun _ => []) {r id it : ℕ} {ret : Result}
    {blocked : BlockedItemList} (hfresh : w.Fresh it) (hr : w.results.get r = some ret)
    (hblocked : ret.blockedItems = some blocked) :
    World.Delivers (fun _ => []) { w with results := w.results.set r { ret with
      blockedItems := some { blocked with items := blocked.items ++ [it] }
      granted := ret.granted ++ [(id, it)] } } := by
  let ret' : Result := { ret with
    blockedItems := some { blocked with items := blocked.items ++ [it] }
    granted := ret.granted ++ [(id, it)] }
  let w' : World := { w with results := w.results.set r ret' }
  have hitems : ∀ k q, k ∈ w'.blockedItems q ↔ k ∈ w.blockedItems q ∨ k = it ∧ q = r := by
    intro k q
    rw [blockedItems_set hr]
    split
    · rename_i hq
      rw [hq, blockedItems_of_get hr, Result.items, Result.items, hblocked]
      simp [ret']
    · rename_i hq
      simp [hq]
  have hentries : ∀ q, w'.blockedEntries q = w.blockedEntries q := by
    intro q
    rw [blockedEntries_set hr]
    split
    · rename_i hq
      rw [hq, blockedEntries_of_get hr, Result.entries, Result.entries, hblocked]
      rfl
    · rfl
  have hapart : w'.Apart := by
    intro k q q' hq hq'
    rw [hitems] at hq hq'
    rcases hq with hq | ⟨rfl, rfl⟩
    · rcases hq' with hq' | ⟨rfl, rfl⟩
      · exact h.apart k q q' hq hq'
      · exact absurd hq (hfresh q).1
    · rcases hq' with hq' | ⟨-, rfl⟩
      · exact absurd hq' (hfresh q').1
      · rfl
  refine h.mono (v := w') hapart rfl (Nat.le_refl _) (fun _ => rfl) (fun _ _ hi => hi)
    fun s σ hσ => ⟨σ, hσ, fun hslots => hslots, fun k => ?_⟩
  rw [World.entriesOf, World.entriesOf]
  by_cases hk : k = it
  · -- nothing waits for the item, neither before nor after
    subst hk
    have hnone : ∀ {v : World}, v.blockedEntries = w.blockedEntries →
        (v.heldBack σ k).filter (fun e => e.item = k) = [] := by
      intro v hv
      rw [World.heldBack]
      rcases v.holder σ k with _ | q
      · rfl
      · rw [Option.elim_some, hv]
        exact List.filter_eq_nil_iff.mpr fun e he => by simpa using (hfresh q).2 e he
    rw [List.filter_append, hnone (funext hentries),
      List.filter_append (σ.handedOutEntries ++ σ.out.publishQueue) (w.heldBack σ k), hnone rfl]
  · rw [heldBack_congr rfl (fun q _ => ?_) fun q _ _ => hentries q]
    rw [hitems]
    exact or_iff_left fun hand => hk hand.1

theorem ensures_sessionRequestPublishItem_delivers (s k id : ℕ) :
    Attempt.Ensures (World.Accepting s) (sessionRequestPublishItem s k id)
      (fun it w => (w.Delivers fun _ => []) ∧ ∀ p, it = some p → w.Fresh p) Stop.Any := by
  have hignores : ∀ it, IgnoresUnsubscribes fun w => (w.Delivers fun _ => []) ∧ w.Fresh it :=
    fun it =>
    { malloc := fun _ _ h => ⟨h.1.congr rfl rfl rfl rfl, h.2⟩
      subscriptionTable := fun _ _ h => ⟨h.1.congr rfl rfl rfl rfl, h.2⟩
      subscriptions := fun _ _ h => ⟨h.1.congr rfl rfl rfl rfl, h.2⟩
      referencesPeak := fun _ _ h => ⟨h.1.congr rfl rfl rfl rfl, h.2⟩
      itemLinks := fun _ _ h => ⟨h.1.congr rfl rfl rfl rfl, h.2⟩
      freeItem := fun _ k h => ⟨h.1.freeItem k, h.2⟩
      events := fun w e he h => ⟨World.Delivers.ignoresUnsubscribes.events w e he h.1, h.2⟩
      sessions := fun w t σ σ' hσ hsame h =>
        ⟨World.Delivers.ignoresUnsubscribes.sessions w t σ σ' hσ hsame h.1, h.2⟩ }
  refine .bind (Leaves.malloc (ignoresUnsubscribes_accepting s).malloc) fun _ =>
    .ite (fun _ => ?_) fun _ => .bind ((ignoresUnsubscribes_accepting s).releaseSubscription k)
    fun _ => .pure fun _ h => ⟨h.1, nofun⟩
  refine .bind (Q := fun it w => (w.Delivers fun _ => []) ∧ w.Fresh it) (Place.ensures_new
    fun w h => ⟨h.1.newItem h.2.1, h.2.2 _ (Nat.le_refl _)⟩) fun it => ?_
  refine .bind (Leaves.read _ _) fun _ => .bind (Leaves.write (hignores it).subscriptions _ _)
    fun _ => .bind (Leaves.modifyWorld fun w => (hignores it).itemLinks w _) fun _ =>
    .bind (Place.ensures_read trivial) fun σ => .bind ((hignores it).write_sessions s ⟨_, _, rfl⟩)
      fun _ => .pure fun w h => ⟨h.1, fun p hp => ?_⟩
  obtain rfl := Option.some.inj hp
  exact h.2

/-- **An item is accepted.** -/
theorem ensures_acceptSubscription_delivers (r s k : ℕ) :
    Attempt.Ensures (World.Accepting s) (acceptSubscription r s k)
      (fun _ => World.Delivers fun _ => []) Stop.Any := by
  have htarget : Leaves (World.Accepting s) (resultGetBlockedPublishItemTarget r) := by
    refine .read_bind fun ret => .bind (ensures_getBlockedItems_same (fun w malloc h =>
      ⟨h.1, (ignoresUnsubscribes_accepting s).malloc w malloc h.2⟩) ret) fun blocked => .bind
      (Q := fun _ => World.Accepting s) (Place.ensures_write trivial ?_) fun _ => ?_
    · rintro w - ⟨⟨hentries, hitems⟩, hr, h, hs, hfresh⟩ -
      refine ⟨h.setResult hr hitems hentries, hs, fun it hit q => ?_⟩
      rw [blockedItems_set hr, blockedEntries_set hr]
      split
      · rename_i hq
        rw [hitems, hentries, ← blockedItems_of_get hr, ← blockedEntries_of_get hr]
        exact hfresh it hit r
      · exact hfresh it hit q
    · rcases blocked with _ | blocked
      · exact Leaves.pure _
      · exact Leaves.ite (.pure _) (.fail _)
  refine .bind ((ignoresUnsubscribes_accepting s).sessionGetNextFreePublishId s) fun id =>
    .bind (Q := fun _ => World.Delivers fun _ => []) (.ite (fun _ => .pure fun _ h => h.1)
    fun _ => .bind htarget ?_) fun _ => .pure fun _ h => h
  rintro (_ | target)
  · exact .pure fun _ h => h.1
  refine .bind (ensures_sessionRequestPublishItem_delivers s k id) ?_
  rintro (_ | it)
  · exact .pure fun _ h => h.1
  refine .bind (Q := fun _ => World.Delivers fun _ => []) (.bind (Place.ensures_read trivial)
    fun ret => ?_) fun _ => .pure fun _ h => h
  rcases hblocked : ret.blockedItems with _ | blocked
  · exact .fail trivial
  · exact Place.ensures_write trivial fun w _ h _ => h.2.1.accept (h.2.2 it rfl) h.1 hblocked

/-! ### Sessions -/

/-- **A new session has no entries.** -/
theorem leaves_sessionCreate_delivers : Leaves (World.Delivers fun _ => []) sessionCreate := by
  refine .bind (.malloc fun _ _ h => h.congr rfl rfl rfl rfl) fun _ => .ite (.bind
    (Place.ensures_new fun w h => ?_) fun _ => .bind (.modifyWorld fun w h => ?_) fun _ =>
    .pure _) (.pure _)
  · have hget : ∀ s σ, (w.sessions.alloc .create).get s = some σ →
        s = w.sessions.next ∧ σ = .create ∨ w.sessions.get s = some σ := by
      intro s σ hσ
      rw [Heap.get_alloc] at hσ
      split at hσ
      · exact Or.inl ⟨‹_›, (Option.some.inj hσ).symm⟩
      · exact Or.inr hσ
    have hnil : ∀ it, w.entriesOf .create it = [] := fun it => rfl
    refine ⟨h.apart, fun s σ hσ => ?_, h.fresh, fun it => ?_⟩
    · rcases hget s σ hσ with ⟨-, rfl⟩ | hσ
      · exact fun _ => rfl
      · exact h.slots s σ hσ
    obtain ⟨home, id, hlt, hitem, hentries, helse⟩ := h.delivers it
    refine ⟨home, id, fun hit => (hlt hit).trans (Nat.lt_succ_self _), hitem, fun σ hσ => ?_,
      fun s σ hs hσ => ?_⟩
    · rcases hget home σ hσ with ⟨heq, rfl⟩ | hσ
      · -- then the item has not been allocated
        have hle : w.publishItems.next ≤ it := by
          by_contra hit
          exact absurd (hlt (by omega)) (by omega)
        show w.entriesOf .create it ++ _ = entriesFor id it (published w.events it)
        rw [hnil, h.fresh it hle]
        rfl
      · exact hentries σ hσ
    · rcases hget s σ hσ with ⟨-, rfl⟩ | hσ
      · exact hnil it
      · exact helse s σ hs hσ
  · split
    · exact h
    · exact h.congr rfl rfl rfl rfl

/-! ### Every operation -/

/-- The entries are in order, and none is pending. -/
abbrev delivered (_ : Multiset Token) (w : World) : Prop := w.Delivers fun _ => []

/-- **Every operation keeps the entries of every item in order.** -/
theorem conserves_delivers : Conserves S anyWorld delivered where
  malloc _ _ _ h _ := h.congr rfl rfl rfl rfl
  retain _ k := (World.Delivers.ignoresUnsubscribes.retainSubscription k).moves fun _ _ h => h
  release _ k := (World.Delivers.ignoresUnsubscribes.releaseSubscription k).moves fun _ _ h => h
  accept _ r s k := by
    refine (ensures_acceptSubscription_delivers r s k).imp ?_ (fun _ _ h => h) fun _ h => h
    rintro w ⟨hinv, -, h, ret, hr, hs⟩
    obtain ⟨σ, hσ, -⟩ := hinv.waiting r ret s hr hs (by simp)
    exact ⟨h, Heap.lt_next hσ, fun it hit => hinv.fresh hit⟩
  write _ r f _ := (leaves_writeResult_delivers r f).moves fun _ _ h => h
  answer _ r := (ensures_releaseResult_delivers r).imp (fun _ h => ⟨h.1, h.2.2.1⟩)
    (fun _ _ h => h) fun _ h => h
  announce _ r count _ := by
    refine .bind (Q := fun _ w => w.Inv S none none ∧ w.Delivers fun _ => [])
      (ensures_modifyWorld fun w h => ?_) fun _ => ensures_requestSubresult_delivers r count
    refine ⟨h.1.frame ?_, World.Delivers.congr h.2.2.1 rfl rfl rfl rfl⟩
    exact (inert_owed (fun owed => owed ++ List.replicate count (.subitem r)) w w (.refl w) _ _
      rfl).1 _ rfl
  subanswer _ r := (ensures_releaseSubresult_delivers r).imp (fun _ h => ⟨h.1, h.2.2.1⟩)
    (fun _ _ h => h) fun _ h => h
  dummy _ r := (ensures_releaseDummyUnsubscribeResult_delivers r).imp
    (fun _ h => ⟨h.1, h.2.2.1⟩) (fun _ _ h => h) fun _ h => h
  owe _ event owed hevent := ensures_emit fun w h => (h.2.2.1.event (e := event) fun it => by
    cases event with
    | published => cases hevent
    | _ => rfl).congr rfl rfl rfl rfl
  redeem _ o := ensures_modifyWorld fun w h => h.2.2.1.congr rfl rfl rfl rfl
  oweAlias _ k := ensures_modifyWorld fun w h => h.2.2.1.congr rfl rfl rfl rfl
  newRepublish _ it := (Leaves.new (fun _ _ h => h.congr rfl rfl rfl rfl) it).moves
    fun _ _ h => h
  freeRepublish _ handle := (Leaves.free (fun _ _ h => h.congr rfl rfl rfl rfl) handle).moves
    fun _ _ h => h
  publish _ handle item := (ensures_publish_delivers handle item).imp (fun _ h => ⟨h.1, h.2.2.1⟩)
    (fun _ _ h => h) fun _ h => h
  take _ s := (ensures_sessionOutMessageCreate_delivers s).imp (fun _ h => h.2.2)
    (fun _ _ h => h) fun _ h => h
  slots _ s count hcount := by
    refine .bind (Place.ensures_read trivial) fun σ => Place.ensures_write trivial ?_
    rintro w - ⟨hσ, -, -, h, -⟩ -
    refine h.setSession hσ (fun hslots hpeak => ?_) fun it => ?_
    · obtain ⟨hpeak, hlt⟩ := max_lt_iff.mp hpeak
      show σ.handedOutEntries.length + (σ.out.sessionAddFreePublishSlots count).freePublishSlots =
        2 ^ 32 - 1 + (σ.slotsAdded + count)
      rw [OutState.freePublishSlots_addFreePublishSlots, Nat.mod_eq_of_lt hlt]
      have := hslots hpeak
      omega
    · rw [World.entriesOf, World.entriesOf, OutState.publishQueue_addFreePublishSlots]
      rfl
  request _ type key := (World.Delivers.ignoresUnsubscribes.requestSubscription type key).moves
    fun _ _ h => h
  append _ s messageId requestId payloadCount buffer _ := by
    refine .bind (Q := fun _ => World.Delivers fun _ => []) ((Leaves.malloc fun _ _ h =>
      h.congr rfl rfl rfl rfl).imp (fun _ h => h.2.2.1) (fun _ _ h => h) fun _ h => h) fun ret =>
      .bind (Place.ensures_read trivial) fun σ => Place.ensures_write trivial ?_
    rintro w - ⟨hσ, h⟩ -
    refine h.setSession hσ (fun hslots hpeak => ?_) fun it => ?_
    · show σ.handedOutEntries.length + (σ.out.sessionAppendOutMessage ret _).freePublishSlots = _
      rw [OutState.freePublishSlots_appendOutMessage]
      exact hslots hpeak
    · rw [World.entriesOf, World.entriesOf, OutState.publishQueue_appendOutMessage]
      rfl
  requestResult _ s requestId count _ _ := (leaves_requestResult_delivers s requestId count).moves
    fun _ _ h => h
  unsubscribe _ s id := (World.Delivers.ignoresUnsubscribes.unsubscribeItem s id).moves
    fun _ _ h => h
  create _ := leaves_sessionCreate_delivers.moves fun _ _ h => h
  hello _ s σ := Place.ensures_write trivial fun w _ h _ =>
    h.2.2.1.setSession h.2.2.2 id fun _ => rfl
  close _ s σ := (Leaves.closeSession (fun _ _ h => h.congr rfl rfl rfl rfl)
    (fun _ _ _ _ hr h => h.setAnswer hr rfl) (fun _ h => h.freeSession s)
    fun _ _ hnone _ _ _ h => h.newResult hnone).moves fun _ _ h => h
  deleteItem _ it := (World.Delivers.ignoresUnsubscribes.deletePublishItem it).moves
    fun _ _ h => h

/-- The entries of an item are those of its publishes, in its session, and no other session
has any. -/
structure World.Delivered (w : World) (it home id : ℕ) : Prop where
  item : ∀ i, w.publishItems.get it = some i → i.session = home ∧ i.subscriptionid = id
  entries : ∀ σ, w.sessions.get home = some σ →
    w.entriesOf σ it = entriesFor id it (published w.events it)
  elsewhere : ∀ s σ, s ≠ home → w.sessions.get s = some σ → w.entriesOf σ it = []

/-- **Entries are delivered exactly once and in order, within the slots**: in every run, the
entries of an item that have been handed out, followed by those in the publish queue and those
held back, are those of the publishes on it; and every entry handed out has used a slot. -/
theorem delivered_of_run {app : Application} {sizeT : Cbor.SizeT} {callbacks : Callback → Bool}
    {malloc : ℕ → Bool} {acts : List Act} {w : World}
    (hrun : Transition.Run (World.step app) Transition.anyStep
      (World.create sizeT callbacks malloc) acts w) :
    (∀ it, ∃ home id, w.Delivered it home id) ∧
      ∀ s σ, w.sessions.get s = some σ → σ.SlotsCounted := by
  have hcreate : (World.create sizeT callbacks malloc).Delivers fun _ => [] :=
    ⟨nofun, nofun, fun _ _ => rfl, fun it => ⟨0, 0, fun hlt => absurd hlt (Nat.not_lt_zero _),
      nofun, nofun, nofun⟩⟩
  obtain ⟨-, h⟩ := (conserves_delivers (S := False)).of_run False.elim hcreate hrun
  refine ⟨fun it => ?_, h.slots⟩
  obtain ⟨home, id, -, hitem, hentries, helse⟩ := h.delivers it
  refine ⟨home, id, hitem, fun σ hσ => ?_, helse⟩
  simpa [entriesFor] using hentries σ hσ

/-- A run in which an item has been published to before its RESULT was complete, and twice
more, and another item while its result still waits: of the four entries two have been handed
out. -/
theorem delivered_heldBack : ∃ w,
    Transition.Run (World.step silent) Transition.anyStep
      (World.create .bits64 subscriptionCallbacks fun _ => true)
      [.sessionCreate, hello, subscribeBoth 4 1 2, accept 0 0, publish 0, accept 0 1, publish 0,
        takeOut, takeOut, takeOut, publish 0, subscribeBoth 4 3 4, accept 1 2, publish 2] w ∧
    ((published w.events 0 = [0, 1, 2] ∧ published w.events 2 = [3]) ∧
      (w.sessions.get 0).any (fun σ => σ.handedOutEntries = [⟨1, 0, 0⟩, ⟨1, 1, 0⟩] ∧
        σ.out.publishQueue = [⟨1, 2, 0⟩] ∧ w.heldBack σ 2 = [⟨3, 3, 2⟩]) = true) ∧
    (∀ it, ∃ home id, w.Delivered it home id) ∧
      ∀ s σ, w.sessions.get s = some σ → σ.SlotsCounted := by
  have hrun : (Transition.execute (World.step silent) Transition.anyStep
      (World.create .bits64 subscriptionCallbacks fun _ => true)
      [.sessionCreate, hello, subscribeBoth 4 1 2, accept 0 0, publish 0, accept 0 1, publish 0,
        takeOut, takeOut, takeOut, publish 0, subscribeBoth 4 3 4, accept 1 2, publish 2]).any
      (fun w => (published w.events 0 = [0, 1, 2] ∧ published w.events 2 = [3]) ∧
        (w.sessions.get 0).any (fun σ => σ.handedOutEntries = [⟨1, 0, 0⟩, ⟨1, 1, 0⟩] ∧
          σ.out.publishQueue = [⟨1, 2, 0⟩] ∧ w.heldBack σ 2 = [⟨3, 3, 2⟩]) = true) = true := by
    decide +kernel
  obtain ⟨w, hw, hfacts⟩ := (Option.any_eq_true _ _).mp hrun
  rw [decide_eq_true_eq] at hfacts
  have hw := Transition.run_of_execute hw
  exact ⟨w, hw, hfacts, delivered_of_run hw⟩

end Wpcp

import Wpcp.Session.Leaves

/-!
# The tables of publish items

Two assertions on all runs. Ids are given out from 1 on (`Wpcp.World.IdsFromOne`), which is
why `wpcp_session_get_next_free_publish_id` only returns 0 where it fails. And every publish
item has its session (`Wpcp.World.Homed`), except while the session is being deleted.
-/

namespace Wpcp

variable {S : Prop} {I : Multiset Token → World → Prop}

/-! ### Ids start at 1 -/

/-- There is no item with the id 0, and none will get it. -/
structure Session.IdsFromOne (σ : Session) : Prop where
  next : 1 ≤ σ.nextFreePublishItem
  first : ∀ it, σ.publishItems[0]? ≠ some (some it)

/-- In no session an item has the id 0. -/
def World.IdsFromOne (w : World) : Prop := ∀ s σ, w.sessions.get s = some σ → σ.IdsFromOne

namespace World.IdsFromOne

/-- A write to a session. -/
theorem set {w : World} (h : w.IdsFromOne) {s : ℕ} {σ σ' : Session}
    (hσ : w.sessions.get s = some σ) (hσ' : σ'.IdsFromOne) :
    World.IdsFromOne { w with sessions := w.sessions.set s σ' } := by
  intro k τ hτ
  have hτ : (w.sessions.set s σ').get k = some τ := hτ
  rw [Heap.get_set hσ] at hτ
  split at hτ
  · obtain rfl := Option.some.inj hτ
    exact hσ'
  · exact h k τ hτ

theorem ignoresOutput : IgnoresOutput World.IdsFromOne where
  malloc _ _ h := h
  results _ _ h := h
  publishData _ _ h := h
  republishHandles _ _ h := h
  events _ _ _ h := h
  sessions w s σ σ' hσ hsame _ h := by
    obtain ⟨hnext, hfirst⟩ := h s σ hσ
    refine h.set hσ ⟨?_, ?_⟩
    · rw [hsame.2]
      exact hnext
    · rw [hsame.1]
      exact hfirst

theorem ignoresReleases : IgnoresReleases World.IdsFromOne where
  malloc _ _ h := h
  subscriptionTable _ _ h := h
  subscriptions _ _ h := h
  referencesPeak _ _ h := h
  itemLinks _ _ h := h
  freeItem _ _ h := h
  events _ _ _ h := h

end World.IdsFromOne

/-- The search for a free id does not go back. -/
theorem le_nextFreeId (l : List (Option ℕ)) (id : ℕ) : id ≤ nextFreeId l id := by
  induction l generalizing id with
  | nil => exact Nat.le_refl id
  | cons o l ih =>
    cases o with
    | none => exact Nat.le_refl id
    | some it => exact (Nat.le_succ id).trans (ih (id + 1))

/-- **An id that is found is not 0**, unless the allocation has failed. -/
theorem ensures_sessionGetNextFreePublishId_ne (s : ℕ) :
    Attempt.Ensures (fun w => w.IdsFromOne ∧ (S → ∀ n, w.malloc n = true))
      (sessionGetNextFreePublishId s)
      (fun id w => w.IdsFromOne ∧ (S → ∀ n, w.malloc n = true) ∧ (S → id ≠ 0)) Stop.Any := by
  refine .bind (Place.ensures_read trivial) fun σ => .ite (fun _ => .pure ?_) fun _ =>
    .bind (Q := fun ok w => w.sessions.get s = some σ ∧ w.IdsFromOne ∧
      (S → ∀ n, w.malloc n = true) ∧ (S → ok = true)) ?_ fun ok => .ite (fun _ => .ite (fun _ => ?_)
      fun _ => .fail trivial) fun hok => .pure ?_
  · rintro w ⟨hσ, hids, hmalloc⟩
    refine ⟨hids, hmalloc, fun _ => ?_⟩
    have := (hids s σ hσ).next
    have := le_nextFreeId (σ.publishItems.drop σ.nextFreePublishItem) σ.nextFreePublishItem
    omega
  · refine .of_run fun w hw => ⟨_, _, run_malloc w, fun ok hok => ?_, fun _ _ => trivial⟩
    obtain rfl := Except.ok.inj hok
    exact ⟨hw.1, hw.2.1, fun hS n => hw.2.2 hS (n + 1), fun hS => hw.2.2 hS 0⟩
  · refine .bind (Q := fun _ w => w.IdsFromOne ∧ (S → ∀ n, w.malloc n = true) ∧
      σ.IdsFromOne) (Place.ensures_write trivial ?_) fun _ => .pure ?_
    · rintro w - ⟨hσ, hids, hmalloc, -⟩ -
      obtain ⟨hnext, hfirst⟩ := hids s σ hσ
      refine ⟨hids.set hσ ⟨hnext, fun it => ?_⟩, hmalloc, hnext, hfirst⟩
      show (σ.publishItems ++ List.replicate 16 none)[0]? ≠ some (some it)
      cases htable : σ.publishItems with
      | nil => simp
      | cons o table =>
        have := hfirst it
        rw [htable] at this
        exact this
    · rintro w ⟨hids, hmalloc, hnext, -⟩
      refine ⟨hids, hmalloc, fun _ => ?_⟩
      have := le_nextFreeId (σ.publishItems.drop σ.nextFreePublishItem) σ.nextFreePublishItem
      omega
  · rintro w ⟨-, hids, hmalloc, hS⟩
    exact ⟨hids, hmalloc, fun h => absurd (hS h) hok⟩

theorem leaves_sessionRequestPublishItem_idsFromOne (s k : ℕ) {id : ℕ} (hid : id ≠ 0) :
    Leaves World.IdsFromOne (sessionRequestPublishItem s k id) := by
  refine .bind (.malloc fun _ _ h => h) fun _ => .ite (.bind (.new (fun _ _ h => h) _) fun it =>
    .bind (.read _ _) fun _ => .bind (.write (fun _ _ h => h) _ _) fun _ =>
    .bind (.modifyWorld fun _ h => h) fun _ => .read_bind fun σ =>
    .bind (Q := fun _ => World.IdsFromOne) (Place.ensures_write trivial ?_) fun _ =>
    .pure fun _ h => h) (.bind
      (World.IdsFromOne.ignoresReleases.toIgnoresSubscriptions.releaseSubscription k)
        fun _ => .pure _)
  rintro w - ⟨hσ, hids⟩ -
  refine hids.set hσ ⟨Nat.le_add_left _ _, fun it' => ?_⟩
  show (σ.publishItems.set id (some it))[0]? ≠ _
  rw [List.getElem?_set_ne hid]
  exact (hids s σ hσ).first it'

theorem ensures_unsubscribeItem_idsFromOne (s id : ℕ) :
    Attempt.Ensures (fun w => w.Inv S none none ∧ w.IdsFromOne) (unsubscribeItem s id)
      (fun _ => World.IdsFromOne) Stop.Any := by
  refine .bind (Place.ensures_read trivial) fun σ => ?_
  split
  · rename_i it htable
    -- the id of the item, as long as the item is there
    let F : World → Prop := fun w => w.IdsFromOne ∧
      ∀ i, w.publishItems.get it = some i → 1 ≤ i.subscriptionid
    have hF : IgnoresSubscriptions F := ⟨fun _ _ h => h, fun _ _ h => h, fun _ _ h => h,
      fun _ _ h => h, fun _ _ h => h⟩
    refine .bind (Q := fun _ => F) ((Leaves.read (P := fun w => w.sessions.get s = some σ ∧
      w.Inv S none none ∧ w.IdsFromOne) _ it).imp (fun _ h => h) ?_ fun _ h => h) fun i =>
      .bind (Leaves.assert _) fun _ => .bind (hF.retainSubscription _) fun k =>
      .bind (Q := fun _ => World.IdsFromOne) (.bind (Place.ensures_read trivial) fun σ' =>
        .bind (Place.ensures_read trivial) fun j => .bind (Q := fun _ => World.IdsFromOne)
          (Place.ensures_write trivial ?_) fun _ =>
        World.IdsFromOne.ignoresReleases.publishItemRelease it) fun _ => .pure fun _ h => h
    · rintro - w ⟨hσ, hinv, hids⟩
      refine ⟨hids, fun i hi => ?_⟩
      obtain ⟨i', hi', -, hid⟩ := (hinv.session s σ hσ).table id it htable
      obtain rfl := Option.some.inj (hi.symm.trans hi')
      rw [hid]
      refine Nat.one_le_iff_ne_zero.mpr ?_
      rintro rfl
      exact (hids s σ hσ).first it htable
    · rintro w - ⟨hj, hσ', hids, hid⟩ -
      obtain ⟨hnext, hfirst⟩ := hids s σ' hσ'
      have hone := hid j hj
      refine hids.set hσ' ⟨le_min hone hnext, fun it' => ?_⟩
      show (σ'.publishItems.set j.subscriptionid none)[0]? ≠ _
      rw [List.getElem?_set_ne (by omega)]
      exact hfirst it'
  · exact .pure fun _ h => h.2.2

/-- **Ids start at 1 in every run.** -/
theorem conservesItems_idsFromOne : ConservesItems S I fun _ => World.IdsFromOne where
  answers _ := World.IdsFromOne.ignoresOutput.toIgnoresAnswers
  newRepublish _ it := (Leaves.new World.IdsFromOne.ignoresOutput.republishHandles it).moves
    fun _ _ h => h
  freeRepublish _ handle :=
    (Leaves.free World.IdsFromOne.ignoresOutput.republishHandles handle).moves fun _ _ h => h
  owed _ _ _ _ _ h := h
  retain _ k := (World.IdsFromOne.ignoresReleases.retainSubscription k).moves fun _ _ h => h
  release _ k := (World.IdsFromOne.ignoresReleases.releaseSubscription k).moves fun _ _ h => h
  request _ type key := (World.IdsFromOne.ignoresReleases.requestSubscription type key).moves
    fun _ _ h => h
  accept _ r s k := by
    refine .bind (Q := fun _ => World.IdsFromOne)
      ((ensures_sessionGetNextFreePublishId_ne (S := False) s).imp (fun _ h => ⟨h.2.2.1, nofun⟩)
        (fun _ _ h => h.1) fun _ h => h) fun id => .bind (Q := fun _ => World.IdsFromOne)
      (.ite (fun _ => .pure fun _ h => h) fun hid => .bind
        (World.IdsFromOne.ignoresOutput.resultGetBlockedPublishItemTarget r) ?_)
      fun _ => .pure fun _ h => h
    rintro (_ | target)
    · exact .pure fun _ h => h
    refine .bind (leaves_sessionRequestPublishItem_idsFromOne s k hid) ?_
    rintro (_ | it)
    · exact .pure fun _ h => h
    · exact .bind (World.IdsFromOne.ignoresOutput.setBlockedPublishItem r id it) fun _ =>
        .pure fun _ h => h
  unsubscribe _ s id := (ensures_unsubscribeItem_idsFromOne s id).imp (fun _ h => ⟨h.1, h.2.2.1⟩)
    (fun _ _ h => h) fun _ h => h
  create _ := by
    refine .bind (Q := fun _ => World.IdsFromOne) ((Leaves.malloc fun _ _ h => h).imp
      (fun _ h => h.2.2.1) (fun _ _ h => h) fun _ h => h) fun _ => .ite (fun _ => ?_) fun _ =>
      .pure fun _ h => h
    refine .bind (Q := fun _ => World.IdsFromOne) (Place.ensures_new fun w h => ?_) fun _ =>
      .bind (Leaves.modifyWorld fun w h => ?_) fun _ => .pure fun _ h => h
    · intro s σ hσ
      have hσ : (w.sessions.alloc .create).get s = some σ := hσ
      rw [Heap.get_alloc] at hσ
      split at hσ
      · obtain rfl := Option.some.inj hσ
        exact ⟨Nat.le_refl 1, nofun⟩
      · exact h s σ hσ
    · split
      · exact h
      · exact h
  close _ s σ := (World.IdsFromOne.ignoresOutput.closeSession (fun _ h t τ hτ =>
    h t τ (Heap.get_of_get_free hτ).2) σ).moves fun _ _ h => h
  deleteItem _ it := (World.IdsFromOne.ignoresReleases.deletePublishItem it).moves fun _ _ h => h

/-! ### Items have a session -/

/-- Every publish item has its session, apart from the orphans. -/
def World.Homed (tokens : Multiset Token) (w : World) : Prop :=
  ∀ it i, w.publishItems.get it = some i →
    (w.sessions.get i.session).isSome ∨ .orphan it ∈ tokens

theorem mem_stakes_orphan {it : ℕ} {tokens : Multiset Token} :
    .orphan it ∈ stakes tokens ↔ .orphan it ∈ tokens := by
  rw [stakes, Multiset.mem_filter]
  exact and_iff_left rfl

/-- The application does not hold orphans. -/
theorem orphan_notMem_owedTokens (it : ℕ) (owed : List Owed) : .orphan it ∉ owedTokens owed := by
  induction owed with
  | nil => exact Multiset.notMem_zero _
  | cons o owed ih =>
    rw [owedTokens_cons, Multiset.mem_add]
    rintro (h | h)
    · cases o with
      | unsubscribe r k =>
        cases k with
        | none => simp [Owed.tokens, reference] at h
        | some k => simp [Owed.tokens, reference] at h
      | _ => simp [Owed.tokens] at h
    · exact ih h

namespace World.Homed

variable {tokens : Multiset Token} {w : World}

/-- A session that is there stays there, whatever is written to it. -/
theorem setSession (h : w.Homed tokens) {s : ℕ} {σ σ' : Session}
    (hσ : w.sessions.get s = some σ) :
    World.Homed tokens { w with sessions := w.sessions.set s σ' } := by
  intro it i hi
  refine (h it i hi).imp_left fun hs => ?_
  show ((w.sessions.set s σ').get i.session).isSome
  rw [Heap.get_set hσ]
  split
  · rfl
  · exact hs

theorem ignoresOutput : IgnoresOutput (World.Homed tokens) where
  malloc _ _ h := h
  results _ _ h := h
  publishData _ _ h := h
  republishHandles _ _ h := h
  events _ _ _ h := h
  sessions _ _ _ _ hσ _ _ h := h.setSession hσ

theorem ignoresSubscriptions : IgnoresSubscriptions (World.Homed tokens) where
  malloc _ _ h := h
  subscriptionTable _ _ h := h
  subscriptions _ _ h := h
  referencesPeak _ _ h := h
  itemLinks _ _ h := h

theorem freeItem (h : w.Homed tokens) (it : ℕ) :
    World.Homed tokens { w with publishItems := w.publishItems.free it } :=
  fun it' i hi => h it' i (Heap.get_of_get_free hi).2

/-- The same orphans in another hand. -/
theorem hand {tokens' : Multiset Token} (h : w.Homed tokens)
    (heq : ∀ it, .orphan it ∈ tokens → .orphan it ∈ tokens') : w.Homed tokens' :=
  fun it i hi => (h it i hi).imp_right (heq it)

/-- The item that is freed need not be an orphan any more. -/
theorem freeOrphan {it : ℕ} (h : w.Homed (.orphan it ::ₘ tokens)) :
    World.Homed tokens { w with publishItems := w.publishItems.free it } := by
  intro it' i hi
  obtain ⟨hne, hi⟩ := Heap.get_of_get_free hi
  refine (h it' i hi).imp_right fun hmem => ?_
  rw [Multiset.mem_cons] at hmem
  exact hmem.resolve_left (by simpa using hne)

end World.Homed

/-- To release an item frees it and leaves the others. -/
theorem ensures_publishItemRelease_homed {P : World → Prop} {hand : Multiset Token} {it : ℕ}
    (hP : IgnoresSubscriptions P)
    (hfree : ∀ w, P w → World.Homed hand { w with publishItems := w.publishItems.free it }) :
    Attempt.Ensures P (publishItemRelease it) (fun _ => World.Homed hand) Stop.Any :=
  .bind (Leaves.read _ _) fun _ => .bind (Leaves.read _ _) fun _ => .bind (Leaves.assert _)
    fun _ => .bind (Leaves.write hP.subscriptions _ _) fun _ =>
    .bind (Leaves.modifyWorld fun w => hP.itemLinks w _) fun _ =>
    .bind (Q := fun _ => World.Homed hand) (Place.ensures_free trivial fun w _ h _ => hfree w h)
    fun _ => .bind Leaves.getWorld fun _ => .bind (Leaves.modifyWorld fun _ h => h) fun _ =>
    World.Homed.ignoresSubscriptions.releaseSubscription _

/-- The item that is taken out of a table, or released, has its session. -/
theorem ensures_unsubscribeItem_homed (hand : Multiset Token) (s id : ℕ) :
    Leaves (World.Homed hand) (unsubscribeItem s id) := by
  refine .bind (.read _ s) fun σ => ?_
  split
  · rename_i it _
    refine .bind (.read _ it) fun i => .bind (.assert _) fun _ =>
      .bind (World.Homed.ignoresSubscriptions.retainSubscription _) fun k => .bind
      (.read_bind fun σ' => .bind (Q := fun _ w => w.sessions.get s = some σ' ∧ w.Homed hand)
        ((Leaves.read _ it).imp (fun _ h => h) (fun _ _ h => h) fun _ h => h) fun j =>
        .bind (Q := fun _ => World.Homed hand) (Place.ensures_write trivial fun w _ h _ =>
          World.Homed.setSession h.2 h.1) fun _ => ?_) fun _ => .pure _
    exact ensures_publishItemRelease_homed World.Homed.ignoresSubscriptions fun w h =>
      h.freeItem it
  · exact .pure _

/-- An item is accepted by a session that is there. -/
theorem ensures_acceptSubscription_homed (hand : Multiset Token) (r s k : ℕ) :
    Attempt.Ensures (fun w => w.Homed hand ∧ (w.sessions.get s).isSome) (acceptSubscription r s k)
      (fun _ => World.Homed hand) Stop.Any := by
  have hnext : Leaves (World.Homed hand) (sessionGetNextFreePublishId s) := by
    refine .read_bind fun σ => .ite (fun _ => .pure fun _ h => h.2) fun _ => .bind
      (Leaves.malloc (P := fun w => w.sessions.get s = some σ ∧ w.Homed hand) fun _ _ h => h)
      fun _ => .ite (fun _ => .ite (fun _ => ?_) fun _ => .fail trivial) fun _ =>
      .pure fun _ h => h.2
    exact .bind (Q := fun _ => World.Homed hand) (Place.ensures_write trivial fun w _ h _ =>
      World.Homed.setSession h.2 h.1) fun _ => .pure fun _ h => h
  have hrequest : ∀ id, Attempt.Ensures (fun w => w.Homed hand ∧ (w.sessions.get s).isSome)
      (sessionRequestPublishItem s k id) (fun _ => World.Homed hand) Stop.Any := by
    intro id
    refine .bind (Leaves.malloc fun _ _ h => h) fun _ => .ite (fun _ => .bind
      (Q := fun _ => World.Homed hand) (Place.ensures_new ?_) fun it => .bind (Leaves.read _ _)
      fun _ => .bind (Leaves.write (fun _ _ h => h) _ _) fun _ =>
      .bind (Leaves.modifyWorld fun _ h => h) fun _ => .bind (Place.ensures_read trivial) fun σ =>
        .bind (Q := fun _ => World.Homed hand)
      (Place.ensures_write trivial fun w _ h _ => World.Homed.setSession h.2 h.1) fun _ =>
      .pure fun _ h => h) fun _ => .bind
        ((World.Homed.ignoresSubscriptions.releaseSubscription k).imp (fun _ h => h.1)
          (fun _ _ h => h) fun _ h => h) fun _ => .pure fun _ h => h
    rintro w ⟨h, hs⟩ it i hi
    have hi : (w.publishItems.alloc _).get it = some i := hi
    rw [Heap.get_alloc] at hi
    split at hi
    · obtain rfl := Option.some.inj hi
      exact Or.inl hs
    · exact h it i hi
  refine .bind (Attempt.Ensures.imp
    (hnext.and ((settled_sessionGetNextFreePublishId s).keeps_alive s)) (fun _ h => h)
    (fun _ _ h => h) fun _ _ => trivial) fun id => .bind (Q := fun _ => World.Homed hand)
    (.ite (fun _ => .pure fun _ h => h.1) fun _ => .bind (Attempt.Ensures.imp
      ((World.Homed.ignoresOutput.resultGetBlockedPublishItemTarget r).and
        ((settled_resultGetBlockedPublishItemTarget r).keeps_alive s)) (fun _ h => h)
      (fun _ _ h => h) fun _ _ => trivial) ?_) fun _ => .pure fun _ h => h
  rintro (_ | target)
  · exact .pure fun _ h => h.1
  refine .bind (hrequest id) ?_
  rintro (_ | it)
  · exact .pure fun _ h => h
  · exact .bind (World.Homed.ignoresOutput.setBlockedPublishItem r id it) fun _ =>
      .pure fun _ h => h

/-- What is in the table from the id 1 on, is an item of the session. -/
theorem Session.mem_items_of_ne {σ : Session} {id it : ℕ}
    (h : σ.publishItems[id]? = some (some it)) (hid : id ≠ 0) : it ∈ σ.items := by
  obtain ⟨n, rfl⟩ := Nat.exists_eq_succ_of_ne_zero hid
  refine List.mem_filterMap.mpr ⟨some it, List.mem_of_getElem? (i := n) ?_, rfl⟩
  rw [List.getElem?_drop, Nat.add_comm]
  exact h

/-- Without a stand-in there was no item. -/
theorem ensures_closeSession_none {P : World → Prop} (s : ℕ) (σ : Session) :
    Attempt.Ensures P (closeSession s σ) (fun r _ => r = none → σ.items = []) Stop.Any := by
  refine .bind .anything fun _ => .bind .anything fun _ => .bind .anything fun _ =>
    .ite (fun _ => .bind .anything fun _ => .pure fun _ _ => nofun) fun hlength =>
    .bind .anything fun _ => .pure fun _ _ _ => ?_
  exact List.length_eq_zero_iff.mp (not_not.mp hlength)

/-- When a session ends, its items are orphans. -/
theorem ensures_closeSession_homed (hand : Multiset Token) (s : ℕ) (σ : Session) :
    Attempt.Ensures
      (fun w => w.Inv S none none ∧ w.IdsFromOne ∧ w.Homed hand ∧ w.sessions.get s = some σ)
      (closeSession s σ) (fun _ => World.Homed (orphans σ.items + hand)) Stop.Any := by
  -- the session is not counted on any more
  let P : World → Prop := fun w => ∀ it i, w.publishItems.get it = some i →
    i.session ≠ s ∧ (w.sessions.get i.session).isSome ∨ .orphan it ∈ orphans σ.items + hand
  have houtput : IgnoresAnswers P := by
    refine ⟨⟨fun _ _ h => h, fun _ _ _ _ _ _ _ h => h, fun _ _ h => h, fun _ _ _ h => h,
      fun w t τ τ' hτ _ _ h it i hi => (h it i hi).imp_left fun hs => ⟨hs.1, ?_⟩⟩,
      fun _ _ _ _ _ _ h => h, fun _ _ h => h, fun _ _ _ h => h⟩
    show ((w.sessions.set t τ').get i.session).isSome
    rw [Heap.get_set hτ]
    split
    · rfl
    · exact hs.2
  refine (houtput.closeSession (fun w h it i hi => (h it i hi).imp_left fun hs =>
    ⟨hs.1, ?_⟩) σ).imp ?_ (fun _ w h it i hi => (h it i hi).imp_left And.right) fun _ h => h
  · show ((w.sessions.free s).get i.session).isSome
    rw [Heap.get_free, if_neg hs.1]
    exact hs.2
  · rintro w ⟨hinv, hids, h, hσ⟩ it i hi
    by_cases hs : i.session = s
    · refine Or.inr (Multiset.mem_add.mpr (Or.inl ?_))
      have htable := (hinv.item it i hi nofun).table σ (hs ▸ hσ)
      refine List.mem_map.mpr ⟨it, Session.mem_items_of_ne htable ?_, rfl⟩
      intro hzero
      rw [hzero] at htable
      exact (hids s σ hσ).first it htable
    · exact (h it i hi).imp (fun hsome => ⟨hs, hsome⟩) fun hmem =>
        Multiset.mem_add.mpr (Or.inr hmem)

/-- **Every publish item has its session**, in every run. -/
theorem conservesItems_homed : ConservesItems S (fun _ => World.IdsFromOne) World.Homed where
  answers _ := World.Homed.ignoresOutput.toIgnoresAnswers
  newRepublish _ it := (Leaves.new World.Homed.ignoresOutput.republishHandles it).moves
    fun _ _ h => h
  freeRepublish _ handle := (Leaves.free World.Homed.ignoresOutput.republishHandles handle).moves
    fun _ _ h => h
  owed hand hand' w owed heq h := by
    intro it i hi
    refine (h it i hi).imp_right fun hmem => ?_
    have hmem' : .orphan it ∈ stakes (hand + owedTokens w.owed) :=
      mem_stakes_orphan.mpr (Multiset.mem_add.mpr (Or.inl hmem))
    rw [← heq, mem_stakes_orphan, Multiset.mem_add] at hmem'
    exact hmem'.resolve_right (orphan_notMem_owedTokens it owed)
  retain hand k := (World.Homed.ignoresSubscriptions.retainSubscription k).moves fun _ _ h =>
    h.hand fun it => by simp
  release hand k := (World.Homed.ignoresSubscriptions.releaseSubscription k).moves fun _ _ h =>
    h.hand fun it => by simp
  request hand type key := (World.Homed.ignoresSubscriptions.requestSubscription type key).moves
    fun k _ h => h.hand fun it => by cases k <;> simp [reference]
  accept hand r s k := by
    refine (ensures_acceptSubscription_homed (.reference k ::ₘ hand) r s k).imp ?_
      (fun _ _ h => h.hand fun it => by simp) fun _ h => h
    rintro w ⟨hinv, -, h, ret, hr, hs⟩
    obtain ⟨σ, hσ, -⟩ := hinv.waiting r ret s hr hs (by simp)
    exact ⟨h, Option.isSome_iff_exists.mpr ⟨σ, hσ⟩⟩
  unsubscribe hand s id := (ensures_unsubscribeItem_homed hand s id).moves fun k _ h =>
    h.hand fun it => by cases k <;> simp [reference]
  create hand := by
    refine .bind (Q := fun _ => World.Homed hand) ((Leaves.malloc fun _ _ h => h).imp
      (fun _ h => h.2.2.1) (fun _ _ h => h) fun _ h => h) fun _ => .ite (fun _ => ?_) fun _ =>
      .pure fun _ h => h
    refine .bind (Q := fun _ => World.Homed hand) (Place.ensures_new fun w h it i hi => ?_)
      fun _ => .bind (Leaves.modifyWorld fun w h => ?_) fun _ => .pure fun _ h => h
    · refine (h it i hi).imp_left fun hs => ?_
      obtain ⟨σ, hσ⟩ := Option.isSome_iff_exists.mp hs
      exact Option.isSome_iff_exists.mpr ⟨σ, Heap.get_alloc_of_get hσ⟩
    · split
      · exact h
      · exact h
  close hand s σ := by
    refine ((ensures_closeSession_homed hand s σ).and (ensures_closeSession_none s σ)).imp
      (fun _ h => ⟨⟨h.1, h.2.1, h.2.2.1, h.2.2.2⟩, h⟩) ?_ fun _ _ => trivial
    rintro (_ | r) w ⟨h, hnone⟩
    · rw [hnone rfl, orphans_nil, zero_add] at h
      exact h
    · exact h.hand fun it hmem => Multiset.mem_add.mpr (Or.inr hmem)
  deleteItem hand it := by
    refine .bind (Q := fun _ => World.Homed (.orphan it ::ₘ hand)) ((Leaves.read _ it).imp
      (fun _ h => h.2.2.1) (fun _ _ h => h) fun _ h => h) fun i => .bind
      (World.Homed.ignoresSubscriptions.retainSubscription _) fun k => .bind
      (ensures_publishItemRelease_homed World.Homed.ignoresSubscriptions fun w h => h.freeOrphan)
      fun _ => .pure fun w h => h.hand fun it' hmem => Multiset.mem_cons_of_mem hmem

/-- At the end of a run no item has the id 0. -/
theorem idsFromOne_of_run {app : Application} {sizeT : Cbor.SizeT} {callbacks : Callback → Bool}
    {malloc : ℕ → Bool} {acts : List Act} {w : World}
    (hrun : Transition.Run (World.step app) Transition.anyStep
      (World.create sizeT callbacks malloc) acts w) : w.IdsFromOne :=
  ((conservesItems_idsFromOne (S := False) (I := anyWorld)).conserves.of_run False.elim nofun
    hrun).2

/-- At the end of a run every publish item has its session. -/
theorem homed_of_run {app : Application} {sizeT : Cbor.SizeT} {callbacks : Callback → Bool}
    {malloc : ℕ → Bool} {acts : List Act} {w : World}
    (hrun : Transition.Run (World.step app) Transition.anyStep
      (World.create sizeT callbacks malloc) acts w) : w.Homed 0 := by
  have hconserves := (conservesItems_idsFromOne (S := False) (I := anyWorld)).conserves.and
    conservesItems_homed.conserves
  exact (hconserves.of_run False.elim ⟨nofun, nofun⟩ hrun).2.2

end Wpcp

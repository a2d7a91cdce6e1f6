import Wpcp.Session.Kinds
import Wpcp.Session.ReferenceRuns

/-!
# Releases that return

A release returns from any state in which the table of subscriptions is sorted, the handles list
their items and the reference counts fit 32 bits (`Wpcp.World.Orderly`), as in every run they
do; what is left to ask of the caller is a reference.
`Wpcp.World.Orderly.exists_releaseSubscription` and `Wpcp.World.Orderly.exists_deletePublishItem`
say what the two releases change.
-/

namespace Wpcp

variable {S : Prop} {w w' : World} {k it : ℕ}

/-! ### Counts that fit -/

/-- The reference counts fit 32 bits. -/
def World.CountsFit (w : World) : Prop :=
  ∀ k s, w.subscriptions.get k = some s → s.referenceCount < 2 ^ 32

namespace World.CountsFit

theorem ignoresOutput : IgnoresOutput World.CountsFit where
  malloc _ _ h := h
  results _ _ h := h
  publishData _ _ h := h
  republishHandles _ _ h := h
  events _ _ _ h := h
  sessions _ _ _ _ _ _ _ h := h

theorem set (h : w.CountsFit) {s t : Subscription} (hs : w.subscriptions.get k = some s)
    (ht : t.referenceCount < 2 ^ 32) :
    World.CountsFit { w with subscriptions := w.subscriptions.set k t } := by
  intro j s' hj
  have hj : (w.subscriptions.set k t).get j = some s' := hj
  rw [Heap.get_set hs] at hj
  split at hj
  · obtain rfl := Option.some.inj hj
    exact ht
  · exact h j s' hj

theorem leaves_retainSubscription (k : ℕ) : Leaves World.CountsFit (retainSubscription k) :=
  .read_bind fun s => .bind (Q := fun _ => World.CountsFit) (Place.ensures_write trivial
    fun w _ h _ => h.2.set h.1 (Nat.mod_lt _ (by norm_num))) fun _ =>
    Leaves.bind (.modifyWorld fun _ h => h) fun _ => .pure _

theorem leaves_searchStep (type : ℕ) (key : List UInt8) (range : ℕ × ℕ) :
    Leaves World.CountsFit (searchStep type key range) :=
  IgnoresSubscriptions.searchStep type key range

theorem leaves_releaseSubscription (k : ℕ) : Leaves World.CountsFit (releaseSubscription k) := by
  refine .read_bind fun s => .bind (Q := fun _ => World.CountsFit) (Place.ensures_write trivial
    fun w _ h _ => h.2.set h.1 (Nat.mod_lt _ (by norm_num))) fun _ => Leaves.ite (.pure _)
    (.bind .getWorld fun w => .bind (.loop (I := fun _ => World.CountsFit) (fun range =>
      (leaves_searchStep _ _ range).imp (fun _ h => h) ?_ fun _ h => h) _ _) fun found => ?_)
  · rintro (range | found) w h
    · exact h
    · exact h
  · exact Leaves.bind (.modifyWorld fun _ h => h) fun _ => .bind (.malloc fun _ _ h => h) fun _ =>
      Place.ensures_free trivial fun w _ h _ j s hj => h j s (Heap.get_of_get_free hj).2

theorem leaves_requestSubscription (type : ℕ) (key : List UInt8) :
    Leaves World.CountsFit (requestSubscription type key) := by
  have hsearch : ∀ range, Leaves World.CountsFit (searchSubscription type key range) := by
    refine fun range => .ite (.pure _) (.bind (leaves_searchStep type key range) ?_)
    rintro (range | ⟨pos, subscription⟩)
    · exact .pure _
    · exact .pure _
  refine .bind .getWorld fun w => .bind (.loop (I := fun _ => World.CountsFit) (fun range =>
    (hsearch range).imp (fun _ h => h) ?_ fun _ h => h) _ _) ?_
  · rintro (range | found) w h
    · exact h
    · exact h
  · rintro ⟨_ | k, low⟩
    · refine Leaves.bind (.malloc fun _ _ h => h) fun _ => .ite (.bind (.malloc fun _ _ h => h)
        fun _ => .ite (.bind (Place.ensures_new fun w h j s hj => ?_) fun _ => .bind
          (.modifyWorld fun _ h => h) fun _ => .pure _) (.pure _)) (.pure _)
      have hj : (w.subscriptions.alloc _).get j = some s := hj
      rw [Heap.get_alloc] at hj
      split at hj
      · obtain rfl := Option.some.inj hj
        norm_num
      · exact h j s hj
    · exact Leaves.bind (leaves_retainSubscription k) fun _ => .pure _

/-- A handle is written to, and the count is left alone. -/
theorem ensures_write_handle (k : ℕ) (s : Subscription) (handle : PublishHandle) :
    Attempt.Ensures (fun w => w.subscriptions.get k = some s ∧ w.CountsFit)
      (Wpcp.subscriptions.write k { s with publishHandle := handle }) (fun _ => World.CountsFit)
      Stop.Any :=
  Place.ensures_write trivial fun _ _ h _ => h.2.set h.1 (h.2 k s h.1)

theorem leaves_publishItemRelease (it : ℕ) : Leaves World.CountsFit (publishItemRelease it) :=
  .bind (.read _ _) fun _ => .read_bind fun s => .bind (ensures_assert_any.imp (fun _ h => h)
    (fun _ _ h => h.2) fun _ h => h) fun _ => .bind (ensures_write_handle _ s _) fun _ =>
    Leaves.bind (.modifyWorld fun _ h => h) fun _ => .bind (.free (fun _ _ h => h) _) fun _ =>
    .bind .getWorld fun _ => .bind (.modifyWorld fun _ h => h) fun _ =>
    leaves_releaseSubscription _

theorem leaves_unsubscribeItem (s id : ℕ) : Leaves World.CountsFit (unsubscribeItem s id) := by
  refine .bind (.read _ s) fun σ => ?_
  split
  · exact .bind (.read _ _) fun i => .bind (.assert _) fun _ => .bind (leaves_retainSubscription _)
      fun _ => .bind (.bind (.read _ _) fun σ => .bind (.read _ _) fun i =>
        .bind (.write (fun _ _ h => h) _ _) fun _ => leaves_publishItemRelease _) fun _ => .pure _
  · exact .pure _

theorem leaves_acceptSubscription (r s k : ℕ) :
    Leaves World.CountsFit (acceptSubscription r s k) := by
  have hnext : Leaves World.CountsFit (sessionGetNextFreePublishId s) :=
    .bind (.read _ _) fun σ => .ite (.pure _) (.bind (.malloc fun _ _ h => h) fun _ => .ite
      (.ite (.bind (.write (fun _ _ h => h) _ _) fun _ => .pure _) (.fail _)) (.pure _))
  have hrequest : ∀ id, Leaves World.CountsFit (sessionRequestPublishItem s k id) := fun id =>
    .bind (.malloc fun _ _ h => h) fun _ => .ite (.bind (.new (fun _ _ h => h) _) fun it =>
      .read_bind fun s => .bind (ensures_write_handle k s _) fun _ => Leaves.bind
        (.modifyWorld fun _ h => h) fun _ => .bind (.read _ _) fun _ =>
        .bind (.write (fun _ _ h => h) _ _) fun _ => .pure _)
      (.bind (leaves_releaseSubscription k) fun _ => .pure _)
  refine .bind hnext fun id => .bind (.ite (.pure _) (.bind
    (ignoresOutput.resultGetBlockedPublishItemTarget r) ?_)) fun _ => .pure _
  rintro (_ | target)
  · exact .pure _
  refine .bind (hrequest id) ?_
  rintro (_ | it)
  · exact .pure _
  · exact .bind (ignoresOutput.setBlockedPublishItem r id it) fun _ => .pure _

end World.CountsFit

/-- **Every operation leaves counts that fit.** -/
theorem conservesItems_countsFit : ConservesItems S anyWorld fun _ => World.CountsFit where
  answers _ := World.CountsFit.ignoresOutput.toIgnoresAnswers
  owed _ _ _ _ _ h := h
  retain _ k := (World.CountsFit.leaves_retainSubscription k).moves fun _ _ h => h
  release _ k := (World.CountsFit.leaves_releaseSubscription k).moves fun _ _ h => h
  request _ type key := (World.CountsFit.leaves_requestSubscription type key).moves fun _ _ h => h
  accept _ r s k := (World.CountsFit.leaves_acceptSubscription r s k).moves fun _ _ h => h
  newRepublish _ it := (Leaves.new (fun _ _ h => h) it).moves fun _ _ h => h
  freeRepublish _ handle := (Leaves.free (fun _ _ h => h) handle).moves fun _ _ h => h
  unsubscribe _ s id := (World.CountsFit.leaves_unsubscribeItem s id).moves fun _ _ h => h
  create _ := Leaves.moves (.bind (.malloc fun _ _ h => h) fun _ => .ite (.bind
    (.new (fun _ _ h => h) _) fun _ => .bind (.modifyWorld fun w h => by
      split
      · exact h
      · exact h) fun _ => .pure _) (.pure _)) fun _ _ h => h
  close _ s σ := (World.CountsFit.ignoresOutput.closeSession (fun _ h => h) σ).moves fun _ _ h => h
  deleteItem _ it := Leaves.moves (.bind (.read _ _) fun _ =>
    .bind (World.CountsFit.leaves_retainSubscription _) fun _ =>
    .bind (World.CountsFit.leaves_publishItemRelease it) fun _ => .pure _) fun _ _ h => h

/-! ### What is in order -/

/-- The references that a subscription counts; one that has been freed counts none. -/
def World.references (w : World) (k : ℕ) : ℕ :=
  (w.subscriptions.get k).elim 0 Subscription.referenceCount

/-- **The subscriptions are in order**: the table is sorted, the handles list their items, and the
counts fit 32 bits. -/
structure World.Orderly (w : World) : Prop where
  sorted : ∃ keys, w.Sorted keys
  handle : ∀ k s, w.subscriptions.get k = some s → w.Lists k s.publishHandle
  fits : w.CountsFit

theorem exists_of_references_pos (h : 0 < w.references k) :
    ∃ s, w.subscriptions.get k = some s ∧ w.references k = s.referenceCount := by
  rcases hs : w.subscriptions.get k with _ | s
  · rw [World.references, hs] at h
    exact absurd h (Nat.lt_irrefl 0)
  · exact ⟨s, rfl, by rw [World.references, hs, Option.elim_some]⟩

/-- **In every run the subscriptions are in order.** -/
theorem orderly_of_run {app : Application} {sizeT : Cbor.SizeT} {callbacks : Callback → Bool}
    {malloc : ℕ → Bool} {acts : List Act}
    (hrun : Transition.Run (World.step app) Transition.anyStep
      (World.create sizeT callbacks malloc) acts w) : w.Orderly := by
  have hbalance : w.Balanced False (owedTokens w.owed) := balanced_of_run False.elim hrun
  have hfits : Holds False (fun _ => World.CountsFit) 0 w :=
    conservesItems_countsFit.conserves.of_run False.elim nofun hrun
  exact ⟨hbalance.sorted, hbalance.handle, hfits.2⟩

namespace World.Orderly

/-- Only subscriptions and publish items matter. -/
theorem congr (h : w.Orderly) (htable : w'.subscriptionTable = w.subscriptionTable)
    (hsubscriptions : w'.subscriptions = w.subscriptions)
    (hitems : w'.publishItems = w.publishItems) : w'.Orderly := by
  obtain ⟨keys, hkeys⟩ := h.sorted
  refine ⟨⟨keys, hkeys.congr htable fun k => by rw [hsubscriptions]⟩, fun k s hs => ?_,
    fun k s hs => h.fits k s (hsubscriptions ▸ hs)⟩
  obtain ⟨hlength, hnodup, hmem⟩ := h.handle k s (hsubscriptions ▸ hs)
  exact ⟨hlength, hnodup, fun it => by rw [hitems]; exact hmem it⟩

/-- A reference count is written to. -/
theorem setCount (h : w.Orderly) {s : Subscription} (hs : w.subscriptions.get k = some s)
    {count : ℕ} (hcount : count < 2 ^ 32) :
    World.Orderly { w with
      subscriptions := w.subscriptions.set k { s with referenceCount := count } } := by
  obtain ⟨keys, hkeys⟩ := h.sorted
  refine ⟨⟨keys, hkeys.set hs rfl rfl⟩, fun j t ht => ?_, h.fits.set hs hcount⟩
  have hj := (Heap.get_set hs _ j).symm.trans ht
  split at hj
  · subst j
    obtain rfl := Option.some.inj hj
    obtain ⟨hlength, hnodup, hmem⟩ := h.handle k s hs
    exact ⟨hlength, hnodup, hmem⟩
  · obtain ⟨hlength, hnodup, hmem⟩ := h.handle j t hj
    exact ⟨hlength, hnodup, hmem⟩

end World.Orderly

/-- The references to a subscription after a write to one. -/
theorem references_set {s t : Subscription} {count : ℕ} (hs : w.subscriptions.get k = some s)
    (hsubscriptions : w'.subscriptions = w.subscriptions.set k t)
    (hcount : t.referenceCount = count) (j : ℕ) :
    w'.references j = if j = k then count else w.references j := by
  rw [World.references, World.references, hsubscriptions, Heap.get_set hs]
  split
  · rw [Option.elim_some, hcount]
  · rfl

/-- The table has one reference less to a subscription; nothing else is touched. -/
structure World.ReleasesReference (k : ℕ) (w w' : World) : Prop where
  orderly : w'.Orderly
  references : ∀ j, w'.references j + (if j = k then 1 else 0) = w.references j
  publishItems : w'.publishItems = w.publishItems
  publishData : w'.publishData = w.publishData
  results : w'.results = w.results
  callbacks : w'.callbacks = w.callbacks
  owed : w'.owed = w.owed
  events : w'.events = w.events

/-- **A reference is released**, and with the last one the subscription is. -/
theorem World.Orderly.exists_releaseSubscription (h : w.Orderly) (hpos : 0 < w.references k) :
    ∃ w', (releaseSubscription k).run w = some (.ok (), w') ∧ w.ReleasesReference k w' := by
  obtain ⟨s, hs, hcount⟩ := exists_of_references_pos hpos
  obtain ⟨keys, hkeys⟩ := h.sorted
  have hfits : s.referenceCount < 2 ^ 32 := h.fits k s hs
  have hreleased : (w.released k s).Orderly := h.setCount hs (Nat.mod_lt _ (by norm_num))
  have hreferences : ∀ j, (w.released k s).references j =
      if j = k then (s.referenceCount + (2 ^ 32 - 1)) % 2 ^ 32 else w.references j :=
    references_set hs rfl rfl
  have hless := decrement_eq (hcount ▸ hpos) hfits
  rcases hkeys.run_releaseSubscription hs with ⟨-, hrun⟩ | ⟨hzero, place, hplace, -, hrun⟩
  · refine ⟨w.released k s, hrun, hreleased, fun j => ?_, rfl, rfl, rfl, rfl, rfl, rfl⟩
    rw [hreferences]
    split
    · subst j
      omega
    · rfl
  · have hget : ∀ j, (w.unlisted k s place).subscriptions.get j =
        if j = k then none else (w.released k s).subscriptions.get j := Heap.get_free _ _
    have hsorted : (w.released k s).Sorted keys := hkeys.set hs rfl rfl
    refine ⟨w.unlisted k s place, hrun, ⟨⟨_, (hsorted.erase hplace).congr rfl fun _ => rfl⟩,
      fun j t ht => ?_, fun j t ht => ?_⟩, fun j => ?_, rfl, rfl, rfl, rfl, rfl, rfl⟩
    · rw [hget] at ht
      split at ht
      · exact absurd ht nofun
      · obtain ⟨hlength, hnodup, hmem⟩ := hreleased.handle j t ht
        exact ⟨hlength, hnodup, hmem⟩
    · rw [hget] at ht
      split at ht
      · exact absurd ht nofun
      · exact hreleased.fits j t ht
    · have hnone : (w.unlisted k s place).references j =
          if j = k then 0 else (w.released k s).references j := by
        rw [World.references, hget]
        split
        · rfl
        · rfl
      rw [hnone, hreferences]
      split
      · subst j
        omega
      · rfl

/-! ### An item is released -/

/-- An item of a subscription is taken out of its handle, and freed. -/
def World.withoutItem (w : World) (k it : ℕ) (s : Subscription) : World :=
  { w with
    subscriptions := w.subscriptions.set k { s with
      publishHandle := ⟨s.publishHandle.length - 1, s.publishHandle.items.erase it⟩ }
    itemLinks := w.itemLinks.remove k it
    publishItems := w.publishItems.free it }

/-- **Releasing an item** of a subscription ends with the release of the subscription. -/
theorem run_publishItemRelease {i : PublishItem} {s : Subscription}
    (hi : w.publishItems.get it = some i) (hs : w.subscriptions.get i.subscription = some s)
    (hit : it ∈ s.publishHandle.items) :
    ∃ referenced, (publishItemRelease it).run w = (releaseSubscription i.subscription).run
      { w.withoutItem i.subscription it s with
        events := w.events ++ [.released it referenced]
        owed := w.owed ++ [] } := by
  refine ⟨(w.withoutItem i.subscription it s).referenced it, ?_⟩
  rw [publishItemRelease, Attempt.run_bind_ok (Place.run_read hi),
    Attempt.run_bind_ok (Place.run_read hs), assert, if_pos hit]
  refine (Attempt.run_bind_ok (Place.run_write hs _)).trans ?_
  let w₁ : World := { w with
    subscriptions := w.subscriptions.set i.subscription { s with
      publishHandle := ⟨s.publishHandle.length - 1, s.publishHandle.items.erase it⟩ }
    itemLinks := w.itemLinks.remove i.subscription it }
  have hfree : (publishItems.free it).run w₁ = _ := Place.run_free (p := publishItems) hi
  exact Attempt.run_bind_ok hfree

namespace World.Orderly

theorem withoutItem (h : w.Orderly) {i : PublishItem} {s : Subscription}
    (hi : w.publishItems.get it = some i) (hk : i.subscription = k)
    (hs : w.subscriptions.get k = some s) : (w.withoutItem k it s).Orderly := by
  obtain ⟨keys, hkeys⟩ := h.sorted
  have hfree : ∀ it' i', (w.publishItems.free it).get it' = some i' ↔
      it' ≠ it ∧ w.publishItems.get it' = some i' := by
    intro it' i'
    rw [Heap.get_free]
    split
    · simp [*]
    · simp [*]
  have hset : World.Sorted { w with subscriptions := (w.withoutItem k it s).subscriptions } keys :=
    hkeys.set hs rfl rfl
  refine ⟨⟨keys, hset.congr rfl fun _ => rfl⟩, fun j t ht => ?_, h.fits.set hs (h.fits k s hs)⟩
  have hj := (Heap.get_set hs _ j).symm.trans ht
  split at hj
  · subst j
    obtain rfl := Option.some.inj hj
    obtain ⟨hlength, hnodup, hmem⟩ := h.handle k s hs
    have hit : it ∈ s.publishHandle.items := (hmem it).mpr ⟨i, hi, hk⟩
    refine ⟨?_, hnodup.erase it, fun it' => ?_⟩
    · rw [List.length_erase_of_mem hit, hlength]
    · rw [hnodup.mem_erase_iff, hmem]
      constructor
      · rintro ⟨hne, i', hi', hk'⟩
        exact ⟨i', (hfree it' i').mpr ⟨hne, hi'⟩, hk'⟩
      · rintro ⟨i', hi', hk'⟩
        obtain ⟨hne, hi'⟩ := (hfree it' i').mp hi'
        exact ⟨hne, i', hi', hk'⟩
  · rename_i hne
    obtain ⟨hlength, hnodup, hmem⟩ := h.handle j t hj
    refine ⟨hlength, hnodup, fun it' => (hmem it').trans ?_⟩
    constructor
    · rintro ⟨i', hi', rfl⟩
      refine ⟨i', (hfree it' i').mpr ⟨?_, hi'⟩, rfl⟩
      rintro rfl
      obtain rfl := Option.some.inj (hi.symm.trans hi')
      exact hne hk
    · rintro ⟨i', hi', rfl⟩
      exact ⟨i', ((hfree it' i').mp hi').2, rfl⟩

end World.Orderly

/-- What the loop of `wpcp_session_delete` does before it calls the application: the item is no
more, and its subscription has as many references as before. -/
structure World.ReleasesItem (it : ℕ) (w w' : World) : Prop where
  orderly : w'.Orderly
  references : ∀ k, w'.references k = w.references k
  publishItems : w'.publishItems = w.publishItems.free it
  results : w'.results = w.results
  callbacks : w'.callbacks = w.callbacks
  owed : w'.owed = w.owed
  events : ∃ referenced, w'.events = w.events ++ [.released it referenced]

/-- **An item is released**, from a subscription that is retained for the application. -/
theorem World.Orderly.exists_deletePublishItem (h : w.Orderly) {i : PublishItem}
    (hi : w.publishItems.get it = some i) (hpos : 0 < w.references i.subscription) :
    ∃ w', (deletePublishItem it).run w = some (.ok i.subscription, w') ∧ w.ReleasesItem it w' := by
  obtain ⟨s, hs, hcount⟩ := exists_of_references_pos hpos
  have hfits : s.referenceCount < 2 ^ 32 := h.fits _ s hs
  -- the subscription is retained
  obtain ⟨k, hk⟩ : ∃ k, i.subscription = k := ⟨_, rfl⟩
  rw [hk] at hs hpos hcount
  let w₁ : World := w.retained k s
  obtain ⟨s₁, hs₁, hcount₁, hhandle₁⟩ : ∃ s₁, w₁.subscriptions.get k = some s₁ ∧
      s₁.referenceCount = (s.referenceCount + 1) % 2 ^ 32 ∧ s₁.publishHandle = s.publishHandle :=
    ⟨_, (Heap.get_set hs _ k).trans (if_pos rfl), rfl, rfl⟩
  have horderly₁ : w₁.Orderly :=
    (h.setCount hs (Nat.mod_lt _ (by norm_num))).congr rfl rfl rfl
  have hreferences₁ : ∀ j, w₁.references j =
      if j = k then (s.referenceCount + 1) % 2 ^ 32 else w.references j :=
    references_set hs rfl rfl
  -- it loses the item
  obtain ⟨hlength, hnodup, hmem⟩ := h.handle k s hs
  have hit : it ∈ s₁.publishHandle.items := by
    rw [hhandle₁]
    exact (hmem it).mpr ⟨i, hi, hk⟩
  let w₂ : World := w₁.withoutItem k it s₁
  obtain ⟨s₂, hs₂, hcount₂⟩ : ∃ s₂, w₂.subscriptions.get k = some s₂ ∧
      s₂.referenceCount = s₁.referenceCount := ⟨_, (Heap.get_set hs₁ _ k).trans (if_pos rfl), rfl⟩
  have horderly₂ : w₂.Orderly := horderly₁.withoutItem hi hk hs₁
  have hreferences₂ : ∀ j, w₂.references j = if j = k then s₁.referenceCount else w₁.references j :=
    references_set hs₁ rfl rfl
  obtain ⟨referenced, hrelease⟩ := run_publishItemRelease (w := w₁) hi (hk ▸ hs₁) hit
  rw [hk] at hrelease
  -- and the reference of the item is released; it is not the last one
  let w₃ : World := { w₂ with
    events := w₁.events ++ [.released it referenced]
    owed := w₁.owed ++ [] }
  have hback : (s₂.referenceCount + (2 ^ 32 - 1)) % 2 ^ 32 = s.referenceCount := by omega
  have horderly₃ : w₃.Orderly := horderly₂.congr rfl rfl rfl
  have hreleased : (w₃.released k s₂).Orderly :=
    horderly₃.setCount hs₂ (Nat.mod_lt _ (by norm_num))
  have hreferences₃ : ∀ j, (w₃.released k s₂).references j =
      if j = k then s.referenceCount else w₂.references j := references_set hs₂ rfl hback
  obtain ⟨keys, hkeys⟩ := horderly₃.sorted
  refine ⟨w₃.released k s₂, ?_, hreleased, fun j => ?_, rfl, rfl, rfl, List.append_nil _,
    referenced, rfl⟩
  · rw [deletePublishItem, Attempt.run_bind_ok (Place.run_read hi), hk,
      Attempt.run_bind_ok (run_retainSubscription hs)]
    rcases hkeys.run_releaseSubscription hs₂ with ⟨-, hrun⟩ | ⟨hzero, -⟩
    · rw [Attempt.run_bind_ok (hrelease.trans hrun)]
      rfl
    · omega
  · rw [hreferences₃, hreferences₂, hreferences₁]
    split
    · subst j
      exact hcount.symm
    · rfl

end Wpcp

import Wpcp.Session.ItemTables

/-!
# Items that are referred to

Besides the table of its session and the list of its subscription, two things refer to a publish
item: a result that waits has accepted it, and the handle that `republish.ex_cb` was given is
for it. The function that releases an item, `wpcp_publish_item_release`, knows of the first two
only. **In every run that releases no item while one of the others refers to it, every item that
is referred to is registered in the table of its session** (`Wpcp.registered_of_run`); and a
client can have an item released too early, with a subscription that is accepted at once and
unsubscribed while its request waits for another answer
(`Wpcp.not_registered_unsubscribed`).
-/

namespace Wpcp

variable {w w' : World}

/-- A result that waits for a session has accepted the item, or a handle that the application
holds is for it. -/
def World.Refers (w : World) (it : ℕ) : Prop :=
  (∃ r ret, w.results.get r = some ret ∧ ret.session.isSome ∧ it ∈ ret.items) ∨
    ∃ handle, w.republishHandles.get handle = some it

/-- The item is in the table of its session. -/
def World.InTable (w : World) (it : ℕ) : Prop :=
  ∃ i σ, w.publishItems.get it = some i ∧ w.sessions.get i.session = some σ ∧
    σ.publishItems[i.subscriptionid]? = some (some it)

/-- No item was released while something referred to it. -/
def World.ReleasesUnreferenced (w : World) : Prop := ∀ it, Event.released it true ∉ w.events

/-- **What is referred to is there**, unless an item was released too early. -/
def World.Referred (w : World) : Prop :=
  w.ReleasesUnreferenced → ∀ it, w.Refers it → (w.publishItems.get it).isSome

/-- What is noted of an item when it is released is whether something refers to it. -/
theorem World.referenced_iff {it : ℕ} : w.referenced it = true ↔ w.Refers it := by
  rw [World.referenced, Bool.or_eq_true]
  refine or_congr ?_ ?_
  · rw [List.any_eq_true]
    constructor
    · rintro ⟨r, -, hr⟩
      obtain ⟨ret, hget, hret⟩ := (Option.any_eq_true _ _).mp hr
      obtain ⟨hsession, hblocked⟩ := Bool.and_eq_true_iff.mp hret
      obtain ⟨blocked, hsome, hmem⟩ := (Option.any_eq_true _ _).mp hblocked
      refine ⟨r, ret, hget, hsession, ?_⟩
      rw [Result.items, hsome]
      exact of_decide_eq_true hmem
    · rintro ⟨r, ret, hget, hsession, hmem⟩
      refine ⟨r, List.mem_range.mpr (Heap.lt_next hget), (Option.any_eq_true _ _).mpr
        ⟨ret, hget, Bool.and_eq_true_iff.mpr ⟨hsession, ?_⟩⟩⟩
      rw [Result.items] at hmem
      rcases hblocked : ret.blockedItems with _ | blocked
      · rw [hblocked] at hmem
        exact absurd hmem List.not_mem_nil
      · rw [hblocked] at hmem
        exact (Option.any_eq_true _ _).mpr ⟨blocked, rfl, decide_eq_true hmem⟩
  · rw [List.any_eq_true]
    constructor
    · rintro ⟨handle, -, hhandle⟩
      exact ⟨handle, of_decide_eq_true hhandle⟩
    · rintro ⟨handle, hhandle⟩
      exact ⟨handle, List.mem_range.mpr (Heap.lt_next hhandle), decide_eq_true hhandle⟩

namespace World.Referred

/-- What refers to no more items, and releases none, leaves what is referred to there. -/
theorem mono (h : w.Referred) (hevents : ∀ e ∈ w.events, e ∈ w'.events)
    (hitems : ∀ it, (w.publishItems.get it).isSome → (w'.publishItems.get it).isSome)
    (hrefers : ∀ it, w'.Refers it → w.Refers it) : w'.Referred := fun hreleases it hit =>
  hitems it (h (fun k hk => hreleases k (hevents _ hk)) it (hrefers it hit))

/-- Other results do not refer to an item, if none of those before them did. -/
theorem refers_results {heap : Heap Result} {it : ℕ}
    (h : ∀ r ret, heap.get r = some ret → ret.session.isSome → it ∈ ret.items →
      ∃ k ret', w.results.get k = some ret' ∧ ret'.session.isSome ∧ it ∈ ret'.items)
    (hit : World.Refers { w with results := heap } it) : w.Refers it :=
  hit.imp_left fun ⟨r, ret, hr, hsession, hmem⟩ => h r ret hr hsession hmem

theorem ignoresAnswers : IgnoresAnswers World.Referred where
  malloc _ _ h := h
  answerResult w r ret ret' hr hsame h := by
    refine h.mono (fun _ he => he) (fun _ hi => hi) fun it =>
      refers_results fun k q hq hsome hmem => ?_
    rw [Heap.get_set hr] at hq
    split at hq
    · obtain rfl := Option.some.inj hq
      obtain ⟨hsession | hsession, hitems⟩ := hsame
      · exact ⟨r, ret, hr, hsession ▸ hsome, hitems ▸ hmem⟩
      · rw [hsession] at hsome
        exact absurd hsome nofun
    · exact ⟨k, q, hq, hsome, hmem⟩
  freeResult w r h := h.mono (fun _ he => he) (fun _ hi => hi)
    fun it => refers_results fun k q hq hsome hmem => ⟨k, q, (Heap.get_of_get_free hq).2,
      hsome, hmem⟩
  newResult w ret hnone h := by
    refine h.mono (fun _ he => he) (fun _ hi => hi) fun it =>
      refers_results fun k q hq hsome hmem => ?_
    rw [Heap.get_alloc] at hq
    split at hq
    · obtain rfl := Option.some.inj hq
      rw [hnone] at hmem
      exact absurd hmem List.not_mem_nil
    · exact ⟨k, q, hq, hsome, hmem⟩
  publishData _ _ h := h
  events _ _ _ h := h.mono (fun _ he => List.mem_append_left _ he) (fun _ hi => hi)
    fun _ hit => hit
  sessions _ _ _ _ _ _ _ h := h

theorem ignoresSubscriptions : IgnoresSubscriptions World.Referred where
  malloc _ _ h := h
  subscriptionTable _ _ h := h
  subscriptions _ _ h := h
  referencesPeak _ _ h := h
  itemLinks _ _ h := h

/-- A session does not matter. -/
theorem write_sessions (s : ℕ) (σ : Session) :
    Leaves World.Referred (Wpcp.sessions.write s σ) :=
  .write (fun _ _ h => h) s σ

/-- One more item does not matter. -/
theorem newItem (h : w.Referred) (i : PublishItem) :
    World.Referred { w with publishItems := w.publishItems.alloc i } :=
  h.mono (fun _ he => he) (fun it hit => by
    obtain ⟨j, hj⟩ := Option.isSome_iff_exists.mp hit
    exact Option.isSome_iff_exists.mpr ⟨j, Heap.get_alloc_of_get hj⟩) fun _ hit => hit

end World.Referred

/-! ### Releasing an item -/

/-- What is referred to is there, but for one item. -/
def World.ReferredBut (it : ℕ) (w : World) : Prop :=
  w.ReleasesUnreferenced → ∀ k, w.Refers k → k ≠ it → (w.publishItems.get k).isSome

/-- **An item is released** that nothing refers to, or it is noted that something does. -/
theorem leaves_publishItemRelease_referred (it : ℕ) :
    Leaves World.Referred (publishItemRelease it) := by
  refine .bind (.read _ _) fun i => .bind (.read _ _) fun s => .bind (.assert _) fun _ =>
    .bind (.write (fun _ _ h => h) _ _) fun _ => .bind (.modifyWorld fun _ h => h) fun _ =>
    Attempt.Ensures.bind (Q := fun _ => World.ReferredBut it)
    (Place.ensures_free trivial ?_) fun _ => .bind ensures_getWorld fun w₀ =>
    .bind (Q := fun _ => World.Referred) (ensures_modifyWorld ?_) fun _ =>
    World.Referred.ignoresSubscriptions.releaseSubscription _
  · rintro w _ h - hreleases k hk hne
    show ((w.publishItems.free it).get k).isSome
    rw [Heap.get_free, if_neg hne]
    exact h hreleases k hk
  · rintro w ⟨rfl, h⟩ hreleases k hk
    have hbefore : w₀.ReleasesUnreferenced := fun j hj =>
      hreleases j (List.mem_append_left _ hj)
    refine h hbefore k hk fun heq => hreleases it (List.mem_append_right _ ?_)
    have hnoted : w₀.referenced it = true := World.referenced_iff.mpr (heq ▸ hk)
    rw [hnoted]
    exact List.mem_singleton.mpr rfl

theorem leaves_unsubscribeItem_referred (s id : ℕ) :
    Leaves World.Referred (unsubscribeItem s id) := by
  refine .bind (.read _ s) fun σ => ?_
  split
  · exact .bind (.read _ _) fun i => .bind (.assert _) fun _ =>
      .bind (World.Referred.ignoresSubscriptions.retainSubscription _) fun _ =>
      .bind (.bind (.read _ _) fun _ => .bind (.read _ _) fun _ =>
        .bind (World.Referred.write_sessions _ _) fun _ => leaves_publishItemRelease_referred _)
      fun _ => .pure _
  · exact .pure _

theorem leaves_deletePublishItem_referred (it : ℕ) :
    Leaves World.Referred (deletePublishItem it) :=
  .bind (.read _ _) fun _ =>
    .bind (World.Referred.ignoresSubscriptions.retainSubscription _) fun _ =>
    .bind (leaves_publishItemRelease_referred it) fun _ => .pure _

/-! ### Accepting an item -/

/-- A new item is there. -/
theorem ensures_sessionRequestPublishItem_referred (s k id : ℕ) :
    Attempt.Ensures World.Referred (sessionRequestPublishItem s k id)
      (fun o w => w.Referred ∧ ∀ it ∈ o, (w.publishItems.get it).isSome) Stop.Any := by
  refine .bind (Leaves.malloc fun _ _ h => h) fun ok => .ite (fun _ => ?_) fun _ =>
    .bind (World.Referred.ignoresSubscriptions.releaseSubscription k) fun _ =>
    .pure fun _ h => ⟨h, nofun⟩
  refine .bind (Q := fun it w => w.Referred ∧ (w.publishItems.get it).isSome)
    (Place.ensures_new fun w h => ⟨h.newItem _, ?_⟩) fun it =>
    .bind (Leaves.read _ _) fun _ => .bind (Leaves.write (fun _ _ h => h) _ _) fun _ =>
    .bind (Q := fun _ w => w.Referred ∧ (w.publishItems.get it).isSome)
      (ensures_modifyWorld fun _ h => h) fun _ => .bind (Leaves.read _ _) fun _ =>
    .bind (Leaves.write (fun _ _ h => h) _ _) fun _ =>
    .pure fun w h => ⟨h.1, fun it' heq => ?_⟩
  · show ((w.publishItems.alloc _).get w.publishItems.next).isSome
    rw [Heap.get_alloc, if_pos rfl]
    rfl
  · obtain rfl := Option.some.inj heq
    exact h.2

/-- **An item that is there is accepted.** -/
theorem ensures_setBlockedPublishItem_referred (r id it : ℕ) :
    Attempt.Ensures (fun w => w.Referred ∧ (w.publishItems.get it).isSome)
      (setBlockedPublishItem r id it) (fun _ => World.Referred) Stop.Any := by
  refine .bind (Place.ensures_read trivial) fun ret => ?_
  rcases hblocked : ret.blockedItems with _ | blocked
  · exact .fail trivial
  refine Place.ensures_write trivial ?_
  rintro w - ⟨hr, h, hit⟩ - hreleases k hk
  by_cases heq : k = it
  · rw [heq]
    exact hit
  refine h hreleases k (World.Referred.refers_results (fun q ret' hq hsome hmem => ?_) hk)
  rw [Heap.get_set hr] at hq
  split at hq
  · obtain rfl := Option.some.inj hq
    refine ⟨r, ret, hr, hsome, ?_⟩
    rw [Result.items, hblocked]
    exact (List.mem_append.mp hmem).resolve_right fun hlast => heq (List.mem_singleton.mp hlast)
  · exact ⟨q, ret', hq, hsome, hmem⟩

theorem leaves_acceptSubscription_referred (r s k : ℕ) :
    Leaves World.Referred (acceptSubscription r s k) := by
  refine .bind ?_ fun id => .bind (.ite (.pure _) (.bind
    (World.Referred.ignoresAnswers.resultGetBlockedPublishItemTarget r) ?_)) fun _ => .pure _
  · exact .bind (.read _ _) fun σ => .ite (.pure _) (.bind (.malloc fun _ _ h => h) fun _ =>
      .ite (.ite (.bind (World.Referred.write_sessions _ _) fun _ => .pure _) (.fail _)) (.pure _))
  rintro (_ | target)
  · exact .pure _
  refine Attempt.Ensures.bind (ensures_sessionRequestPublishItem_referred s k id) ?_
  rintro (_ | it)
  · exact .pure fun _ h => h.1
  · exact .bind ((ensures_setBlockedPublishItem_referred r id it).imp
      (fun _ h => ⟨h.1, h.2 it rfl⟩) (fun _ _ h => h) fun _ h => h) fun _ => .pure fun _ h => h

/-! ### In every run -/

/-- **What is referred to stays there.** -/
theorem conservesItems_referred {S : Prop} : ConservesItems S anyWorld fun _ => World.Referred where
  answers _ := World.Referred.ignoresAnswers
  owed _ _ _ _ _ h := h
  retain _ k := (World.Referred.ignoresSubscriptions.retainSubscription k).moves fun _ _ h => h
  release _ k := (World.Referred.ignoresSubscriptions.releaseSubscription k).moves fun _ _ h => h
  request _ type key := (World.Referred.ignoresSubscriptions.requestSubscription type key).moves
    fun _ _ h => h
  accept _ r s k := (leaves_acceptSubscription_referred r s k).moves fun _ _ h => h
  newRepublish _ it := Place.ensures_new fun w hw hreleases k hk => by
    obtain ⟨i, -, hi, -⟩ := hw.2.2.2
    rcases hk with hresult | ⟨handle, hhandle⟩
    · exact hw.2.2.1 hreleases k (Or.inl hresult)
    · have hhandle : (w.republishHandles.alloc it).get handle = some k := hhandle
      rw [Heap.get_alloc] at hhandle
      split at hhandle
      · obtain rfl := Option.some.inj hhandle
        exact Option.isSome_iff_exists.mpr ⟨i, hi⟩
      · exact hw.2.2.1 hreleases k (Or.inr ⟨handle, hhandle⟩)
  freeRepublish _ handle := Place.ensures_free trivial fun w _ hw _ =>
    World.Referred.mono hw.2.2.1 (fun _ he => he) (fun _ hi => hi) fun _ hk =>
      hk.imp_right fun ⟨k, hk⟩ => ⟨k, (Heap.get_of_get_free hk).2⟩
  unsubscribe _ s id := (leaves_unsubscribeItem_referred s id).moves fun _ _ h => h
  create _ := (Leaves.bind (.malloc fun _ _ h => h) fun _ => .ite
    (.bind (.new (fun _ _ h => h) _) fun _ => .bind (.modifyWorld fun w h => by
      split
      · exact h
      · exact h) fun _ => .pure _) (.pure _)).moves fun _ _ h => h
  close _ s σ := (World.Referred.ignoresAnswers.closeSession (fun _ h => h) σ).moves fun _ _ h => h
  deleteItem _ it := (leaves_deletePublishItem_referred it).moves fun _ _ h => h

/-- A publish item that is there is in the table of its session. -/
theorem inTable_of_run {app : Application} {sizeT : Cbor.SizeT} {callbacks : Callback → Bool}
    {malloc : ℕ → Bool} {acts : List Act}
    (hrun : Transition.Run (World.step app) Transition.anyStep
      (World.create sizeT callbacks malloc) acts w) {it : ℕ} {i : PublishItem}
    (hi : w.publishItems.get it = some i) : w.InTable it := by
  have hinv : w.Inv False none none := inv_of_run False.elim hrun
  have hhomed : w.Homed 0 := homed_of_run hrun
  rcases hhomed it i hi with hsome | hmem
  · obtain ⟨σ, hσ⟩ := Option.isSome_iff_exists.mp hsome
    exact ⟨i, σ, hi, hσ, (hinv.item it i hi nofun).table σ hσ⟩
  · exact absurd hmem (Multiset.notMem_zero _)

/-- **In a run that releases no item while something refers to it**, every item that a waiting
result has accepted, and that of every handle the application holds, is registered in the table
of its session. -/
theorem registered_of_run {app : Application} {sizeT : Cbor.SizeT} {callbacks : Callback → Bool}
    {malloc : ℕ → Bool} {acts : List Act}
    (hrun : Transition.Run (World.step app) Transition.anyStep
      (World.create sizeT callbacks malloc) acts w) (hreleases : w.ReleasesUnreferenced) {it : ℕ}
    (hit : w.Refers it) : w.InTable it := by
  have hcreate : (World.create sizeT callbacks malloc).Referred := by
    rintro - k (⟨r, ret, hr, -⟩ | ⟨handle, hhandle⟩)
    · exact absurd hr nofun
    · exact absurd hhandle nofun
  obtain ⟨-, h⟩ := (conservesItems_referred (S := False)).conserves.of_run False.elim hcreate hrun
  obtain ⟨i, hi⟩ := Option.isSome_iff_exists.mp (h hreleases it hit)
  exact inTable_of_run hrun hi

/-! ### An item that is unsubscribed while its request waits -/

/-- A request subscribes to two keys, and the first of them is accepted. -/
def acceptedFirst : List Act := [.sessionCreate, hello, subscribeBoth 4 1 2, accept 0 0]

/-- The item of the first subscription waits with the result. -/
theorem registered_acceptedFirst : ∃ w,
    Transition.Run (World.step silent) Transition.anyStep
      (World.create .bits64 subscriptionCallbacks fun _ => true) acceptedFirst w ∧
    w.Refers 0 ∧ w.InTable 0 := by
  have hrun : (Transition.execute (World.step silent) Transition.anyStep
      (World.create .bits64 subscriptionCallbacks fun _ => true) acceptedFirst).any
      (fun w => w.referenced 0 = true ∧ w.events.all (fun e => !e.isRelease) = true) = true := by
    decide +kernel
  obtain ⟨w, hw, hfacts⟩ := (Option.any_eq_true _ _).mp hrun
  rw [decide_eq_true_eq] at hfacts
  obtain ⟨hreferenced, hnone⟩ := hfacts
  have hw := Transition.run_of_execute hw
  have hrefers := World.referenced_iff.mp hreferenced
  refine ⟨w, hw, hrefers, registered_of_run hw (fun it hmem => ?_) hrefers⟩
  exact absurd (List.all_eq_true.mp hnone _ hmem) nofun

/-- **A client can have an item released while its result waits**, by unsubscribing an id that
has been granted at once. -/
theorem not_registered_unsubscribed : ¬ ∀ (app : Application) (sizeT : Cbor.SizeT)
    (callbacks : Callback → Bool) (malloc : ℕ → Bool) (acts : List Act) (w : World),
    Transition.Run (World.step app) Transition.anyStep (World.create sizeT callbacks malloc)
      acts w → ∀ it, w.Refers it → w.InTable it := by
  have hrun : (Transition.execute (World.step silent) Transition.anyStep
      (World.create .bits64 subscriptionCallbacks fun _ => true)
      (acceptedFirst ++ [unsubscribe 1])).any
      (fun w => w.referenced 0 = true ∧ (w.publishItems.get 0).isNone = true) = true := by
    decide +kernel
  obtain ⟨w, hw, hfacts⟩ := (Option.any_eq_true _ _).mp hrun
  rw [decide_eq_true_eq] at hfacts
  obtain ⟨hreferenced, hnone⟩ := hfacts
  intro hall
  obtain ⟨i, -, hi, -⟩ := hall silent .bits64 subscriptionCallbacks _ _ w
    (Transition.run_of_execute hw) 0 (World.referenced_iff.mp hreferenced)
  rw [hi] at hnone
  exact absurd hnone nofun

end Wpcp

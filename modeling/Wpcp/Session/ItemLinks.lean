import Wpcp.Session.ReferenceRuns

/-!
# The links of publish items

The handle of a subscription and its publish items, of whatever session, are linked in both
directions, and what the functions do is to put an item in front and to take one out, from
whatever place. `Wpcp.World.LinksItems` says that the links of each subscription list the items
of its handle, and **it holds in every run** (`Wpcp.linksItems_of_run`).
-/

namespace Wpcp

open Linked (Links)

variable {S : Prop} {I : Multiset Token → World → Prop} {w w' : World}

/-- **The links list the items of the handles**, and no item is in two of them. -/
structure World.LinksItems (w : World) : Prop where
  list : ∀ k s, w.subscriptions.get k = some s → w.itemLinks.IsList k s.publishHandle.items
  nodup : ∀ k s, w.subscriptions.get k = some s → s.publishHandle.items.Nodup
  disjoint : ∀ k k' s s', w.subscriptions.get k = some s → w.subscriptions.get k' = some s' →
    k ≠ k' → s.publishHandle.items.Disjoint s'.publishHandle.items
  below : ∀ k s, w.subscriptions.get k = some s → ∀ it ∈ s.publishHandle.items,
    it < w.publishItems.next
  fresh : ∀ k, w.subscriptions.next ≤ k → w.itemLinks.first k = none

namespace World.LinksItems

/-- The world of `wpcp_create`. -/
theorem create (sizeT : Cbor.SizeT) (callbacks : Callback → Bool) (malloc : ℕ → Bool) :
    (World.create sizeT callbacks malloc).LinksItems :=
  ⟨nofun, nofun, nofun, nofun, fun _ _ => rfl⟩

/-- **The handles are the same**, but for new ones without items. -/
theorem mono (h : w.LinksItems) (hlinks : w'.itemLinks = w.itemLinks)
    (hitems : w.publishItems.next ≤ w'.publishItems.next)
    (hnext : w.subscriptions.next ≤ w'.subscriptions.next)
    (hhandle : ∀ k s', w'.subscriptions.get k = some s' →
      (w.subscriptions.next ≤ k ∧ s'.publishHandle.items = []) ∨
        ∃ s, w.subscriptions.get k = some s ∧ s'.publishHandle.items = s.publishHandle.items) :
    w'.LinksItems where
  list := by
    intro k s' hs'
    rw [hlinks]
    obtain ⟨hk, hnil⟩ | ⟨s, hs, heq⟩ := hhandle k s' hs'
    · rw [hnil]
      exact ⟨h.fresh k hk, trivial⟩
    · rw [heq]
      exact h.list k s hs
  nodup := by
    intro k s' hs'
    obtain ⟨-, hnil⟩ | ⟨s, hs, heq⟩ := hhandle k s' hs'
    · rw [hnil]
      exact List.nodup_nil
    · rw [heq]
      exact h.nodup k s hs
  disjoint := by
    intro k₁ k₂ s₁' s₂' hs₁' hs₂' hne
    obtain ⟨-, hnil⟩ | ⟨s₁, hs₁, heq₁⟩ := hhandle k₁ s₁' hs₁'
    · rw [hnil]
      exact List.disjoint_nil_left _
    obtain ⟨-, hnil⟩ | ⟨s₂, hs₂, heq₂⟩ := hhandle k₂ s₂' hs₂'
    · rw [hnil]
      exact List.disjoint_nil_right _
    · rw [heq₁, heq₂]
      exact h.disjoint k₁ k₂ s₁ s₂ hs₁ hs₂ hne
  below := by
    intro k s' hs' it hit
    obtain ⟨-, hnil⟩ | ⟨s, hs, heq⟩ := hhandle k s' hs'
    · rw [hnil] at hit
      exact absurd hit List.not_mem_nil
    · rw [heq] at hit
      exact (h.below k s hs it hit).trans_le hitems
  fresh := by
    intro k hk
    rw [hlinks]
    exact h.fresh k (hnext.trans hk)

/-- Subscriptions, links and publish items are the same. -/
theorem congr (h : w.LinksItems) (hlinks : w'.itemLinks = w.itemLinks)
    (hitems : w.publishItems.next ≤ w'.publishItems.next)
    (hsubscriptions : w'.subscriptions = w.subscriptions) : w'.LinksItems := by
  refine h.mono hlinks hitems (by rw [hsubscriptions]) fun k s' hs' => Or.inr ⟨s', ?_, rfl⟩
  rw [← hsubscriptions]
  exact hs'

/-- A subscription gets another list, and the links with it. -/
theorem relink (h : w.LinksItems) {k : ℕ} {s t : Subscription} {links : Links ℕ ℕ}
    (hs : w.subscriptions.get k = some s) (hlist : links.IsList k t.publishHandle.items)
    (hnodup : t.publishHandle.items.Nodup)
    (hother : ∀ k' s', k' ≠ k → w.subscriptions.get k' = some s' →
      links.IsList k' s'.publishHandle.items)
    (hfirst : ∀ k', k' ≠ k → links.first k' = w.itemLinks.first k')
    (hmem : ∀ it ∈ t.publishHandle.items, it ∈ s.publishHandle.items ∨ it < w.publishItems.next ∧
      ∀ k' s', w.subscriptions.get k' = some s' → it ∉ s'.publishHandle.items) :
    World.LinksItems { w with
      subscriptions := w.subscriptions.set k t
      itemLinks := links } := by
  have hget : ∀ {k' s'}, (w.subscriptions.set k t).get k' = some s' → (k' = k ∧ s' = t) ∨
      k' ≠ k ∧ w.subscriptions.get k' = some s' := by
    intro k' s' hs'
    rw [Heap.get_set hs] at hs'
    split at hs'
    · exact Or.inl ⟨‹_›, (Option.some.inj hs').symm⟩
    · exact Or.inr ⟨‹_›, hs'⟩
  have hapart : ∀ {k' s'}, k' ≠ k → w.subscriptions.get k' = some s' →
      t.publishHandle.items.Disjoint s'.publishHandle.items := by
    intro k' s' hne hs' it hit hit'
    obtain hold | ⟨-, hnew⟩ := hmem it hit
    · exact h.disjoint k k' s s' hs hs' hne.symm hold hit'
    · exact hnew k' s' hs' hit'
  constructor
  · intro k' s' hs'
    obtain ⟨rfl, rfl⟩ | ⟨hne, hs'⟩ := hget hs'
    · exact hlist
    · exact hother k' s' hne hs'
  · intro k' s' hs'
    obtain ⟨rfl, rfl⟩ | ⟨-, hs'⟩ := hget hs'
    · exact hnodup
    · exact h.nodup k' s' hs'
  · intro k₁ k₂ s₁ s₂ h₁ h₂ hne
    obtain ⟨rfl, rfl⟩ | ⟨hne₁, hs₁⟩ := hget h₁
    · obtain ⟨rfl, -⟩ | ⟨hne₂, hs₂⟩ := hget h₂
      · exact absurd rfl hne
      · exact hapart hne₂ hs₂
    · obtain ⟨rfl, rfl⟩ | ⟨-, hs₂⟩ := hget h₂
      · exact (hapart hne₁ hs₁).symm
      · exact h.disjoint k₁ k₂ s₁ s₂ hs₁ hs₂ hne
  · intro k' s' hs' it hit
    obtain ⟨rfl, rfl⟩ | ⟨-, hs'⟩ := hget hs'
    · obtain hold | ⟨hlt, -⟩ := hmem it hit
      · exact h.below k' s hs it hold
      · exact hlt
    · exact h.below k' s' hs' it hit
  · intro k' hk'
    have hlt : k < w.subscriptions.next := Heap.lt_next hs
    have hk' : w.subscriptions.next ≤ k' := hk'
    exact (hfirst k' (by omega)).trans (h.fresh k' hk')

/-- **An item is put in front** of the list of a subscription. -/
theorem link (h : w.LinksItems) {k it n : ℕ} {s : Subscription}
    (hs : w.subscriptions.get k = some s) (hlt : it < w.publishItems.next)
    (hnew : ∀ k' s', w.subscriptions.get k' = some s' → it ∉ s'.publishHandle.items) :
    World.LinksItems { w with
      subscriptions := w.subscriptions.set k { s with
        publishHandle := ⟨n, it :: s.publishHandle.items⟩ }
      itemLinks := w.itemLinks.insert k it } := by
  have hnodup := h.nodup k s hs
  refine h.relink hs ((h.list k s hs).insert (hnew k s hs) hnodup)
    (List.nodup_cons.mpr ⟨hnew k s hs, hnodup⟩) (fun k' s' hne hs' => ?_) (fun k' hne => ?_)
    fun it' hit' => ?_
  · exact (h.list k s hs).insert_of_ne (h.list k' s' hs') hne (hnew k' s' hs')
      (h.disjoint k' k s' s hs' hs hne)
  · exact Function.update_of_ne hne ..
  · obtain rfl | hmem := List.mem_cons.mp hit'
    · exact Or.inr ⟨hlt, hnew⟩
    · exact Or.inl hmem

/-- **An item is taken out** of the list of its subscription. -/
theorem unlink (h : w.LinksItems) {k it n : ℕ} {s : Subscription}
    (hs : w.subscriptions.get k = some s) (hit : it ∈ s.publishHandle.items) :
    World.LinksItems { w with
      subscriptions := w.subscriptions.set k { s with
        publishHandle := ⟨n, s.publishHandle.items.erase it⟩ }
      itemLinks := w.itemLinks.remove k it } := by
  have hnodup := h.nodup k s hs
  refine h.relink hs ((h.list k s hs).remove hit hnodup) (hnodup.erase it)
    (fun k' s' hne hs' => ?_) (fun k' hne => ?_) fun it' hit' => Or.inl (List.mem_of_mem_erase hit')
  · exact (h.list k s hs).remove_of_ne (h.list k' s' hs') hne hit (h.disjoint k' k s' s hs' hs hne)
  · show (w.itemLinks.prev it).elim (Function.update w.itemLinks.first k (w.itemLinks.next it))
      (fun _ => w.itemLinks.first) k' = _
    cases w.itemLinks.prev it with
    | none => exact Function.update_of_ne hne ..
    | some _ => rfl

/-- Another subscription in its place with the same handle. -/
theorem setSame (h : w.LinksItems) {k : ℕ} {s t : Subscription}
    (hs : w.subscriptions.get k = some s) (ht : t.publishHandle = s.publishHandle) :
    World.LinksItems { w with subscriptions := w.subscriptions.set k t } := by
  refine h.mono rfl (Nat.le_refl _) (Nat.le_refl _) fun k' s' hset => Or.inr ?_
  have hs' : (w.subscriptions.set k t).get k' = some s' := hset
  rw [Heap.get_set hs] at hs'
  split at hs'
  · rename_i heq
    obtain rfl := Option.some.inj hs'
    exact ⟨s, by rw [heq, hs], by rw [ht]⟩
  · exact ⟨s', hs', rfl⟩

theorem ignoresOutput : IgnoresOutput World.LinksItems where
  malloc _ _ h := h.congr rfl (Nat.le_refl _) rfl
  results _ _ h := h.congr rfl (Nat.le_refl _) rfl
  publishData _ _ h := h.congr rfl (Nat.le_refl _) rfl
  republishHandles _ _ h := h.congr rfl (Nat.le_refl _) rfl
  events _ _ _ h := h.congr rfl (Nat.le_refl _) rfl
  sessions _ _ _ _ _ _ _ h := h.congr rfl (Nat.le_refl _) rfl

end World.LinksItems

/-! ### The functions of the table -/

theorem leaves_retainSubscription_linksItems (k : ℕ) :
    Leaves World.LinksItems (retainSubscription k) := by
  refine .read_bind fun s => .bind (Q := fun _ => World.LinksItems) (Place.ensures_write trivial
    fun w _ h _ => h.2.setSame h.1 rfl) fun _ => .bind (Leaves.modifyWorld fun w h =>
    h.congr rfl (Nat.le_refl _) rfl) fun _ => .pure fun _ h => h

theorem leaves_requestSubscription_linksItems (type : ℕ) (key : List UInt8) :
    Leaves World.LinksItems (requestSubscription type key) := by
  have hsearch : ∀ range, Leaves World.LinksItems (searchSubscription type key range) := by
    refine fun range => .ite (.pure _) (.bind (IgnoresSubscriptions.searchStep type key range) ?_)
    rintro (range | found)
    · exact .pure _
    · exact .pure _
  refine .bind .getWorld fun w => .bind (.loop (I := fun _ => World.LinksItems) (fun range =>
    (hsearch range).imp (fun _ h => h) ?_ fun _ h => h) _ _) ?_
  · rintro (range | found) w h
    · exact h
    · exact h
  rintro ⟨_ | k, low⟩
  · refine Leaves.bind (.malloc World.LinksItems.ignoresOutput.malloc) fun _ => .ite (.bind
      (.malloc World.LinksItems.ignoresOutput.malloc) fun _ => .ite (.bind ?_ fun _ => .bind
      (.modifyWorld fun w h => h.congr rfl (Nat.le_refl _) rfl) fun _ => .pure _) (.pure _))
        (.pure _)
    -- a new subscription has no items
    refine Place.ensures_new fun w h => h.mono rfl (Nat.le_refl _) (Nat.le_succ _) fun k s hs => ?_
    have hs : (w.subscriptions.alloc _).get k = some s := hs
    rw [Heap.get_alloc] at hs
    split at hs
    · obtain rfl := Option.some.inj hs
      exact Or.inl ⟨by omega, rfl⟩
    · exact Or.inr ⟨s, hs, rfl⟩
  · exact Leaves.bind (leaves_retainSubscription_linksItems k) fun _ => .pure _

theorem leaves_releaseSubscription_linksItems (k : ℕ) :
    Leaves World.LinksItems (releaseSubscription k) := by
  refine .read_bind fun s => .bind (Q := fun _ => World.LinksItems) (Place.ensures_write trivial
    fun w _ h _ => h.2.setSame h.1 rfl) fun _ => Leaves.ite (.pure _) (.bind .getWorld fun _ =>
    .bind (.loop (I := fun _ => World.LinksItems) (fun range =>
      (IgnoresSubscriptions.searchStep _ _ range).imp (fun _ h => h) ?_ fun _ h => h) _ _)
      fun found => ?_)
  · rintro (range | found) w h
    · exact h
    · exact h
  · refine Leaves.bind (.modifyWorld fun w h => h.congr rfl (Nat.le_refl _) rfl) fun _ => .bind
      (.malloc World.LinksItems.ignoresOutput.malloc) fun _ => Place.ensures_free trivial ?_
    refine fun w _ h _ => h.mono rfl (Nat.le_refl _) (Nat.le_refl _) fun k' s' hs' => Or.inr ?_
    exact ⟨s', (Heap.get_of_get_free hs').2, rfl⟩

/-! ### Items -/

/-- **A new item is put in front** of the list of its subscription. -/
theorem leaves_sessionRequestPublishItem_linksItems (s k id : ℕ) :
    Leaves World.LinksItems (sessionRequestPublishItem s k id) := by
  refine .bind (.malloc World.LinksItems.ignoresOutput.malloc) fun _ => .ite ?_
    (.bind (leaves_releaseSubscription_linksItems k) fun _ => .pure _)
  refine Attempt.Ensures.bind (Q := fun it w => w.LinksItems ∧ it < w.publishItems.next ∧
    ∀ k' s', w.subscriptions.get k' = some s' → it ∉ s'.publishHandle.items)
    (Place.ensures_new ?_) fun it => .bind (Place.ensures_read trivial) fun sub =>
    .bind (Q := fun _ w => World.LinksItems { w with itemLinks := w.itemLinks.insert k it })
    (Place.ensures_write trivial ?_) fun _ => .bind (Q := fun _ => World.LinksItems)
    (ensures_modifyWorld fun _ h => h) fun _ => .bind (Leaves.read _ _) fun _ =>
    .bind (Leaves.write (fun _ _ h => h.congr rfl (Nat.le_refl _) rfl) _ _) fun _ =>
    .pure fun _ h => h
  · intro w h
    refine ⟨h.congr rfl (Nat.le_succ _) rfl, Nat.lt_succ_self _, fun k' s' hs' hmem => ?_⟩
    exact absurd (h.below k' s' hs' _ hmem) (Nat.lt_irrefl _)
  · rintro w - ⟨hs, h, hlt, hnew⟩ -
    exact h.link hs hlt hnew

/-- **An item is taken out** of the list of its subscription, and released. -/
theorem leaves_publishItemRelease_linksItems (it : ℕ) :
    Leaves World.LinksItems (publishItemRelease it) := by
  refine .bind (.read _ _) fun i => .read_bind fun s => .bind ensures_assert_any fun _ =>
    .bind (Q := fun _ w => World.LinksItems { w with
      itemLinks := w.itemLinks.remove i.subscription it }) (Place.ensures_write trivial ?_)
    fun _ => .bind (Q := fun _ => World.LinksItems) (ensures_modifyWorld fun _ h => h) fun _ =>
    .bind (Q := fun _ => World.LinksItems) (Place.ensures_free trivial fun _ _ h _ =>
      h.congr rfl (Nat.le_refl _) rfl) fun _ => .bind Leaves.getWorld fun _ => .bind
    (Leaves.modifyWorld fun _ h => h.congr rfl (Nat.le_refl _) rfl) fun _ =>
    leaves_releaseSubscription_linksItems _
  rintro w - ⟨hmem, hs, h⟩ -
  exact h.unlink hs hmem

theorem leaves_unsubscribeItem_linksItems (s id : ℕ) :
    Leaves World.LinksItems (unsubscribeItem s id) := by
  refine .bind (.read _ s) fun σ => ?_
  split
  · exact .bind (.read _ _) fun i => .bind (.assert _) fun _ =>
      .bind (leaves_retainSubscription_linksItems _) fun _ => .bind (.bind (.read _ _) fun _ =>
        .bind (.read _ _) fun _ => .bind (.write (fun _ _ h => h.congr rfl (Nat.le_refl _) rfl) _ _)
        fun _ => leaves_publishItemRelease_linksItems _) fun _ => .pure _
  · exact .pure _

theorem leaves_acceptSubscription_linksItems (r s k : ℕ) :
    Leaves World.LinksItems (acceptSubscription r s k) := by
  have hwrite : ∀ σ, Leaves World.LinksItems (sessions.write s σ) :=
    .write (fun _ _ h => h.congr rfl (Nat.le_refl _) rfl) s
  refine .bind (.bind (.read _ _) fun σ => .ite (.pure _) (.bind
    (.malloc World.LinksItems.ignoresOutput.malloc) fun _ =>
    .ite (.ite (.bind (hwrite _) fun _ => .pure _) (.fail _)) (.pure _))) fun id =>
    .bind (.ite (.pure _) (.bind
      (World.LinksItems.ignoresOutput.resultGetBlockedPublishItemTarget r) ?_)) fun _ => .pure _
  rintro (_ | target)
  · exact .pure _
  refine .bind (leaves_sessionRequestPublishItem_linksItems s k id) ?_
  rintro (_ | it)
  · exact .pure _
  · exact .bind (World.LinksItems.ignoresOutput.setBlockedPublishItem r id it) fun _ => .pure _

/-! ### Every run -/

theorem conservesItems_linksItems : ConservesItems S I fun _ => World.LinksItems where
  answers _ := World.LinksItems.ignoresOutput.toIgnoresAnswers
  newRepublish _ it :=
    (Leaves.new World.LinksItems.ignoresOutput.republishHandles it).moves fun _ _ h => h
  freeRepublish _ handle :=
    (Leaves.free World.LinksItems.ignoresOutput.republishHandles handle).moves fun _ _ h => h
  owed _ _ _ _ _ h := h.congr rfl (Nat.le_refl _) rfl
  retain _ k := (leaves_retainSubscription_linksItems k).moves fun _ _ h => h
  release _ k := (leaves_releaseSubscription_linksItems k).moves fun _ _ h => h
  request _ type key := (leaves_requestSubscription_linksItems type key).moves fun _ _ h => h
  accept _ r s k := (leaves_acceptSubscription_linksItems r s k).moves fun _ _ h => h
  unsubscribe _ s id := (leaves_unsubscribeItem_linksItems s id).moves fun _ _ h => h
  create _ := by
    refine Leaves.moves (.bind (.malloc World.LinksItems.ignoresOutput.malloc) fun _ => .ite
      (.bind (.new (fun _ _ h => h.congr rfl (Nat.le_refl _) rfl) _) fun _ => .bind
        (.modifyWorld fun w h => ?_) fun _ => .pure _) (.pure _)) fun _ _ h => h
    split
    · exact h
    · exact h.congr rfl (Nat.le_refl _) rfl
  close _ s σ := (World.LinksItems.ignoresOutput.closeSession (fun _ h =>
    h.congr rfl (Nat.le_refl _) rfl) σ).moves fun _ _ h => h
  deleteItem _ it := Leaves.moves (.bind (.read _ _) fun _ =>
    .bind (leaves_retainSubscription_linksItems _) fun _ =>
    .bind (leaves_publishItemRelease_linksItems it) fun _ => .pure _) fun _ _ h => h

/-- **The links list the items of the handles in every run.** -/
theorem linksItems_of_run {app : Application} {sizeT : Cbor.SizeT} {callbacks : Callback → Bool}
    {malloc : ℕ → Bool} {acts : List Act}
    (hrun : Transition.Run (World.step app) Transition.anyStep
      (World.create sizeT callbacks malloc) acts w) : w.LinksItems :=
  ((conservesItems_linksItems (S := False) (I := anyWorld)).conserves.of_run False.elim
    (World.LinksItems.create sizeT callbacks malloc) hrun).2

end Wpcp

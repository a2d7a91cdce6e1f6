import Wpcp.Session.ItemLinks
import Wpcp.Session.Missing
import Wpcp.Session.Referred

/-!
# The registry of publish items

A publish item is in two places: in the table of its session, under its id, and in the list of
its subscription, which has the items of all sessions. A publish follows the links of that list
as often as the handle is long. **In every run the two places have the same items, so that a
publish visits exactly the items of all sessions that are registered for its subscription**
(`Wpcp.registryConsistent_of_run`), as long as there are fewer than 2^32 references to each
subscription.
-/

namespace Wpcp

open Cbor (Item SizeT)

variable {w w' : World}

/-- The items that a publish on a subscription visits: the links are followed as often as the
handle is long. -/
def World.visited (w : World) (k : ℕ) (s : Subscription) : List ℕ :=
  Linked.walk w.itemLinks.next s.publishHandle.length (w.itemLinks.first k)

/-- The item is linked in the list of a subscription. -/
def World.LinkedTo (w : World) (it k : ℕ) : Prop :=
  ∃ s, w.subscriptions.get k = some s ∧ it ∈ w.visited k s

/-- The item is registered for a subscription: it is in the table of its session. -/
def World.RegisteredFor (w : World) (it k : ℕ) : Prop :=
  w.InTable it ∧ ∃ i, w.publishItems.get it = some i ∧ i.subscription = k

/-- **The registry is consistent.** -/
structure World.RegistryConsistent (w : World) : Prop where
  /-- An item is linked exactly when it is registered. -/
  linked : ∀ it k, w.LinkedTo it k ↔ w.RegisteredFor it k
  /-- In a table there are registered items only, each under its own id. -/
  table : ∀ s σ id it, w.sessions.get s = some σ → σ.publishItems[id]? = some (some it) →
    w.InTable it ∧ ∃ i, w.publishItems.get it = some i ∧ i.session = s ∧ i.subscriptionid = id
  /-- In a list each item is once. -/
  once : ∀ k s, w.subscriptions.get k = some s → (w.visited k s).Nodup
  /-- From the handle the links lead through these items and end, and lead back. -/
  links : ∀ k s, w.subscriptions.get k = some s → w.itemLinks.IsList k (w.visited k s)
  /-- The two links between neighbours are inverse to each other. -/
  inverse : ∀ k s, w.subscriptions.get k = some s → ∀ a ∈ w.visited k s, ∀ b ∈ w.visited k s,
    w.itemLinks.next a = some b ↔ w.itemLinks.prev b = some a
  /-- The handle is as long as the list. -/
  length : ∀ k s, w.subscriptions.get k = some s →
    s.publishHandle.length = (w.visited k s).length

/-- **A publish on a subscription visits the items registered for it**: each gets one entry, and
no other item gets one. -/
def World.PublishesTo (w w' : World) (k : ℕ) : Prop :=
  ∃ data, ∀ it, (w.RegisteredFor it k ∧ published w'.events it = published w.events it ++ [data]) ∨
    ¬w.RegisteredFor it k ∧ published w'.events it = published w.events it

section Run

variable {app : Application} {sizeT : SizeT} {callbacks : Callback → Bool}
  {malloc : ℕ → Bool} {acts : List Act}

/-- The items that are visited are those of the handle. -/
theorem visited_eq (hrun : Transition.Run (World.step app) Transition.anyStep
      (World.create sizeT callbacks malloc) acts w) {k : ℕ} {s : Subscription}
    (hs : w.subscriptions.get k = some s) : w.visited k s = s.publishHandle.items := by
  have hbalance : w.Balanced False (owedTokens w.owed) := balanced_of_run False.elim hrun
  rw [World.visited, (hbalance.handle k s hs).length]
  exact ((linksItems_of_run hrun).list k s hs).walk_eq

/-- **The registry is consistent in every run** without allocation failures in which there are
fewer than 2^32 references to each subscription, and a publish visits the registered items. -/
theorem registryConsistent_of_run (hmalloc : ∀ n, malloc n = true)
    (hrun : Transition.Run (World.step app) Transition.anyStep
      (World.create sizeT callbacks malloc) acts w) (hfew : w.referencesPeak < 2 ^ 32) :
    w.RegistryConsistent ∧ ∀ (k : ℕ) (answer : Item) (w' : World),
      (∃ s, w.subscriptions.get k = some s ∧ s.publishHandle.length ≠ 0) →
      w.step app (.call (.publish (.subscription k) answer)) = some w' → w.PublishesTo w' k := by
  have hbalance : w.Balanced True (owedTokens w.owed) := balanced_of_run (fun _ => hmalloc) hrun
  have hinv : w.Inv True none none := inv_of_run (fun _ => hmalloc) hrun
  have hlinks := linksItems_of_run hrun
  have hlinked : ∀ it k, w.LinkedTo it k ↔ w.RegisteredFor it k := by
    intro it k
    constructor
    · rintro ⟨s, hs, hmem⟩
      rw [visited_eq hrun hs, (hbalance.handle k s hs).mem] at hmem
      obtain ⟨i, hi, hk⟩ := hmem
      exact ⟨inTable_of_run hrun hi, i, hi, hk⟩
    · rintro ⟨-, i, hi, rfl⟩
      -- the subscription of an item is there
      rcases hs : w.subscriptions.get i.subscription with _ | s
      · exact absurd rfl ((hbalance.absent hfew _ hs).2 it i hi)
      · refine ⟨s, hs, ?_⟩
        rw [visited_eq hrun hs, (hbalance.handle _ s hs).mem]
        exact ⟨i, hi, rfl⟩
  refine ⟨⟨hlinked, ?_, ?_, ?_, ?_, ?_⟩, ?_⟩
  · intro s σ id it hσ hentry
    obtain ⟨i, hi, hsession, hid⟩ := (hinv.session s σ hσ).table id it hentry
    exact ⟨inTable_of_run hrun hi, i, hi, hsession, hid⟩
  · intro k s hs
    rw [visited_eq hrun hs]
    exact (hbalance.handle k s hs).nodup
  · intro k s hs
    rw [visited_eq hrun hs]
    exact hlinks.list k s hs
  · intro k s hs a ha b hb
    rw [visited_eq hrun hs] at ha hb
    exact (hlinks.list k s hs).next_iff_prev (hbalance.handle k s hs).nodup ha hb
  · intro k s hs
    rw [visited_eq hrun hs]
    exact (hbalance.handle k s hs).length
  · rintro k answer w' ⟨s, hs, hlength⟩ hstep
    have hhandle : w.handle (.subscription k) = some s.publishHandle := by
      rw [World.handle, hs]
      rfl
    obtain ⟨data, hevents⟩ := (of_step_publish hhandle
      (ensures_publishGeneral_published hlength (hinv.malloc trivial 0))
      (fun _ _ h => ⟨h.sessions, h.events⟩) hstep).events
    obtain ⟨hlen, hnodup, -⟩ := hbalance.handle k s hs
    rw [hlen, List.take_length] at hevents
    refine ⟨data, fun it => ?_⟩
    by_cases hit : w.RegisteredFor it k
    · obtain ⟨s', hs', hmem⟩ := (hlinked it k).mpr hit
      obtain rfl := Option.some.inj (hs.symm.trans hs')
      rw [visited_eq hrun hs] at hmem
      refine Or.inl ⟨hit, ?_⟩
      simp [published, hevents, List.count_eq_one_of_mem hnodup hmem]
    · have hnot : it ∉ s.publishHandle.items := by
        intro hmem
        rw [← visited_eq hrun hs] at hmem
        exact hit ((hlinked it k).mp ⟨s, hs, hmem⟩)
      refine Or.inr ⟨hit, ?_⟩
      simp [published, hevents, List.count_eq_zero_of_not_mem hnot]

end Run

/-- Two sessions subscribe to one key; both items are linked, and both are published to. -/
theorem registryConsistent_shared : ∃ w w',
    Transition.Run (World.step acceptAll) Transition.anyStep
      (World.create .bits64 subscriptionCallbacks fun _ => true)
      [.sessionCreate, hello, .sessionCreate, .message 1 1000 [0x83, 0x01, 0x00, 0xa0] 9,
        subscribe 4 1, .message 1 1000 [0x83, 4, 0x01, 0xa1, 0x62, 0x69, 0x64, 1] 9] w ∧
    (w.LinkedTo 0 0 ∧ w.LinkedTo 1 0) ∧ w.RegistryConsistent ∧ w.PublishesTo w' 0 := by
  have hrun : (Transition.execute (World.step acceptAll) Transition.anyStep
      (World.create .bits64 subscriptionCallbacks fun _ => true)
      [.sessionCreate, hello, .sessionCreate, .message 1 1000 [0x83, 0x01, 0x00, 0xa0] 9,
        subscribe 4 1, .message 1 1000 [0x83, 4, 0x01, 0xa1, 0x62, 0x69, 0x64, 1] 9]).any
      (fun w => decide (w.referencesPeak = 2) && (w.subscriptions.get 0).any (fun s =>
        decide (s.publishHandle.length ≠ 0 ∧ w.visited 0 s = [1, 0])) &&
        (w.step acceptAll (publish 0)).isSome) = true := by decide +kernel
  obtain ⟨w, hw, hfacts⟩ := (Option.any_eq_true _ _).mp hrun
  simp only [Bool.and_eq_true, decide_eq_true_eq] at hfacts
  obtain ⟨⟨hpeak, hsubscription⟩, hstep⟩ := hfacts
  obtain ⟨s, hs, hfacts⟩ := (Option.any_eq_true _ _).mp hsubscription
  obtain ⟨hlength, hvisited⟩ := of_decide_eq_true hfacts
  obtain ⟨w', hw'⟩ := Option.isSome_iff_exists.mp hstep
  have hw := Transition.run_of_execute hw
  obtain ⟨hconsistent, hpublishes⟩ :=
    registryConsistent_of_run (fun _ => rfl) hw (by rw [hpeak]; norm_num)
  exact ⟨w, w', hw, ⟨⟨s, hs, by simp [hvisited]⟩, ⟨s, hs, by simp [hvisited]⟩⟩, hconsistent,
    hpublishes 0 _ w' ⟨s, hs, hlength⟩ hw'⟩

end Wpcp

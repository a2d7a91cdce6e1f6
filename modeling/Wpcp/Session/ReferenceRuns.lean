import Wpcp.Session.References

/-!
# References are conserved

What a reference count is in a run without allocation failures: the number of publish items
on the subscription, in all sessions, and of the callbacks that carry it and have not been
answered (`Wpcp.referencesConserved_of_run`). **When every session is deleted and every
callback answered, there is no subscription left.**
-/

namespace Wpcp

open Cbor (SizeT)

/-- `wpcp_get_subscription_count` -/
def World.getSubscriptionCount (w : World) : ℕ := w.subscriptionTable.length

/-- The publish items on a subscription, of all sessions. -/
def World.itemsOn (w : World) (k : ℕ) : List ℕ :=
  (List.range w.publishItems.next).filter fun it =>
    (w.publishItems.get it).any fun i => i.subscription = k

/-- The answer to a subscribe callback for a subscription. -/
def Owed.subscribes (k : ℕ) : Owed → Bool
  | .subscribe _ subscription => subscription = k
  | _ => false

/-- The answer to an unsubscribe callback that carries a subscription. -/
def Owed.unsubscribes (k : ℕ) : Owed → Bool
  | .unsubscribe _ subscription => subscription = some k
  | _ => false

/-- The rest of a call of `wpcp_return_subscribe_alias` for a subscription. -/
def Owed.aliases (k : ℕ) : Owed → Bool
  | .alias subscription => subscription = k
  | _ => false

/-- The reference count of every subscription is the number of its references. -/
structure World.ReferencesConserved (w : World) : Prop where
  count : ∀ k s, w.subscriptions.get k = some s →
    s.referenceCount = (w.itemsOn k).length + w.owed.countP (Owed.subscribes k) +
      w.owed.countP (Owed.unsubscribes k) + w.owed.countP (Owed.aliases k)
  none_left : (∀ s, w.sessions.get s = none) → w.owed = [] → w.getSubscriptionCount = 0

/-- What is owed refers to a subscription in one of three ways. -/
theorem count_owedTokens (k : ℕ) (owed : List Owed) :
    (owedTokens owed).count (.reference k) = owed.countP (Owed.subscribes k) +
      owed.countP (Owed.unsubscribes k) + owed.countP (Owed.aliases k) := by
  induction owed with
  | nil => rfl
  | cons o owed ih =>
    have hone : o.tokens.count (.reference k) = (if o.subscribes k then 1 else 0) +
        (if o.unsubscribes k then 1 else 0) + if o.aliases k then 1 else 0 := by
      rcases o with r | ⟨r, k'⟩ | r | ⟨r, _ | k'⟩ | r | k'
      · simp [Owed.tokens, Owed.subscribes, Owed.unsubscribes, Owed.aliases]
      · simp [Owed.tokens, Owed.subscribes, Owed.unsubscribes, Owed.aliases,
          Multiset.count_singleton, eq_comm]
      · simp [Owed.tokens, Owed.subscribes, Owed.unsubscribes, Owed.aliases]
      · simp [Owed.tokens, reference, Owed.subscribes, Owed.unsubscribes, Owed.aliases]
      · simp [Owed.tokens, reference, Owed.subscribes, Owed.unsubscribes, Owed.aliases,
          Multiset.count_singleton, eq_comm]
      · simp [Owed.tokens, Owed.subscribes, Owed.unsubscribes, Owed.aliases]
      · simp [Owed.tokens, Owed.subscribes, Owed.unsubscribes, Owed.aliases,
          Multiset.count_singleton, eq_comm]
    rw [owedTokens_cons, Multiset.count_add, ih, hone, List.countP_cons, List.countP_cons,
      List.countP_cons]
    omega

/-- The handle of a subscription has all the items on it. -/
theorem World.Lists.length_itemsOn {w : World} {k : ℕ} {handle : PublishHandle}
    (h : w.Lists k handle) : (w.itemsOn k).length = handle.items.length := by
  refine List.Perm.length_eq ((List.perm_ext_iff_of_nodup
    (List.nodup_range.filter _) h.nodup).mpr fun it => ?_)
  rw [h.mem, List.mem_filter, List.mem_range, Option.any_eq_true]
  constructor
  · rintro ⟨-, i, hi, hk⟩
    exact ⟨i, hi, of_decide_eq_true hk⟩
  · rintro ⟨i, hi, hk⟩
    exact ⟨Heap.lt_next hi, i, hi, decide_eq_true hk⟩

/-- **References to subscriptions are conserved** in every run without allocation failures in
which there are fewer than 2^32 references to each of them. -/
theorem referencesConserved_of_run {app : Application} {sizeT : SizeT}
    {callbacks : Callback → Bool} {malloc : ℕ → Bool} {acts : List Act} {w : World}
    (hmalloc : ∀ n, malloc n = true)
    (hrun : Transition.Run (World.step app) Transition.anyStep
      (World.create sizeT callbacks malloc) acts w)
    (hfew : w.referencesPeak < 2 ^ 32) : w.ReferencesConserved := by
  have hhomed : w.Homed 0 := homed_of_run hrun
  have hbalance : w.Balanced True (owedTokens w.owed) := balanced_of_run (fun _ => hmalloc) hrun
  have hcount : ∀ k s, w.subscriptions.get k = some s → s.referenceCount =
      (w.itemsOn k).length + (owedTokens w.owed).count (.reference k) ∧ 0 < s.referenceCount := by
    intro k s hs
    obtain ⟨hpos, -, -, heq⟩ := hbalance.count hfew k s hs
    rw [(hbalance.handle k s hs).length_itemsOn]
    exact ⟨(heq trivial).trans (Nat.add_comm _ _), hpos⟩
  refine ⟨fun k s hs => ?_, fun hsessions howed => ?_⟩
  · rw [(hcount k s hs).1, count_owedTokens]
    omega
  · have hnone : ∀ k, w.subscriptions.get k = none := by
      intro k
      rw [Option.eq_none_iff_forall_ne_some]
      intro s hs
      obtain ⟨heq, hpos⟩ := hcount k s hs
      rw [howed, owedTokens_nil, Multiset.count_zero, Nat.add_zero] at heq
      -- an item on the subscription would have a session
      obtain ⟨it, hit⟩ := List.exists_mem_of_length_pos (heq ▸ hpos)
      rw [World.itemsOn, List.mem_filter, Option.any_eq_true] at hit
      obtain ⟨-, i, hi, -⟩ := hit
      obtain hsome | hmem := hhomed it i hi
      · rw [hsessions] at hsome
        exact absurd hsome nofun
      · exact Multiset.notMem_zero _ hmem
    obtain ⟨keys, hkeys⟩ := hbalance.sorted
    rw [World.getSubscriptionCount, List.length_eq_zero_iff, List.eq_nil_iff_forall_not_mem]
    intro k hk
    have hmem := List.mem_map_of_mem
      (f := fun k => (w.subscriptions.get k).map Subscription.sortKey) hk
    rw [hkeys.table, hnone] at hmem
    simp at hmem

/-- Two items of one subscription and one of another are accepted; one is unsubscribed, and
the session is deleted. -/
theorem referencesConserved_deleted : ∃ w,
    Transition.Run (World.step acceptAll) Transition.anyStep
      (World.create .bits64 subscriptionCallbacks fun _ => true)
      [.sessionCreate, hello, subscribe 4 1, subscribe 4 2, subscribe 4 1, unsubscribe 2,
        .sessionDelete 0] w ∧
    w.referencesPeak = 3 ∧ w.ReferencesConserved := by
  have hrun : (Transition.execute (World.step acceptAll) Transition.anyStep
      (World.create .bits64 subscriptionCallbacks fun _ => true)
      [.sessionCreate, hello, subscribe 4 1, subscribe 4 2, subscribe 4 1, unsubscribe 2,
        .sessionDelete 0]).any (fun w => w.referencesPeak = 3) = true := by decide +kernel
  obtain ⟨w, hw, hpeak⟩ := (Option.any_eq_true _ _).mp hrun
  rw [decide_eq_true_eq] at hpeak
  have hw := Transition.run_of_execute hw
  exact ⟨w, hw, hpeak, referencesConserved_of_run (fun _ => rfl) hw (by rw [hpeak]; norm_num)⟩

end Wpcp

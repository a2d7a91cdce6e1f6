import Wpcp.Session.ItemTables
import Wpcp.Session.Table

/-!
# References to subscriptions

Who refers to a subscription: its publish items, what the application has still to answer,
and the functions that are just running. `Wpcp.World.Balanced` says that a reference count
is at least their number, and that it is their number where every allocation succeeds; both
only as long as there have been fewer than 2^32 references to each subscription. **It holds
in every run** (`Wpcp.balanced_of_run`), because every function that takes a reference
out of the hand gives it to an item or releases it.
-/

namespace Wpcp

variable {S : Prop} {tokens tokens' : Multiset Token} {w w' : World}

/-! ### The balance -/

/-- What is said of a subscription to which there are `n` references beside those of its
items. -/
structure Subscription.Balanced (S : Prop) (n : ℕ) (s : Subscription) : Prop where
  pos : 0 < s.referenceCount
  lt : s.referenceCount < 2 ^ 32
  le : n + s.publishHandle.items.length ≤ s.referenceCount
  eq : S → s.referenceCount = n + s.publishHandle.items.length

/-- The handle of a subscription lists its items. -/
structure World.Lists (w : World) (k : ℕ) (handle : PublishHandle) : Prop where
  length : handle.length = handle.items.length
  nodup : handle.items.Nodup
  mem : ∀ it, it ∈ handle.items ↔ ∃ i, w.publishItems.get it = some i ∧ i.subscription = k

/-- **References and reference counts balance.** -/
structure World.Balanced (S : Prop) (tokens : Multiset Token) (w : World) : Prop where
  sorted : ∃ keys, w.Sorted keys
  below : ∀ it i, w.publishItems.get it = some i → i.subscription < w.subscriptions.next
  handle : ∀ k s, w.subscriptions.get k = some s → w.Lists k s.publishHandle
  count : w.referencesPeak < 2 ^ 32 → ∀ k s, w.subscriptions.get k = some s →
    s.Balanced S (tokens.count (.reference k))
  absent : w.referencesPeak < 2 ^ 32 → ∀ k, w.subscriptions.get k = none →
    tokens.count (.reference k) = 0 ∧ ∀ it i, w.publishItems.get it = some i → i.subscription ≠ k

namespace World.Balanced

/-- The balance is about subscriptions and publish items only. -/
theorem congr (h : w.Balanced S tokens) (htable : w'.subscriptionTable = w.subscriptionTable)
    (hsubscriptions : w'.subscriptions = w.subscriptions)
    (hitems : w'.publishItems.get = w.publishItems.get)
    (hpeak : w'.referencesPeak = w.referencesPeak)
    (htokens : ∀ k, tokens'.count (.reference k) = tokens.count (.reference k)) :
    w'.Balanced S tokens' where
  sorted := by
    obtain ⟨keys, hkeys⟩ := h.sorted
    exact ⟨keys, hkeys.congr htable fun k => by rw [hsubscriptions]⟩
  below := by
    rw [hitems, hsubscriptions]
    exact h.below
  handle := by
    intro k s hs
    rw [hsubscriptions] at hs
    obtain ⟨hlength, hnodup, hmem⟩ := h.handle k s hs
    refine ⟨hlength, hnodup, ?_⟩
    rw [hitems]
    exact hmem
  count := by
    intro hlt k s hs
    rw [hpeak] at hlt
    rw [hsubscriptions] at hs
    rw [htokens]
    exact h.count hlt k s hs
  absent := by
    intro hlt k hk
    rw [hpeak] at hlt
    rw [hsubscriptions] at hk
    rw [htokens, hitems]
    exact h.absent hlt k hk

/-- Another reference count and another number of references to one subscription. -/
theorem set (h : w.Balanced S tokens) {k : ℕ} {s t : Subscription}
    (hs : w.subscriptions.get k = some s) (htype : t.type = s.type) (hkey : t.key = s.key)
    (hhandle : t.publishHandle = s.publishHandle)
    (htable : w'.subscriptionTable = w.subscriptionTable)
    (hsubscriptions : w'.subscriptions = w.subscriptions.set k t)
    (hitems : w'.publishItems = w.publishItems) (hpeak : w.referencesPeak ≤ w'.referencesPeak)
    (htokens : ∀ k', k' ≠ k → tokens'.count (.reference k') = tokens.count (.reference k'))
    (hcount : w'.referencesPeak < 2 ^ 32 → s.Balanced S (tokens.count (.reference k)) →
      t.Balanced S (tokens'.count (.reference k))) : w'.Balanced S tokens' where
  sorted := by
    obtain ⟨keys, hkeys⟩ := h.sorted
    exact ⟨keys, (hkeys.set hs htype hkey).congr htable fun k' => by rw [hsubscriptions]⟩
  below := by
    rw [hitems, hsubscriptions]
    exact h.below
  handle := by
    intro k' t ht
    rw [hsubscriptions, Heap.get_set hs] at ht
    have hlists : ∀ {k' handle}, w.Lists k' handle → w'.Lists k' handle := by
      rintro k' handle ⟨hlength, hnodup, hmem⟩
      refine ⟨hlength, hnodup, ?_⟩
      rw [hitems]
      exact hmem
    split at ht
    · subst k'
      obtain rfl := Option.some.inj ht
      rw [hhandle]
      exact hlists (h.handle k s hs)
    · exact hlists (h.handle k' t ht)
  count := by
    intro hlt k' t ht
    rw [hsubscriptions, Heap.get_set hs] at ht
    split at ht
    · subst k'
      obtain rfl := Option.some.inj ht
      exact hcount hlt (h.count (by omega) k s hs)
    · rw [htokens k' ‹_›]
      exact h.count (by omega) k' t ht
  absent := by
    intro hlt k' hk'
    rw [hsubscriptions, Heap.get_set hs] at hk'
    split at hk'
    · exact absurd hk' nofun
    · rw [htokens k' ‹_›, hitems]
      exact h.absent (by omega) k' hk'

theorem retained (h : w.Balanced S tokens) {k : ℕ} {s : Subscription}
    (hs : w.subscriptions.get k = some s) :
    (w.retained k s).Balanced S (.reference k ::ₘ tokens) := by
  refine h.set hs (t := { s with referenceCount := (s.referenceCount + 1) % 2 ^ 32 })
    rfl rfl rfl rfl rfl rfl (Nat.le_max_left _ _) (fun k' hne => ?_) fun hlt hcount => ?_
  · rw [Multiset.count_cons_of_ne (by simpa using hne)]
  · have hpeak : s.referenceCount + 1 < 2 ^ 32 := lt_of_le_of_lt (Nat.le_max_right _ _) hlt
    obtain ⟨hpos, -, hle, heq⟩ := hcount
    rw [Multiset.count_cons_self]
    refine ⟨?_, Nat.mod_lt _ (by norm_num), ?_, fun hS => ?_⟩
    · dsimp only
      omega
    · dsimp only
      omega
    · have := heq hS
      dsimp only
      omega

theorem released {k : ℕ} (h : w.Balanced S (.reference k ::ₘ tokens)) {s : Subscription}
    (hs : w.subscriptions.get k = some s) (hmany : (s.referenceCount + (2 ^ 32 - 1)) % 2 ^ 32 ≠ 0) :
    (w.released k s).Balanced S tokens := by
  refine h.set hs (t := { s with referenceCount := (s.referenceCount + (2 ^ 32 - 1)) % 2 ^ 32 })
    rfl rfl rfl rfl rfl rfl (Nat.le_refl _) (fun k' hne => ?_) fun _ hcount => ?_
  · rw [Multiset.count_cons_of_ne (by simpa using hne)]
  · rw [Multiset.count_cons_self] at hcount
    obtain ⟨hpos, hlt, hle, heq⟩ := hcount
    refine ⟨?_, Nat.mod_lt _ (by norm_num), ?_, fun hS => ?_⟩
    · dsimp only
      omega
    · dsimp only
      omega
    · have := heq hS
      dsimp only
      omega

/-- The last reference is released: nothing refers to the subscription any more. -/
theorem unlisted {k : ℕ} (h : w.Balanced S (.reference k ::ₘ tokens)) {s : Subscription}
    (hs : w.subscriptions.get k = some s)
    (hlast : (s.referenceCount + (2 ^ 32 - 1)) % 2 ^ 32 = 0) {place : ℕ}
    (hplace : w.subscriptionTable[place]? = some k) :
    (w.unlisted k s place).Balanced S tokens := by
  obtain ⟨keys, hkeys⟩ := h.sorted
  have hreleased : (w.released k s).Sorted keys := hkeys.set hs rfl rfl
  have hget : ∀ k', (w.unlisted k s place).subscriptions.get k' =
      if k' = k then none else w.subscriptions.get k' := by
    intro k'
    show ((w.released k s).subscriptions.free k).get k' = _
    rw [Heap.get_free]
    split
    · rfl
    · show (w.subscriptions.set k _).get k' = _
      rw [Heap.get_set hs, if_neg ‹_›]
  refine ⟨⟨_, (hreleased.erase hplace).congr rfl fun _ => rfl⟩, h.below, fun k' t ht => ?_,
    fun hlt k' t ht => ?_, fun hlt k' ht => ?_⟩
  · rw [hget] at ht
    split at ht
    · exact absurd ht nofun
    · obtain ⟨hlength, hnodup, hmem⟩ := h.handle k' t ht
      exact ⟨hlength, hnodup, hmem⟩
  · rw [hget] at ht
    split at ht
    · exact absurd ht nofun
    · rw [← Multiset.count_cons_of_ne (s := tokens) (a := .reference k') (b := .reference k)
        (by simpa using ‹¬k' = k›)]
      exact h.count hlt k' t ht
  · rw [hget] at ht
    split at ht
    · subst k'
      obtain ⟨hpos, hlt', hle, -⟩ := h.count hlt k s hs
      rw [Multiset.count_cons_self] at hle
      refine ⟨by omega, fun it i hi heq => ?_⟩
      have hmem := ((h.handle k s hs).mem it).mpr ⟨i, hi, heq⟩
      have := List.length_pos_of_mem hmem
      omega
    · rw [← Multiset.count_cons_of_ne (s := tokens) (a := .reference k') (b := .reference k)
        (by simpa using ‹¬k' = k›)]
      exact h.absent hlt k' ht

/-- A new subscription is referred to by the one who has requested it. -/
theorem subscribed (h : w.Balanced S tokens) {type : ℕ} {key : List UInt8} {keys : List SortKey}
    (hkeys : w.Sorted keys) {place : ℕ}
    (hcut : BinarySearch.Cut (BinarySearch.probeList compareKeys (sortKey type key) keys)
      keys.length place)
    (hne : BinarySearch.probeList compareKeys (sortKey type key) keys place ≠ .eq) :
    (w.subscribed type key place).Balanced S (.reference w.subscriptions.next ::ₘ tokens) := by
  have hget : ∀ k, (w.subscribed type key place).subscriptions.get k =
      if k = w.subscriptions.next then some ⟨⟨0, []⟩, 1, type, key⟩
      else w.subscriptions.get k := fun k => Heap.get_alloc _ _ _
  have hfresh := w.subscriptions.fresh _ (Nat.le_refl _)
  refine ⟨?_, fun it i hi => Nat.lt_succ_of_lt (h.below it i hi), fun k s hs => ?_,
    fun hlt k s hs => ?_, fun hlt k hk => ?_⟩
  · exact ⟨_, (hkeys.insert (s := ⟨⟨0, []⟩, 1, type, key⟩) hcut hne).congr rfl fun _ => rfl⟩
  · rw [hget] at hs
    split at hs
    · subst k
      obtain rfl := Option.some.inj hs
      refine ⟨rfl, .nil, fun it => ⟨nofun, ?_⟩⟩
      rintro ⟨i, hi, heq⟩
      exact absurd (h.below it i hi) (by omega)
    · obtain ⟨hlength, hnodup, hmem⟩ := h.handle k s hs
      exact ⟨hlength, hnodup, hmem⟩
  · rw [hget] at hs
    split at hs
    · subst k
      obtain rfl := Option.some.inj hs
      rw [Multiset.count_cons_self, (h.absent hlt _ hfresh).1]
      exact ⟨Nat.one_pos, by norm_num, Nat.le_refl _, fun _ => rfl⟩
    · rw [Multiset.count_cons_of_ne (by simpa using ‹¬k = w.subscriptions.next›)]
      exact h.count hlt k s hs
  · rw [hget] at hk
    split at hk
    · exact absurd hk nofun
    · rw [Multiset.count_cons_of_ne (by simpa using ‹¬k = w.subscriptions.next›)]
      exact h.absent hlt k hk

/-- Another handle of a subscription, with the items that are then on it: an item for a
reference, or a reference for an item. -/
theorem setHandle (h : w.Balanced S tokens) {k : ℕ} {s : Subscription} {handle : PublishHandle}
    (hs : w.subscriptions.get k = some s)
    (htable : w'.subscriptionTable = w.subscriptionTable)
    (hsubscriptions : w'.subscriptions = w.subscriptions.set k { s with publishHandle := handle })
    (hpeak : w'.referencesPeak = w.referencesPeak) (hlists : w'.Lists k handle)
    (hitems : ∀ it i, i.subscription ≠ k →
      (w'.publishItems.get it = some i ↔ w.publishItems.get it = some i))
    (htokens : ∀ k', k' ≠ k → tokens'.count (.reference k') = tokens.count (.reference k'))
    (hsum : tokens'.count (.reference k) + handle.items.length =
      tokens.count (.reference k) + s.publishHandle.items.length) : w'.Balanced S tokens' where
  sorted := by
    obtain ⟨keys, hkeys⟩ := h.sorted
    exact ⟨keys, (hkeys.set (t := { s with publishHandle := handle }) hs rfl rfl).congr htable
      fun k' => by rw [hsubscriptions]⟩
  below := by
    intro it i hi
    rw [hsubscriptions]
    by_cases hk : i.subscription = k
    · rw [hk]
      exact Heap.lt_next (h := w.subscriptions) hs
    · exact h.below it i ((hitems it i hk).mp hi)
  handle := by
    intro k' t ht
    rw [hsubscriptions, Heap.get_set hs] at ht
    split at ht
    · subst k'
      obtain rfl := Option.some.inj ht
      exact hlists
    · rename_i hne
      obtain ⟨hlength, hnodup, hmem⟩ := h.handle k' t ht
      refine ⟨hlength, hnodup, fun it => (hmem it).trans ?_⟩
      constructor
      · rintro ⟨i, hi, rfl⟩
        exact ⟨i, (hitems it i hne).mpr hi, rfl⟩
      · rintro ⟨i, hi, rfl⟩
        exact ⟨i, (hitems it i hne).mp hi, rfl⟩
  count := by
    intro hlt k' t ht
    rw [hpeak] at hlt
    rw [hsubscriptions, Heap.get_set hs] at ht
    split at ht
    · subst k'
      obtain rfl := Option.some.inj ht
      obtain ⟨hpos, hlt', hle, heq⟩ := h.count hlt k s hs
      refine ⟨hpos, hlt', ?_, fun hS => ?_⟩
      · dsimp only
        omega
      · have := heq hS
        dsimp only
        omega
    · rw [htokens k' ‹_›]
      exact h.count hlt k' t ht
  absent := by
    intro hlt k' hk'
    rw [hpeak] at hlt
    rw [hsubscriptions, Heap.get_set hs] at hk'
    split at hk'
    · exact absurd hk' nofun
    · rename_i hne
      obtain ⟨hcount, hno⟩ := h.absent hlt k' hk'
      rw [htokens k' hne]
      refine ⟨hcount, fun it i hi heq => hno it i ((hitems it i ?_).mp hi) heq⟩
      rw [heq]
      exact hne

/-- A new item is put on a subscription: a reference becomes its own. -/
theorem withItem {k it : ℕ} {i : PublishItem} {s : Subscription}
    (h : World.Balanced S (.reference k ::ₘ tokens)
      { w with publishItems := w.publishItems.free it })
    (hi : w.publishItems.get it = some i) (hk : i.subscription = k)
    (hs : w.subscriptions.get k = some s) :
    World.Balanced S tokens { w with
      subscriptions := w.subscriptions.set k { s with
        publishHandle := ⟨s.publishHandle.length + 1, it :: s.publishHandle.items⟩ } } := by
  obtain ⟨hlength, hnodup, hmem⟩ := h.handle k s hs
  have hfree : ∀ it' i', (w.publishItems.free it).get it' = some i' ↔
      it' ≠ it ∧ w.publishItems.get it' = some i' := by
    intro it' i'
    rw [Heap.get_free]
    split
    · simp [*]
    · simp [*]
  refine h.setHandle hs rfl rfl rfl ⟨?_, List.nodup_cons.mpr ⟨fun hit => ?_, hnodup⟩,
    fun it' => ?_⟩ (fun it' i' hne => ?_) (fun k' hne => ?_) ?_
  · rw [hlength, List.length_cons]
  · obtain ⟨i', hi', -⟩ := (hmem it).mp hit
    exact ((hfree it i').mp hi').1 rfl
  · rw [List.mem_cons, hmem]
    constructor
    · rintro (rfl | ⟨i', hi', hk'⟩)
      · exact ⟨i, hi, hk⟩
      · exact ⟨i', ((hfree it' i').mp hi').2, hk'⟩
    · rintro ⟨i', hi', hk'⟩
      by_cases heq : it' = it
      · exact Or.inl heq
      · exact Or.inr ⟨i', (hfree it' i').mpr ⟨heq, hi'⟩, hk'⟩
  · show w.publishItems.get it' = some i' ↔ _
    rw [hfree]
    refine ⟨fun hi' => ⟨?_, hi'⟩, fun hi' => hi'.2⟩
    rintro rfl
    obtain rfl := Option.some.inj (hi.symm.trans hi')
    exact hne hk
  · rw [Multiset.count_cons_of_ne (by simpa using hne)]
  · rw [Multiset.count_cons_self, List.length_cons]
    omega

/-- An item is taken from a subscription: its reference is given away. -/
theorem withoutItem (h : w.Balanced S tokens) {k it : ℕ} {i : PublishItem} {s : Subscription}
    (hi : w.publishItems.get it = some i) (hk : i.subscription = k)
    (hs : w.subscriptions.get k = some s) :
    World.Balanced S (.reference k ::ₘ tokens) { w with
      subscriptions := w.subscriptions.set k { s with
        publishHandle := ⟨s.publishHandle.length - 1, s.publishHandle.items.erase it⟩ }
      publishItems := w.publishItems.free it } := by
  obtain ⟨hlength, hnodup, hmem⟩ := h.handle k s hs
  have hit : it ∈ s.publishHandle.items := (hmem it).mpr ⟨i, hi, hk⟩
  have hpos := List.length_pos_of_mem hit
  have hfree : ∀ it' i', (w.publishItems.free it).get it' = some i' ↔
      it' ≠ it ∧ w.publishItems.get it' = some i' := by
    intro it' i'
    rw [Heap.get_free]
    split
    · simp [*]
    · simp [*]
  refine h.setHandle hs rfl rfl rfl ⟨?_, hnodup.erase it, fun it' => ?_⟩ (fun it' i' hne => ?_)
    (fun k' hne => ?_) ?_
  · rw [List.length_erase_of_mem hit, hlength]
  · rw [hnodup.mem_erase_iff, hmem]
    constructor
    · rintro ⟨hne, i', hi', hk'⟩
      exact ⟨i', (hfree it' i').mpr ⟨hne, hi'⟩, hk'⟩
    · rintro ⟨i', hi', hk'⟩
      obtain ⟨hne, hi'⟩ := (hfree it' i').mp hi'
      exact ⟨hne, i', hi', hk'⟩
  · show (w.publishItems.free it).get it' = some i' ↔ _
    rw [hfree]
    refine ⟨fun hi' => hi'.2, fun hi' => ⟨?_, hi'⟩⟩
    rintro rfl
    obtain rfl := Option.some.inj (hi.symm.trans hi')
    exact hne hk
  · rw [Multiset.count_cons_of_ne (by simpa using hne)]
  · rw [Multiset.count_cons_self, List.length_erase_of_mem hit]
    omega

/-- A reference that is lost is counted for ever. -/
theorem leak {k : ℕ} (h : w.Balanced S (.reference k ::ₘ tokens)) (hS : ¬S) :
    w.Balanced S tokens where
  sorted := h.sorted
  below := h.below
  handle := h.handle
  count := by
    intro hlt k' s hs
    obtain ⟨hpos, hlt', hle, -⟩ := h.count hlt k' s hs
    have hcount := Multiset.count_le_of_le (.reference k')
      (Multiset.le_cons_self tokens (.reference k))
    exact ⟨hpos, hlt', by omega, fun h => absurd h hS⟩
  absent := by
    intro hlt k' hk'
    obtain ⟨hzero, hno⟩ := h.absent hlt k' hk'
    have hcount := Multiset.count_le_of_le (.reference k')
      (Multiset.le_cons_self tokens (.reference k))
    exact ⟨by omega, hno⟩

/-- The world of `wpcp_create`. -/
theorem create (sizeT : Cbor.SizeT) (callbacks : Callback → Bool) (malloc : ℕ → Bool) :
    (World.create sizeT callbacks malloc).Balanced S 0 :=
  ⟨⟨[], rfl, .nil, nofun⟩, nofun, nofun, fun _ => nofun, fun _ _ _ => ⟨rfl, nofun⟩⟩

end World.Balanced

/-! ### The functions of the table -/

/-- The balance of what is in the hand and what the application owes. -/
def balance (S : Prop) (hand : Multiset Token) (w : World) : Prop :=
  w.Balanced S (hand + owedTokens w.owed)

section Table

variable {hand : Multiset Token}

theorem ensures_retainSubscription_balance (k : ℕ) :
    Attempt.Ensures (balance S hand) (retainSubscription k)
      (fun ret => balance S (.reference ret ::ₘ hand)) Stop.Any := by
  refine .of_run fun w hw => ?_
  cases hs : w.subscriptions.get k with
  | none => exact ⟨_, _, Attempt.run_bind_error (Place.run_read_none hs), nofun, fun _ _ => trivial⟩
  | some s =>
    refine ⟨_, _, run_retainSubscription hs, fun ret hret => ?_, fun _ _ => trivial⟩
    obtain rfl := Except.ok.inj hret
    rw [balance, Multiset.cons_add]
    exact World.Balanced.retained hw hs

theorem ensures_releaseSubscription_balance (k : ℕ) :
    Attempt.Ensures (balance S (.reference k ::ₘ hand)) (releaseSubscription k)
      (fun _ => balance S hand) Stop.Any := by
  refine .of_run fun w hw => ?_
  rw [balance, Multiset.cons_add] at hw
  cases hs : w.subscriptions.get k with
  | none => exact ⟨_, _, Attempt.run_bind_error (Place.run_read_none hs), nofun, fun _ _ => trivial⟩
  | some s =>
    obtain ⟨keys, hkeys⟩ := hw.sorted
    obtain ⟨hmany, hrun⟩ | ⟨hlast, place, hplace, -, hrun⟩ := hkeys.run_releaseSubscription hs
    · exact ⟨_, _, hrun, fun _ _ => hw.released hs hmany, fun _ _ => trivial⟩
    · exact ⟨_, _, hrun, fun _ _ => hw.unlisted hs hlast hplace, fun _ _ => trivial⟩

theorem ensures_requestSubscription_balance (type : ℕ) (key : List UInt8) :
    Attempt.Ensures (balance S hand) (requestSubscription type key)
      (fun k => balance S (reference k + hand)) Stop.Any := by
  refine .of_run fun w hw => ?_
  obtain ⟨keys, hkeys⟩ := World.Balanced.sorted hw
  obtain ⟨k, s, hs, -, hrun⟩ | ⟨place, hcut, hne, ⟨hrun, -⟩ | ⟨n, hrun, -⟩⟩ :=
    hkeys.run_requestSubscription type key
  · refine ⟨_, _, hrun, fun ret hret => ?_, fun _ _ => trivial⟩
    obtain rfl := Except.ok.inj hret
    show World.Balanced S (.reference k ::ₘ 0 + hand + owedTokens w.owed) _
    rw [add_assoc, Multiset.cons_add, zero_add]
    exact World.Balanced.retained hw hs
  · refine ⟨_, _, hrun, fun ret hret => ?_, fun _ _ => trivial⟩
    obtain rfl := Except.ok.inj hret
    show World.Balanced S (.reference w.subscriptions.next ::ₘ 0 + hand + owedTokens w.owed) _
    rw [add_assoc, Multiset.cons_add, zero_add]
    exact World.Balanced.subscribed hw hkeys hcut hne
  · refine ⟨_, _, hrun, fun ret hret => ?_, fun _ _ => trivial⟩
    obtain rfl := Except.ok.inj hret
    show World.Balanced S (0 + hand + owedTokens w.owed) _
    rw [zero_add]
    exact World.Balanced.congr hw rfl rfl rfl rfl fun _ => rfl

/-- An item is released with its own reference. -/
theorem ensures_publishItemRelease_balance (it : ℕ) :
    Attempt.Ensures (balance S hand) (publishItemRelease it) (fun _ => balance S hand)
      Stop.Any := by
  refine .bind (Place.ensures_read trivial) fun i => .bind (Place.ensures_read trivial) fun s =>
    .bind ensures_assert_any fun _ => .bind (Q := fun _ w => balance S
      (.reference i.subscription ::ₘ hand) { w with publishItems := w.publishItems.free it })
    (Place.ensures_write trivial ?_) fun _ => .bind (Leaves.modifyWorld fun w h =>
      World.Balanced.congr h rfl rfl rfl rfl fun _ => rfl) fun _ => .bind (Q := fun _ => balance S
      (.reference i.subscription ::ₘ hand)) (Place.ensures_free trivial fun w _ h _ => h)
    fun _ => .bind Leaves.getWorld fun w => .bind (Leaves.modifyWorld fun w h => ?_) fun _ =>
    ensures_releaseSubscription_balance i.subscription
  · rintro w - ⟨-, hs, hi, h⟩ -
    rw [balance, Multiset.cons_add]
    exact World.Balanced.withoutItem h hi rfl hs
  · rw [balance, owedTokens_append, owedTokens_nil, add_zero]
    exact World.Balanced.congr h rfl rfl rfl rfl fun _ => rfl

theorem ensures_deletePublishItem_balance (it : ℕ) :
    Attempt.Ensures (balance S hand) (deletePublishItem it)
      (fun k => balance S (.reference k ::ₘ hand)) Stop.Any :=
  .bind (Leaves.read _ _) fun i => .bind (ensures_retainSubscription_balance i.subscription)
    fun _ => .bind (ensures_publishItemRelease_balance it) fun _ => .pure fun _ h => h

/-- Another table of a session is no matter of references. -/
theorem leaves_write_sessions_balance (s : ℕ) (σ : Session) :
    Leaves (balance S hand) (sessions.write s σ) :=
  Leaves.write (P := balance S hand) (p := Wpcp.sessions)
    (fun _ _ h => World.Balanced.congr h rfl rfl rfl rfl fun _ => rfl) s σ

theorem ensures_unsubscribeItem_balance (s id : ℕ) :
    Attempt.Ensures (balance S hand) (unsubscribeItem s id)
      (fun k => balance S (reference k + hand)) Stop.Any := by
  refine .bind (Leaves.read _ s) fun σ => ?_
  split
  · rename_i it _
    refine .bind (Leaves.read _ it) fun i => .bind (Leaves.assert _) fun _ =>
      .bind (ensures_retainSubscription_balance i.subscription) fun k =>
      .bind (Q := fun _ => balance S (.reference k ::ₘ hand)) ?_ fun _ => .pure fun w h => ?_
    · exact .bind (Leaves.read _ s) fun _ => .bind (Leaves.read _ it) fun _ =>
        .bind (leaves_write_sessions_balance s _) fun _ => ensures_publishItemRelease_balance it
    · exact h
  · exact .pure fun w h => by rwa [show reference none = 0 from rfl, zero_add]

/-- An item takes over the reference, which is released where there is no memory for it. -/
theorem ensures_sessionRequestPublishItem_balance (s k id : ℕ) :
    Attempt.Ensures (balance S (.reference k ::ₘ hand)) (sessionRequestPublishItem s k id)
      (fun _ => balance S hand) Stop.Any := by
  refine .bind (Leaves.malloc fun w malloc h =>
    World.Balanced.congr h rfl rfl rfl rfl fun _ => rfl) fun ok => .ite (fun _ => ?_) fun _ =>
    .bind (ensures_releaseSubscription_balance k) fun _ => .pure fun _ h => h
  refine .bind (Q := fun it w => ∃ i, w.publishItems.get it = some i ∧ i.subscription = k ∧
      balance S (.reference k ::ₘ hand) { w with publishItems := w.publishItems.free it })
    (Place.ensures_new fun w h => ?_) fun it => .bind (Place.ensures_read trivial) fun sub =>
    .bind (Q := fun _ => balance S hand) (Place.ensures_write trivial ?_) fun _ =>
    .bind (Leaves.modifyWorld fun w h => World.Balanced.congr h rfl rfl rfl rfl fun _ => rfl)
    fun _ => .bind (Leaves.read _ s) fun _ => .bind (leaves_write_sessions_balance s _) fun _ =>
    .pure fun _ h => h
  · refine ⟨_, (Heap.get_alloc _ _ _).trans (if_pos rfl), rfl,
      World.Balanced.congr h rfl rfl ?_ rfl fun _ => rfl⟩
    funext it
    show ((w.publishItems.alloc _).free _).get it = _
    rw [Heap.get_free, Heap.get_alloc]
    split
    · subst it
      exact (w.publishItems.fresh _ (Nat.le_refl _)).symm
    · rfl
  · rintro w - ⟨hs, i, hi, hk, h⟩ -
    rw [balance, Multiset.cons_add] at h
    exact h.withItem hi hk hs

/-! ### Every run -/

theorem count_stakes (k : ℕ) (tokens : Multiset Token) :
    (stakes tokens).count (.reference k) = tokens.count (.reference k) :=
  Multiset.count_filter_of_pos rfl

/-- The balance is no matter of results and of what sessions send. -/
theorem ignoresOutput_balance : IgnoresOutput (balance S hand) where
  malloc _ _ h := World.Balanced.congr h rfl rfl rfl rfl fun _ => rfl
  results _ _ h := World.Balanced.congr h rfl rfl rfl rfl fun _ => rfl
  publishData _ _ h := World.Balanced.congr h rfl rfl rfl rfl fun _ => rfl
  republishHandles _ _ h := World.Balanced.congr h rfl rfl rfl rfl fun _ => rfl
  events _ _ _ h := World.Balanced.congr h rfl rfl rfl rfl fun _ => rfl
  sessions _ _ _ _ _ _ _ h := World.Balanced.congr h rfl rfl rfl rfl fun _ => rfl

/-- The same references in another hand. -/
theorem balance.of_count {hand' : Multiset Token} {w : World} (h : balance S hand w)
    (heq : ∀ k, hand'.count (.reference k) = hand.count (.reference k)) : balance S hand' w :=
  World.Balanced.congr h rfl rfl rfl rfl fun k => by
    rw [Multiset.count_add, Multiset.count_add, heq]

/-- A list for the items that are accepted is there or can be allocated. -/
theorem ensures_resultGetBlockedPublishItemTarget_some (r : ℕ) :
    Attempt.Ensures (fun w => S → ∀ n, w.malloc n = true) (resultGetBlockedPublishItemTarget r)
      (fun o w => (o = none → ¬S) ∧ (S → ∀ n, w.malloc n = true)) Stop.Any := by
  refine .bind (Leaves.read _ _) fun ret => .bind (Q := fun blocked (w : World) =>
    (blocked = none → ¬S) ∧ (S → ∀ n, w.malloc n = true)) ?_ fun blocked =>
    .bind (Leaves.write (fun _ _ h => h) r _) fun _ => ?_
  · unfold getBlockedItems
    split
    · exact .pure fun w h => ⟨nofun, h⟩
    · refine .bind (.of_run (Q := fun ok w => (S → ok = true) ∧ (S → ∀ n, w.malloc n = true))
        fun w hw => ⟨_, _, run_malloc w, fun ok hok => ?_, fun _ _ => trivial⟩) fun ok =>
        .bind Leaves.getWorld fun _ => .pure fun w h => ⟨fun hnone hS => ?_, h.2⟩
      · obtain rfl := Except.ok.inj hok
        exact ⟨fun hS => hw hS 0, fun hS n => hw hS (n + 1)⟩
      · rw [h.1 hS] at hnone
        exact absurd hnone nofun
  · cases blocked with
    | none => exact .pure fun w h => ⟨fun _ => h.1 rfl, h.2⟩
    | some blocked => exact .ite (fun _ => .pure fun w h => ⟨nofun, h.2⟩) fun _ => .fail trivial

/-- **The item that is accepted takes over the reference**; it is lost only where an
allocation fails. -/
theorem ensures_acceptSubscription_balance (r s k : ℕ) :
    Attempt.Ensures (fun w => (S → ∀ n, w.malloc n = true) ∧ w.IdsFromOne ∧
        balance S (.reference k ::ₘ hand) w)
      (acceptSubscription r s k) (fun _ => balance S hand) Stop.Any := by
  have hnext : Leaves (balance S (.reference k ::ₘ hand)) (sessionGetNextFreePublishId s) :=
    .bind (.read _ _) fun σ => .ite (.pure _) (.bind (.malloc ignoresOutput_balance.malloc) fun _ =>
      .ite (.ite (.bind (leaves_write_sessions_balance s _) fun _ => .pure _) (.fail _)) (.pure _))
  have hleak : ∀ w, ¬S → balance S (.reference k ::ₘ hand) w → balance S hand w := by
    intro w hS h
    rw [balance, Multiset.cons_add] at h
    exact h.leak hS
  refine .bind (Attempt.Ensures.imp (hnext.and (ensures_sessionGetNextFreePublishId_ne (S := S) s))
    (fun _ h => ⟨h.2.2, h.2.1, h.1⟩) (fun _ _ h => h) fun _ _ => trivial) fun id =>
    .bind (Q := fun _ => balance S hand) (.ite (fun hid => .pure fun w h => ?_) fun _ =>
      .bind (Attempt.Ensures.imp ((ignoresOutput_balance.resultGetBlockedPublishItemTarget r).and
        (ensures_resultGetBlockedPublishItemTarget_some (S := S) r))
        (fun _ h => ⟨h.1, h.2.2.1⟩) (fun _ _ h => h) fun _ _ => trivial) ?_)
      fun _ => .pure fun _ h => h
  · exact hleak w (fun hS => h.2.2.2 hS hid) h.1
  · rintro (_ | target)
    · exact .pure fun w h => hleak w (h.2.1 rfl) h.1
    refine .bind ((ensures_sessionRequestPublishItem_balance s k id).imp (fun _ h => h.1)
      (fun _ _ h => h) fun _ h => h) ?_
    rintro (_ | it)
    · exact .pure fun _ h => h
    · exact .bind (ignoresOutput_balance.setBlockedPublishItem r id it) fun _ =>
        .pure fun _ h => h

end Table

/-- **References balance in every run.** -/
theorem conservesItems_balance : ConservesItems S (fun _ => World.IdsFromOne) (balance S) where
  answers _ := ignoresOutput_balance.toIgnoresAnswers
  newRepublish _ it := (Leaves.new ignoresOutput_balance.republishHandles it).moves fun _ _ h => h
  freeRepublish _ handle := (Leaves.free ignoresOutput_balance.republishHandles handle).moves
    fun _ _ h => h
  owed hand hand' w owed heq h := World.Balanced.congr h rfl rfl rfl rfl fun k => by
    rw [← count_stakes, heq, count_stakes]
  retain _ k := (ensures_retainSubscription_balance k).imp (fun _ h => h.2.2.1) (fun _ _ h => h)
    fun _ h => h
  release _ k := (ensures_releaseSubscription_balance k).imp (fun _ h => h.2.2.1) (fun _ _ h => h)
    fun _ h => h
  request _ type key := (ensures_requestSubscription_balance type key).imp (fun _ h => h.2.2.1)
    (fun _ _ h => h) fun _ h => h
  accept _ r s k := (ensures_acceptSubscription_balance r s k).imp
    (fun _ h => ⟨h.1.malloc, h.2.1, h.2.2.1⟩) (fun _ _ h => h) fun _ h => h
  unsubscribe _ s id := (ensures_unsubscribeItem_balance s id).imp (fun _ h => h.2.2.1)
    (fun _ _ h => h) fun _ h => h
  create hand := by
    refine .bind (Q := fun _ => balance S hand) ((Leaves.malloc ignoresOutput_balance.malloc).imp
      (fun _ h => h.2.2.1) (fun _ _ h => h) fun _ h => h) fun _ => .ite (fun _ => ?_) fun _ =>
      .pure fun _ h => h
    refine .bind (Q := fun _ => balance S hand) (Place.ensures_new fun w h =>
      World.Balanced.congr h rfl rfl rfl rfl fun _ => rfl) fun _ =>
      .bind (Leaves.modifyWorld fun w h => ?_) fun _ => .pure fun _ h => h
    split
    · exact h
    · exact World.Balanced.congr h rfl rfl rfl rfl fun _ => rfl
  close hand s σ := (ignoresOutput_balance.closeSession (fun w h =>
    World.Balanced.congr h rfl rfl rfl rfl fun _ => rfl) σ).moves fun r w h => by
      cases r with
      | none => exact h
      | some r =>
        refine h.of_count fun k => ?_
        have horphans : (orphans σ.items).count (.reference k) = 0 := by
          refine Multiset.count_eq_zero.mpr fun hmem => ?_
          obtain ⟨it, -, heq⟩ := List.mem_map.mp hmem
          exact absurd heq nofun
        rw [Option.elim_some, Multiset.count_add, Multiset.count_add, horphans,
          Multiset.count_replicate, if_neg nofun, zero_add, zero_add]
  deleteItem hand it := (ensures_deletePublishItem_balance it).imp
    (fun _ h => h.2.2.1.of_count fun k =>
      (Multiset.count_cons_of_ne (by simp) hand).symm) (fun _ _ h => h) fun _ h => h

/-- **What the application owes balances with the reference counts** at the end of a run. -/
theorem balanced_of_run {app : Application} {sizeT : Cbor.SizeT} {callbacks : Callback → Bool}
    {malloc : ℕ → Bool} {acts : List Act} {w : World} (hmalloc : S → ∀ n, malloc n = true)
    (hrun : Transition.Run (World.step app) Transition.anyStep
      (World.create sizeT callbacks malloc) acts w) : w.Balanced S (owedTokens w.owed) := by
  have hconserves := (conservesItems_idsFromOne (I := anyWorld)).conserves.and
    (conservesItems_balance (S := S)).conserves
  obtain ⟨-, -, h⟩ := hconserves.of_run hmalloc
    ⟨nofun, World.Balanced.create sizeT callbacks malloc⟩ hrun
  rwa [balance, zero_add] at h

end Wpcp

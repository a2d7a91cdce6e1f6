import Wpcp.Lib.Run
import Wpcp.Session.Table

/-!
# Runs on the table of subscriptions

The three functions of the table in any order, where a reference is only retained or released
by someone who holds one. **The table stays a sorted set** of the keys that are referred to
(`Wpcp.sortedSet_of_run`), whichever allocations fail; no call gets stuck, and the loop of
`wpcp_release_subscription` ends at the entry it looks for.
-/

namespace Wpcp

open Cbor (SizeT)

/-- A call of a function of the table. -/
inductive TableCall where
  | request (type : ℕ) (key : List UInt8)
  | retain (subscription : ℕ)
  | release (subscription : ℕ)

/-- What a call that has returned did to the references. -/
inductive TableEvent where
  | requested (subscription : ℕ)
  | retained (subscription : ℕ)
  | released (subscription : ℕ)
  deriving DecidableEq

/-- A world, and what has been done to the references. -/
structure Holders where
  world : World
  log : List TableEvent

/-- How many references to a subscription there are: requests and retains less releases. -/
def references (log : List TableEvent) (k : ℕ) : ℤ :=
  log.count (.requested k) + log.count (.retained k) - log.count (.released k)

/-- A call is made and returns; retained and released is what is referred to. -/
def Holders.step (h : Holders) : TableCall → Option Holders
  | .request type key =>
    match (requestSubscription type key).run h.world with
    | some (.ok ret, w) => some ⟨w, h.log ++ (ret.map .requested).toList⟩
    | _ => none
  | .retain k =>
    if 0 < references h.log k then
      match (retainSubscription k).run h.world with
      | some (.ok _, w) => some ⟨w, h.log ++ [.retained k]⟩
      | _ => none
    else none
  | .release k =>
    if 0 < references h.log k then
      match (releaseSubscription k).run h.world with
      | some (.ok _, w) => some ⟨w, h.log ++ [.released k]⟩
      | _ => none
    else none

/-- There have never been 2^32 references to a subscription. -/
def FewReferences (log : List TableEvent) : Prop :=
  ∀ n k, references (log.take n) k < 2 ^ 32

/-! ### Counting references -/

section References

variable {log : List TableEvent} {k k' : ℕ}

theorem references_append (log log' : List TableEvent) (k : ℕ) :
    references (log ++ log') k = references log k + references log' k := by
  simp only [references, List.count_append]
  omega

/-- What one call does to the number of references. -/
def TableEvent.weight (k : ℕ) : TableEvent → ℤ
  | .requested k' => if k = k' then 1 else 0
  | .retained k' => if k = k' then 1 else 0
  | .released k' => if k = k' then -1 else 0

theorem references_snoc (event : TableEvent) :
    references (log ++ [event]) k = references log k + event.weight k := by
  rw [references_append]
  congr 1
  cases event with
  | requested k' =>
    by_cases hk : k = k'
    · subst hk; simp [references, TableEvent.weight]
    · simp [references, TableEvent.weight, hk, Ne.symm hk]
  | retained k' =>
    by_cases hk : k = k'
    · subst hk; simp [references, TableEvent.weight]
    · simp [references, TableEvent.weight, hk, Ne.symm hk]
  | released k' =>
    by_cases hk : k = k'
    · subst hk; simp [references, TableEvent.weight]
    · simp [references, TableEvent.weight, hk, Ne.symm hk]

/-- A short log is of few references. -/
theorem fewReferences_of_length (h : log.length < 2 ^ 32) : FewReferences log := by
  intro n k
  have hle : ∀ l : List TableEvent, references l k ≤ l.length := by
    intro l
    induction l using List.reverseRecOn with
    | nil => exact Int.le_refl 0
    | append_singleton l event ih =>
      have hweight : event.weight k ≤ 1 := by
        cases event with
        | requested k' => rw [TableEvent.weight]; split <;> decide
        | retained k' => rw [TableEvent.weight]; split <;> decide
        | released k' => rw [TableEvent.weight]; split <;> decide
      rw [references_snoc, List.length_append, List.length_singleton]
      omega
  have htake := hle (log.take n)
  have hlength : (log.take n).length ≤ log.length := List.length_take_le' n log
  omega

theorem FewReferences.of_append {log' : List TableEvent} (h : FewReferences (log ++ log')) :
    FewReferences log := by
  intro n k
  have hn := h (min n log.length) k
  rw [List.take_append_of_le_length (Nat.min_le_right _ _)] at hn
  rwa [List.take_eq_take_min]

theorem FewReferences.lt (h : FewReferences log) (k : ℕ) : references log k < 2 ^ 32 := by
  have hn := h log.length k
  rwa [List.take_length] at hn

end References

/-! ### The invariant -/

/-- **Every subscription is counted**, and what is referred to is there. -/
structure Holders.Counted (h : Holders) : Prop where
  sorted : ∃ keys, h.world.Sorted keys
  count : ∀ k s, h.world.subscriptions.get k = some s →
    (s.referenceCount : ℤ) = references h.log k ∧ 0 < s.referenceCount
  absent : ∀ k, h.world.subscriptions.get k = none → references h.log k = 0

namespace Holders.Counted

variable {h : Holders}

/-- What is referred to is there. -/
theorem exists_of_pos (hc : h.Counted) {k : ℕ} (hpos : 0 < references h.log k) :
    ∃ s, h.world.subscriptions.get k = some s := by
  cases hs : h.world.subscriptions.get k with
  | none =>
    rw [hc.absent k hs] at hpos
    exact absurd hpos (Int.lt_irrefl 0)
  | some s => exact ⟨s, rfl⟩

/-- A subscription gets another number of references. -/
theorem set (hc : h.Counted) {k : ℕ} {s : Subscription} (s' : Subscription)
    (hs : h.world.subscriptions.get k = some s) (w : World)
    (hw : w.subscriptions = h.world.subscriptions.set k s')
    (htable : w.subscriptionTable = h.world.subscriptionTable) (htype : s'.type = s.type)
    (hkey : s'.key = s.key) {log : List TableEvent}
    (hlog : ∀ k', k' ≠ k → references log k' = references h.log k')
    (hcount : (s'.referenceCount : ℤ) = references log k) (hpos : 0 < s'.referenceCount) :
    Counted ⟨w, log⟩ where
  sorted := by
    obtain ⟨keys, hkeys⟩ := hc.sorted
    refine ⟨keys, (hkeys.set hs htype hkey).congr htable fun k' => ?_⟩
    rw [hw]
  count := by
    intro k' t ht
    rw [hw, Heap.get_set hs] at ht
    split at ht
    · subst k'
      obtain rfl := Option.some.inj ht
      exact ⟨hcount, hpos⟩
    · rw [show references log k' = _ from hlog k' ‹_›]
      exact hc.count k' t ht
  absent := by
    intro k' ht
    rw [hw, Heap.get_set hs] at ht
    split at ht
    · exact absurd ht nofun
    · exact (hlog k' ‹_›).trans (hc.absent k' ht)

theorem retained (hc : h.Counted) {k : ℕ} {s : Subscription}
    (hs : h.world.subscriptions.get k = some s) {event : TableEvent}
    (hevent : event = .requested k ∨ event = .retained k)
    (hlt : references (h.log ++ [event]) k < 2 ^ 32) :
    Counted ⟨h.world.retained k s, h.log ++ [event]⟩ := by
  obtain ⟨hcount, hpos⟩ := hc.count k s hs
  have hone : references (h.log ++ [event]) k = references h.log k + 1 := by
    rw [references_snoc]
    obtain rfl | rfl := hevent
    · rw [TableEvent.weight, if_pos rfl]
    · rw [TableEvent.weight, if_pos rfl]
  refine hc.set { s with referenceCount := (s.referenceCount + 1) % 2 ^ 32 } hs
    (h.world.retained k s) rfl rfl rfl rfl (fun k' hne => ?_) ?_ ?_
  · rw [references_snoc]
    obtain rfl | rfl := hevent
    · rw [TableEvent.weight, if_neg hne, Int.add_zero]
    · rw [TableEvent.weight, if_neg hne, Int.add_zero]
  · dsimp only
    omega
  · dsimp only
    omega

/-- A subscription that is not there has never been referred to. -/
theorem requested (hc : h.Counted) {type : ℕ} {key : List UInt8} {keys : List SortKey}
    (hkeys : h.world.Sorted keys) {place : ℕ}
    (hcut : BinarySearch.Cut (BinarySearch.probeList compareKeys (sortKey type key) keys)
      keys.length place)
    (hne : BinarySearch.probeList compareKeys (sortKey type key) keys place ≠ .eq) :
    Counted ⟨h.world.subscribed type key place,
      h.log ++ [.requested h.world.subscriptions.next]⟩ where
  sorted := by
    have hinsert := hkeys.insert (s := ⟨⟨0, []⟩, 1, type, key⟩) hcut hne
    exact ⟨_, hinsert.congr rfl fun _ => rfl⟩
  count := by
    intro k s hs
    have hget : (h.world.subscriptions.alloc ⟨⟨0, []⟩, 1, type, key⟩).get k = some s := hs
    rw [Heap.get_alloc] at hget
    show (s.referenceCount : ℤ) = references (h.log ++ [_]) k ∧ _
    rw [references_snoc, TableEvent.weight]
    split at hget
    · rename_i heq
      obtain rfl := Option.some.inj hget
      rw [if_pos heq, heq, hc.absent _ (h.world.subscriptions.fresh _ (Nat.le_refl _))]
      exact ⟨rfl, Nat.one_pos⟩
    · rename_i hne
      rw [if_neg hne, Int.add_zero]
      exact hc.count k s hget
  absent := by
    intro k hk
    have hget : (h.world.subscriptions.alloc ⟨⟨0, []⟩, 1, type, key⟩).get k = none := hk
    rw [Heap.get_alloc] at hget
    split at hget
    · exact absurd hget nofun
    · show references (h.log ++ [_]) k = 0
      rw [references_snoc, TableEvent.weight, if_neg ‹_›, Int.add_zero]
      exact hc.absent k hget

theorem released (hc : h.Counted) {k : ℕ} {s : Subscription}
    (hs : h.world.subscriptions.get k = some s)
    (hmany : (s.referenceCount + (2 ^ 32 - 1)) % 2 ^ 32 ≠ 0)
    (hlt : references h.log k < 2 ^ 32) :
    Counted ⟨h.world.released k s, h.log ++ [.released k]⟩ := by
  obtain ⟨hcount, hpos⟩ := hc.count k s hs
  refine hc.set { s with referenceCount := (s.referenceCount + (2 ^ 32 - 1)) % 2 ^ 32 } hs
    (h.world.released k s) rfl rfl rfl rfl (fun k' hne => ?_) ?_ ?_
  · rw [references_snoc, TableEvent.weight, if_neg hne, Int.add_zero]
  · rw [references_snoc, TableEvent.weight, if_pos rfl]
    dsimp only
    omega
  · dsimp only
    omega

theorem unlisted (hc : h.Counted) {k place : ℕ} {s : Subscription}
    (hs : h.world.subscriptions.get k = some s)
    (hlast : (s.referenceCount + (2 ^ 32 - 1)) % 2 ^ 32 = 0)
    (hlt : references h.log k < 2 ^ 32)
    (hplace : h.world.subscriptionTable[place]? = some k) :
    Counted ⟨h.world.unlisted k s place, h.log ++ [.released k]⟩ := by
  obtain ⟨keys, hkeys⟩ := hc.sorted
  have hreleased : (h.world.released k s).Sorted keys := hkeys.set hs rfl rfl
  have hget : ∀ k', (h.world.unlisted k s place).subscriptions.get k' =
      if k' = k then none else h.world.subscriptions.get k' := by
    intro k'
    show ((h.world.released k s).subscriptions.free k).get k' = _
    rw [Heap.get_free]
    split
    · rfl
    · show (h.world.subscriptions.set k _).get k' = _
      rw [Heap.get_set hs, if_neg ‹_›]
  refine ⟨⟨_, (hreleased.erase hplace).congr rfl fun _ => rfl⟩, fun k' t ht => ?_,
    fun k' ht => ?_⟩
  · rw [hget] at ht
    split at ht
    · exact absurd ht nofun
    · rename_i hne
      show (t.referenceCount : ℤ) = references (h.log ++ [_]) k' ∧ _
      rw [references_snoc, TableEvent.weight, if_neg hne, Int.add_zero]
      exact hc.count k' t ht
  · rw [hget] at ht
    show references (h.log ++ [_]) k' = 0
    rw [references_snoc, TableEvent.weight]
    obtain ⟨hcount, hpos⟩ := hc.count k s hs
    split at ht
    · subst k'
      rw [if_pos rfl]
      omega
    · rename_i hne
      rw [if_neg hne, Int.add_zero]
      exact hc.absent k' ht

/-- A call that fails has only used up allocations. -/
theorem malloc (hc : h.Counted) (malloc : ℕ → Bool) :
    Counted ⟨{ h.world with malloc := malloc }, h.log⟩ := by
  obtain ⟨⟨keys, hkeys⟩, hcount, habsent⟩ := hc
  exact ⟨⟨keys, hkeys.congr rfl fun _ => rfl⟩, hcount, habsent⟩

/-- **Every call keeps the count.** -/
theorem step (hc : h.Counted) {call : TableCall} {h' : Holders} (hst : h.step call = some h')
    (hfew : FewReferences h'.log) : h'.Counted := by
  obtain ⟨keys, hkeys⟩ := hc.sorted
  cases call with
  | request type key =>
    simp only [Holders.step] at hst
    obtain ⟨k, s, hs, -, hrun⟩ | ⟨place, hcut, hne, ⟨hrun, -⟩ | ⟨n, hrun, -⟩⟩ :=
      hkeys.run_requestSubscription type key
    · rw [hrun] at hst
      obtain rfl := Option.some.inj hst
      exact hc.retained hs (Or.inl rfl) (hfew.lt k)
    · rw [hrun] at hst
      obtain rfl := Option.some.inj hst
      exact hc.requested hkeys hcut hne
    · rw [hrun] at hst
      obtain rfl := Option.some.inj hst
      have hmalloc := hc.malloc fun m => h.world.malloc (m + n)
      simpa using hmalloc
  | retain k =>
    simp only [Holders.step] at hst
    split at hst
    · obtain ⟨s, hs⟩ := hc.exists_of_pos ‹_›
      rw [run_retainSubscription hs] at hst
      obtain rfl := Option.some.inj hst
      exact hc.retained hs (Or.inr rfl) (hfew.lt k)
    · exact absurd hst nofun
  | release k =>
    simp only [Holders.step] at hst
    split at hst
    · obtain ⟨s, hs⟩ := hc.exists_of_pos ‹_›
      obtain ⟨hmany, hrun⟩ | ⟨hlast, place, hplace, -, hrun⟩ := hkeys.run_releaseSubscription hs
      · rw [hrun] at hst
        obtain rfl := Option.some.inj hst
        exact hc.released hs hmany (hfew.of_append.lt k)
      · rw [hrun] at hst
        obtain rfl := Option.some.inj hst
        exact hc.unlisted hs hlast (hfew.of_append.lt k) hplace
    · exact absurd hst nofun

/-- The table of `wpcp_create`. -/
theorem create (sizeT : SizeT) (callbacks : Callback → Bool) (malloc : ℕ → Bool) :
    Counted ⟨World.create sizeT callbacks malloc, []⟩ :=
  ⟨⟨[], rfl, .nil, nofun⟩, nofun, fun _ _ => rfl⟩

end Holders.Counted

/-! ### The sorted set -/

/-- **The table is a sorted set** of the keys that are referred to. -/
structure Holders.SortedSet (h : Holders) : Prop where
  /-- The entries are subscriptions, and their keys strictly increase. -/
  increasing : ∃ keys : List SortKey, h.world.subscriptionTable.map
      (fun k => (h.world.subscriptions.get k).map Subscription.sortKey) = keys.map some ∧
    keys.Pairwise fun a b => compareKeys a b = .lt
  /-- What is referred to is in the table, and nothing else. -/
  referred : ∀ k, k ∈ h.world.subscriptionTable ↔ 0 < references h.log k
  /-- A reference count is the number of requests and retains less the releases. -/
  count : ∀ k ∈ h.world.subscriptionTable, ∀ s, h.world.subscriptions.get k = some s →
    (s.referenceCount : ℤ) = references h.log k
  /-- A request gives the entry with the key, where there is one, and leaves the table alone. -/
  present : ∀ k ∈ h.world.subscriptionTable, ∀ s, h.world.subscriptions.get k = some s →
    ∃ w, (requestSubscription s.type s.key).run h.world = some (.ok (some k), w) ∧
      w.subscriptionTable = h.world.subscriptionTable
  /-- Where there is none, it gives a new entry; or it fails, and the entries are as before. -/
  absent : ∀ type key, (∀ k ∈ h.world.subscriptionTable, ∀ s,
      h.world.subscriptions.get k = some s → ¬(s.type = type ∧ s.key = key)) →
    ∃ ret w, (requestSubscription type key).run h.world = some (.ok ret, w) ∧
      (∀ k ∈ ret, k ∉ h.world.subscriptionTable ∧
        ∃ place, w.subscriptionTable = h.world.subscriptionTable.insertIdx place k) ∧
      (ret = none → w.subscriptionTable = h.world.subscriptionTable ∧
        w.subscriptions = h.world.subscriptions)
  /-- What is referred to can be retained and released. -/
  retain : ∀ k, 0 < references h.log k →
    ∃ w, (retainSubscription k).run h.world = some (.ok k, w)
  release : ∀ k, 0 < references h.log k →
    ∃ w, (releaseSubscription k).run h.world = some (.ok (), w)
  /-- The loop of `wpcp_release_subscription` ends at the entry that is released. -/
  search : ∀ k ∈ h.world.subscriptionTable, ∀ s, h.world.subscriptions.get k = some s →
    ∃ place, h.world.subscriptionTable[place]? = some k ∧
      (Attempt.loop (searchStep s.type s.key) (h.world.subscriptionTable.length + 1)
        (0, h.world.subscriptionTable.length)).run h.world = some (.ok (place, k), h.world)

/-- **What is counted in a sorted table is a sorted set.** -/
theorem Holders.Counted.sortedSet {h : Holders} (hc : h.Counted) : h.SortedSet := by
  obtain ⟨keys, hkeys⟩ := hc.sorted
  have hlive : ∀ k ∈ h.world.subscriptionTable, ∃ s, h.world.subscriptions.get k = some s := by
    intro k hk
    obtain ⟨i, hi⟩ := List.getElem?_of_mem hk
    have hlt := (List.getElem?_eq_some_iff.mp hi).1
    rw [hkeys.length] at hlt
    obtain ⟨k', s, hk', hs, -⟩ := hkeys.get (List.getElem?_eq_getElem hlt)
    obtain rfl := Option.some.inj (hi.symm.trans hk')
    exact ⟨s, hs⟩
  refine ⟨⟨keys, hkeys.table, hkeys.sorted⟩, fun k => ⟨fun hk => ?_, fun hpos => ?_⟩,
    fun k _ s hs => (hc.count k s hs).1, fun k _ s hs => ?_, fun type key hno => ?_,
    fun k hpos => ?_, fun k hpos => ?_, fun k _ s hs => ?_⟩
  · obtain ⟨s, hs⟩ := hlive k hk
    obtain ⟨hcount, hpos⟩ := hc.count k s hs
    omega
  · obtain ⟨s, hs⟩ := hc.exists_of_pos hpos
    exact hkeys.listed k s hs
  · obtain ⟨k', s', hs', hkey, hrun⟩ | ⟨place, hcut, hne, -⟩ :=
      hkeys.run_requestSubscription s.type s.key
    · obtain rfl := hkeys.eq_of_sortKey hs' hs hkey
      exact ⟨_, hrun, rfl⟩
    · -- the place of the key is the one of the entry
      obtain ⟨i, -, hi⟩ := hkeys.exists_place hs
      have hprobe : BinarySearch.probeList compareKeys s.sortKey keys i = .eq := by
        rw [BinarySearch.probeList, hi]
        exact compareKeys_self _
      rw [← hcut.eq_place hprobe (List.getElem?_eq_some_iff.mp hi).1] at hne
      exact absurd hprobe hne
  · obtain ⟨k, s, hs, hkey, -⟩ | ⟨place, -, -, ⟨hrun, -⟩ | ⟨n, hrun, -⟩⟩ :=
      hkeys.run_requestSubscription type key
    · refine absurd ⟨?_, ?_⟩ (hno k (hkeys.listed k s hs) s hs)
      · exact congrArg Prod.fst hkey
      · exact congrArg (fun key : SortKey => key.2.2) hkey
    · refine ⟨_, _, hrun, fun k hk => ?_, by simp⟩
      obtain rfl := Option.some.inj hk
      refine ⟨fun hmem => ?_, place, rfl⟩
      obtain ⟨s, hs⟩ := hlive _ hmem
      exact absurd (Heap.lt_next hs) (Nat.lt_irrefl _)
    · exact ⟨_, _, hrun, by simp, fun _ => ⟨rfl, rfl⟩⟩
  · obtain ⟨s, hs⟩ := hc.exists_of_pos hpos
    exact ⟨_, run_retainSubscription hs⟩
  · obtain ⟨s, hs⟩ := hc.exists_of_pos hpos
    obtain ⟨-, hrun⟩ | ⟨-, place, -, -, hrun⟩ := hkeys.run_releaseSubscription hs
    · exact ⟨_, hrun⟩
    · exact ⟨_, hrun⟩
  · obtain ⟨place, hplace, hkey⟩ := hkeys.exists_place hs
    refine ⟨place, hplace, ?_⟩
    have hcut := hkeys.cut_of_place hkey
    have hlt := (List.getElem?_eq_some_iff.mp hkey).1
    rw [hkeys.length]
    exact hkeys.run_loop_searchStep hplace hkey hcut hcut.within hlt (Nat.lt_succ_self _)

/-- A call adds what it has done to the log. -/
theorem Holders.exists_log {h h' : Holders} {call : TableCall} (hst : h.step call = some h') :
    ∃ log, h'.log = h.log ++ log := by
  cases call with
  | request type key =>
    simp only [Holders.step] at hst
    split at hst
    · exact ⟨_, (congrArg Holders.log (Option.some.inj hst)).symm⟩
    · exact absurd hst nofun
  | retain k =>
    simp only [Holders.step] at hst
    split at hst
    · split at hst
      · exact ⟨_, (congrArg Holders.log (Option.some.inj hst)).symm⟩
      · exact absurd hst nofun
    · exact absurd hst nofun
  | release k =>
    simp only [Holders.step] at hst
    split at hst
    · split at hst
      · exact ⟨_, (congrArg Holders.log (Option.some.inj hst)).symm⟩
      · exact absurd hst nofun
    · exact absurd hst nofun

/-- **In every run of the three functions the table is a sorted set**, whichever allocations
fail, as long as there are fewer than 2^32 references to a subscription. -/
theorem sortedSet_of_run {sizeT : SizeT} {callbacks : Callback → Bool} {malloc : ℕ → Bool}
    {tableCalls : List TableCall} {h : Holders}
    (hrun : Transition.Run Holders.step Transition.anyStep
      ⟨World.create sizeT callbacks malloc, []⟩ tableCalls h)
    (hfew : FewReferences h.log) : h.SortedSet := by
  have hinvariant := hrun.invariant (motive := fun _ h => FewReferences h.log → h.Counted) ?_ ?_
  · exact (hinvariant hfew).sortedSet
  · exact fun _ => .create sizeT callbacks malloc
  · intro _ h call h' ih _ hst hfew'
    obtain ⟨log, hlog⟩ := Holders.exists_log hst
    have hbefore : FewReferences h.log := by
      rw [hlog] at hfew'
      exact hfew'.of_append
    exact (ih hbefore).step hst hfew'

/-- Two keys of different lengths are requested, the second one twice; then the first is
released. -/
theorem sortedSet_released : ∃ h : Holders, h.log =
    [.requested 0, .requested 1, .requested 1, .retained 1, .released 0] ∧ h.SortedSet := by
  let tableCalls : List TableCall :=
    [.request 3 [1, 2], .request 3 [7], .request 3 [7], .retain 1, .release 0]
  have hrun : (Transition.execute Holders.step Transition.anyStep
      ⟨World.create .bits64 (fun _ => false) fun _ => true, []⟩ tableCalls).any
      (fun h => h.log = [.requested 0, .requested 1, .requested 1, .retained 1, .released 0]) =
        true := by decide +kernel
  obtain ⟨h, hh, hlog⟩ := (Option.any_eq_true _ _).mp hrun
  rw [decide_eq_true_eq] at hlog
  refine ⟨h, hlog, sortedSet_of_run (Transition.run_of_execute hh) (fewReferences_of_length ?_)⟩
  rw [hlog]
  decide

end Wpcp

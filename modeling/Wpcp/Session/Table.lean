import Wpcp.Lib.BinarySearch
import Wpcp.Session.Frame

/-!
# The table of subscriptions is a sorted set

In a sorted table (`Wpcp.World.Sorted`) both searches end, at the place of the key; the loop
of `wpcp_release_subscription`, which has no other end, finds the subscription. Therefore
what `wpcp_request_subscription`, `wpcp_retain_subscription` and
`wpcp_release_subscription` do to a world is known to the last field.
-/

namespace Wpcp

open BinarySearch (Cut Within probeList)

/-! ### Keys -/

/-- What the table is sorted by: the type, the length of the key and the key. -/
abbrev SortKey : Type := ℕ × ℕ × List UInt8

/-- The order of the table. -/
def compareKeys : SortKey → SortKey → Ordering :=
  compareLex (compareOn Prod.fst)
    (compareLex (compareOn fun key => key.2.1) (compareOn fun key => key.2.2))

instance : Std.TransCmp compareKeys := inferInstanceAs (Std.TransCmp (compareLex _ _))

/-- What a key is sorted by. -/
def sortKey (type : ℕ) (key : List UInt8) : SortKey := (type, key.length, key)

/-- What a subscription is sorted by. -/
def Subscription.sortKey (s : Subscription) : SortKey := Wpcp.sortKey s.type s.key

theorem subscriptionKeyCompare_eq (type : ℕ) (key : List UInt8) (s : Subscription) :
    subscriptionKeyCompare type key s = compareKeys (sortKey type key) s.sortKey := rfl

theorem compareKeys_self (a : SortKey) : compareKeys a a = .eq := Std.ReflCmp.compare_self

/-- **Keys that compare equal are equal.** -/
theorem eq_of_compareKeys {a b : SortKey} (h : compareKeys a b = .eq) : a = b := by
  simp only [compareKeys, compareLex, compareOn, Ordering.then_eq_eq,
    Std.LawfulEqOrd.compare_eq_iff_eq] at h
  obtain ⟨htype, hlength, hkey⟩ := h
  exact Prod.ext htype (Prod.ext hlength hkey)

/-! ### The table -/

/-- The keys of a sorted table. -/
structure World.Sorted (w : World) (keys : List SortKey) : Prop where
  table : w.subscriptionTable.map (fun k => (w.subscriptions.get k).map Subscription.sortKey) =
    keys.map some
  sorted : keys.Pairwise fun a b => compareKeys a b = .lt
  listed : ∀ k s, w.subscriptions.get k = some s → k ∈ w.subscriptionTable

namespace World.Sorted

variable {w : World} {keys : List SortKey}

theorem length (h : w.Sorted keys) : w.subscriptionTable.length = keys.length := by
  rw [← List.length_map, h.table, List.length_map]

/-- A place of the table holds a subscription with the key of the place. -/
theorem get (h : w.Sorted keys) {i : ℕ} {key : SortKey} (hi : keys[i]? = some key) :
    ∃ k s, w.subscriptionTable[i]? = some k ∧ w.subscriptions.get k = some s ∧
      s.sortKey = key := by
  have hmap := congrArg (·[i]?) h.table
  rw [List.getElem?_map, List.getElem?_map, hi, Option.map_some] at hmap
  obtain ⟨k, hk, heq⟩ := Option.map_eq_some_iff.mp hmap
  obtain ⟨s, hs, rfl⟩ := Option.map_eq_some_iff.mp heq
  exact ⟨k, s, hk, hs, rfl⟩

/-- A subscription is at a place with its key. -/
theorem exists_place (h : w.Sorted keys) {k : ℕ} {s : Subscription}
    (hs : w.subscriptions.get k = some s) :
    ∃ i : ℕ, w.subscriptionTable[i]? = some k ∧ keys[i]? = some s.sortKey := by
  obtain ⟨i, hi⟩ := List.getElem?_of_mem (h.listed k s hs)
  have hmap := congrArg (·[i]?) h.table
  rw [List.getElem?_map, List.getElem?_map, hi, Option.map_some, hs, Option.map_some] at hmap
  obtain ⟨key, hkey, heq⟩ := Option.map_eq_some_iff.mp hmap.symm
  exact ⟨i, hi, hkey.trans heq⟩

theorem nodup (h : w.Sorted keys) : keys.Nodup := by
  refine h.sorted.imp fun {a b} hlt heq => ?_
  rw [heq, compareKeys_self] at hlt
  exact absurd hlt nofun

/-- **No key is in the table twice.** -/
theorem eq_of_sortKey (h : w.Sorted keys) {k k' : ℕ} {s s' : Subscription}
    (hs : w.subscriptions.get k = some s) (hs' : w.subscriptions.get k' = some s')
    (heq : s.sortKey = s'.sortKey) : k = k' := by
  obtain ⟨i, hi, hkey⟩ := h.exists_place hs
  obtain ⟨j, hj, hkey'⟩ := h.exists_place hs'
  rw [← heq] at hkey'
  have hij : i = j := (List.getElem?_inj (List.getElem?_eq_some_iff.mp hkey).1 h.nodup).mp
    (hkey.trans hkey'.symm)
  rw [hij, hj] at hi
  exact (Option.some.inj hi).symm

theorem nodup_table (h : w.Sorted keys) : w.subscriptionTable.Nodup := by
  refine List.Nodup.of_map _ (h.table ▸ h.nodup.map (Option.some_injective _))

/-! ### Searching -/

/-- One round of a search compares the key at the middle of the range. -/
theorem run_searchStep (h : w.Sorted keys) (type : ℕ) (key : List UInt8) (range : ℕ × ℕ)
    (hrange : (range.1 + range.2) / 2 < keys.length) :
    ∃ k, w.subscriptionTable[(range.1 + range.2) / 2]? = some k ∧
      (searchStep type key range).run w = some (.ok
        ((BinarySearch.step (probeList compareKeys (sortKey type key) keys) range).map id
          fun pos => (pos, k)), w) := by
  obtain ⟨k, s, hk, hs, hkey⟩ := h.get (List.getElem?_eq_getElem hrange)
  refine ⟨k, hk, ?_⟩
  have hprobe : probeList compareKeys (sortKey type key) keys ((range.1 + range.2) / 2) =
      subscriptionKeyCompare type key s := by
    rw [probeList, List.getElem?_eq_getElem hrange, subscriptionKeyCompare_eq, hkey]
  unfold searchStep BinarySearch.step
  rw [Attempt.run_bind_ok (a := w) (t := w) rfl]
  dsimp only
  rw [hk]
  dsimp only
  rw [Attempt.run_bind_ok (Place.run_read hs), hprobe]
  cases subscriptionKeyCompare type key s with
  | lt => rfl
  | eq => rfl
  | gt => rfl

/-- **The search of `wpcp_release_subscription` ends at the entry** that is looked for. -/
theorem run_loop_searchStep (h : w.Sorted keys) {k : ℕ} {s : Subscription} {place : ℕ}
    (hplace : w.subscriptionTable[place]? = some k) (hkey : keys[place]? = some s.sortKey)
    (hcut : Cut (probeList compareKeys s.sortKey keys) keys.length place) {range : ℕ × ℕ}
    (hw : Within keys.length place range) (hlt : place < range.2) {fuel : ℕ}
    (hfuel : range.2 - range.1 < fuel) :
    (Attempt.loop (searchStep s.type s.key) fuel range).run w = some (.ok (place, k), w) := by
  induction fuel generalizing range with
  | zero => omega
  | succ fuel ih =>
    obtain ⟨k', hk', hrun⟩ := h.run_searchStep s.type s.key range
      (by have := hw.1; have := hw.2.2; omega)
    have hprobe : probeList compareKeys s.sortKey keys place = .eq := by
      rw [probeList, hkey]
      exact compareKeys_self _
    obtain ⟨heq, -, -⟩ | ⟨range', heq, hw', hle, hshort, hfound⟩ := hcut.step hw
      (Nat.lt_of_le_of_lt hw.1 hlt)
    · rw [show sortKey s.type s.key = s.sortKey from rfl, heq] at hrun
      -- the middle was compared, so that it is the place
      have hmid : (range.1 + range.2) / 2 = place := by
        simp only [BinarySearch.step] at heq
        split at heq
        · exact Sum.inr.inj heq
        · cases heq
        · cases heq
      rw [hmid, hplace] at hk'
      obtain rfl := Option.some.inj hk'
      exact Attempt.run_loop_inr hrun
    · rw [show sortKey s.type s.key = s.sortKey from rfl, heq, Sum.map_inl, id_eq] at hrun
      rw [Attempt.run_loop_inl hrun]
      exact ih hw' (hfound hprobe hlt) (by omega)

/-- **The search of `wpcp_request_subscription` ends at the place of the key**, with the
subscription there if it has the key. -/
theorem run_loop_searchSubscription (h : w.Sorted keys) (type : ℕ) (key : List UInt8)
    {place : ℕ} (hcut : Cut (probeList compareKeys (sortKey type key) keys) keys.length place)
    {range : ℕ × ℕ} (hw : Within keys.length place range) (hle : range.1 ≤ range.2)
    (hlt : probeList compareKeys (sortKey type key) keys place = .eq → place < range.2)
    {fuel : ℕ} (hfuel : range.2 - range.1 < fuel) :
    (∃ k s, w.subscriptionTable[place]? = some k ∧ w.subscriptions.get k = some s ∧
      s.sortKey = sortKey type key ∧
      (Attempt.loop (searchSubscription type key) fuel range).run w =
        some (.ok (some k, place), w)) ∨
    (probeList compareKeys (sortKey type key) keys place ≠ .eq ∧
      (Attempt.loop (searchSubscription type key) fuel range).run w =
        some (.ok (none, place), w)) := by
  induction fuel generalizing range with
  | zero => omega
  | succ fuel ih =>
    by_cases hrange : range.1 = range.2
    · have hplace : place = range.1 := by
        have := hw.1
        have := hw.2.1
        omega
      have hend : (searchSubscription type key range).run w =
          some (.ok (.inr (none, place)), w) := by
        rw [searchSubscription, if_pos hrange, hplace]
        rfl
      exact Or.inr ⟨fun hprobe => by have := hlt hprobe; omega, Attempt.run_loop_inr hend⟩
    · obtain ⟨k', hk', hrun⟩ := h.run_searchStep type key range
        (by have := hw.2.2; omega)
      obtain ⟨heq, hcount, hprobe⟩ | ⟨range', heq, hw', hle', hshort, hfound⟩ := hcut.step hw
        (by omega)
      · have hmid : (range.1 + range.2) / 2 = place := by
          simp only [BinarySearch.step] at heq
          split at heq
          · exact Sum.inr.inj heq
          · exact absurd heq nofun
          · exact absurd heq nofun
        rw [heq] at hrun
        rw [hmid] at hk'
        obtain ⟨k, s, hk, hs, hkey⟩ := h.get (List.getElem?_eq_getElem hcount)
        obtain rfl := Option.some.inj (hk.symm.trans hk')
        rw [probeList, List.getElem?_eq_getElem hcount] at hprobe
        refine Or.inl ⟨k, s, hk, hs, hkey.trans (eq_of_compareKeys hprobe).symm, ?_⟩
        refine Attempt.run_loop_inr ?_
        rw [searchSubscription, if_neg hrange, Attempt.run_bind_ok hrun]
        rfl
      · rw [heq, Sum.map_inl, id_eq] at hrun
        have hround : (searchSubscription type key range).run w = some (.ok (.inl range'), w) := by
          rw [searchSubscription, if_neg hrange, Attempt.run_bind_ok hrun]
          rfl
        rw [Attempt.run_loop_inl hround]
        exact ih hw' hle' (fun hprobe => hfound hprobe (hlt hprobe)) (by omega)

/-! ### The three functions -/

/-- The place of a subscription is the place of its key. -/
theorem cut_of_place (h : w.Sorted keys) {place : ℕ} {key : SortKey}
    (hkey : keys[place]? = some key) : Cut (probeList compareKeys key keys) keys.length place := by
  obtain ⟨place', hcut⟩ := BinarySearch.exists_cut h.sorted key
  have hprobe : probeList compareKeys key keys place = .eq := by
    rw [probeList, hkey]
    exact compareKeys_self _
  obtain rfl := hcut.eq_place hprobe (List.getElem?_eq_some_iff.mp hkey).1
  exact hcut

/-- What leaves the table and the keys alone leaves the table sorted. -/
theorem congr (h : w.Sorted keys) {w' : World}
    (htable : w'.subscriptionTable = w.subscriptionTable)
    (hkeys : ∀ k, (w'.subscriptions.get k).map Subscription.sortKey =
      (w.subscriptions.get k).map Subscription.sortKey) : w'.Sorted keys where
  table := by
    rw [htable, ← h.table]
    exact List.map_congr_left fun k _ => hkeys k
  sorted := h.sorted
  listed := by
    intro k s hs
    have heq := hkeys k
    rw [hs, Option.map_some] at heq
    obtain ⟨s', hs', -⟩ := Option.map_eq_some_iff.mp heq.symm
    rw [htable]
    exact h.listed k s' hs'

/-- A write that leaves the key of a subscription alone. -/
theorem set (h : w.Sorted keys) {k : ℕ} {s t : Subscription}
    (hs : w.subscriptions.get k = some s) (htype : t.type = s.type) (hkey : t.key = s.key) :
    World.Sorted { w with subscriptions := w.subscriptions.set k t } keys := by
  refine h.congr rfl fun k' => ?_
  show ((w.subscriptions.set k t).get k').map _ = _
  rw [Heap.get_set hs]
  split
  · rename_i heq
    rw [heq, hs, Option.map_some, Option.map_some, Subscription.sortKey, htype, hkey,
      Subscription.sortKey]
  · rfl

/-- The entry of a subscription is taken out, and the subscription freed. -/
theorem erase (h : w.Sorted keys) {k place : ℕ} (hplace : w.subscriptionTable[place]? = some k) :
    World.Sorted { w with
      subscriptions := w.subscriptions.free k
      subscriptionTable := w.subscriptionTable.eraseIdx place } (keys.eraseIdx place) where
  table := by
    show (w.subscriptionTable.eraseIdx place).map _ = _
    rw [← List.eraseIdx_map some keys place, ← h.table, List.eraseIdx_map]
    refine List.map_congr_left fun k' hk' => ?_
    rw [Heap.get_free, if_neg]
    rintro rfl
    obtain ⟨i, hne, hi⟩ := List.mem_eraseIdx_iff_getElem?.mp hk'
    exact hne ((List.getElem?_inj (List.getElem?_eq_some_iff.mp hi).1 h.nodup_table).mp
      (hi.trans hplace.symm))
  sorted := h.sorted.sublist (List.eraseIdx_sublist _ _)
  listed := by
    intro k' s hs
    obtain ⟨hne, hs⟩ := Heap.get_of_get_free hs
    obtain ⟨i, hi⟩ := List.getElem?_of_mem (h.listed k' s hs)
    refine List.mem_eraseIdx_iff_getElem?.mpr ⟨i, ?_, hi⟩
    rintro rfl
    exact hne (Option.some.inj (hi.symm.trans hplace))

/-- A new subscription is put in the place of its key. -/
theorem insert (h : w.Sorted keys) {s : Subscription} {place : ℕ}
    (hcut : Cut (probeList compareKeys s.sortKey keys) keys.length place)
    (hne : probeList compareKeys s.sortKey keys place ≠ .eq) :
    World.Sorted { w with
      subscriptions := w.subscriptions.alloc s
      subscriptionTable := w.subscriptionTable.insertIdx place w.subscriptions.next }
      (keys.insertIdx place s.sortKey) where
  table := by
    show (w.subscriptionTable.insertIdx place w.subscriptions.next).map _ = _
    rw [List.map_insertIdx, List.map_insertIdx, Heap.get_alloc, if_pos rfl, Option.map_some,
      ← h.table]
    congr 1
    refine List.map_congr_left fun k hk => ?_
    obtain ⟨i, hi⟩ := List.getElem?_of_mem hk
    have hlt : i < keys.length := by
      rw [← h.length]
      exact (List.getElem?_eq_some_iff.mp hi).1
    obtain ⟨k', s', hk', hs', -⟩ := h.get (List.getElem?_eq_getElem hlt)
    obtain rfl := Option.some.inj (hi.symm.trans hk')
    rw [Heap.get_alloc_of_get hs', hs']
  sorted := hcut.sorted_insertIdx h.sorted fun _ => hne
  listed := by
    intro k s' hs
    rw [List.mem_insertIdx (by rw [h.length]; exact hcut.le)]
    rw [Heap.get_alloc] at hs
    split at hs
    · exact Or.inl ‹_›
    · exact Or.inr (h.listed k s' hs)

end World.Sorted

/-- A subscription is retained. -/
def World.retained (w : World) (k : ℕ) (s : Subscription) : World :=
  { w with
    subscriptions := w.subscriptions.set k { s with
      referenceCount := (s.referenceCount + 1) % 2 ^ 32 }
    referencesPeak := max w.referencesPeak (s.referenceCount + 1) }

/-- **Retaining a subscription that is there.** -/
theorem run_retainSubscription {w : World} {k : ℕ} {s : Subscription}
    (hs : w.subscriptions.get k = some s) :
    (retainSubscription k).run w = some (.ok k, w.retained k s) := by
  unfold retainSubscription
  rw [Attempt.run_bind_ok (Place.run_read hs), Attempt.run_bind_ok (Place.run_write hs _)]
  rfl

/-- A subscription with more than one reference is released. -/
def World.released (w : World) (k : ℕ) (s : Subscription) : World :=
  { w with
    subscriptions := w.subscriptions.set k { s with
      referenceCount := (s.referenceCount + (2 ^ 32 - 1)) % 2 ^ 32 } }

/-- The last reference to a subscription is released. -/
def World.unlisted (w : World) (k : ℕ) (s : Subscription) (place : ℕ) : World :=
  { w with
    subscriptions := (w.released k s).subscriptions.free k
    subscriptionTable := w.subscriptionTable.eraseIdx place
    malloc := fun n => w.malloc (n + 1) }

/-- **Releasing a subscription** ends: where it is the last reference, at the entry of the
table. -/
theorem World.Sorted.run_releaseSubscription {w : World} {keys : List SortKey}
    (h : w.Sorted keys) {k : ℕ} {s : Subscription} (hs : w.subscriptions.get k = some s) :
    ((s.referenceCount + (2 ^ 32 - 1)) % 2 ^ 32 ≠ 0 ∧
      (releaseSubscription k).run w = some (.ok (), w.released k s)) ∨
    ((s.referenceCount + (2 ^ 32 - 1)) % 2 ^ 32 = 0 ∧ ∃ place,
      w.subscriptionTable[place]? = some k ∧ keys[place]? = some s.sortKey ∧
      (releaseSubscription k).run w = some (.ok (), w.unlisted k s place)) := by
  unfold releaseSubscription
  rw [Attempt.run_bind_ok (Place.run_read hs)]
  dsimp only
  rw [Attempt.run_bind_ok (Place.run_write hs _)]
  by_cases hzero : (s.referenceCount + (2 ^ 32 - 1)) % 2 ^ 32 = 0
  · obtain ⟨place, hplace, hkey⟩ := h.exists_place hs
    refine Or.inr ⟨hzero, place, hplace, hkey, ?_⟩
    have hreleased : (w.released k s).Sorted keys := h.set hs rfl rfl
    have hlt := (List.getElem?_eq_some_iff.mp hkey).1
    have hloop := hreleased.run_loop_searchStep (s := s) hplace hkey (h.cut_of_place hkey)
      (h.cut_of_place hkey).within hlt
      (show keys.length - 0 < keys.length + 1 from Nat.lt_succ_self _)
    rw [← hreleased.length] at hloop
    have hget : (w.released k s).subscriptions.get k = some { s with
        referenceCount := (s.referenceCount + (2 ^ 32 - 1)) % 2 ^ 32 } :=
      (Heap.get_set hs _ _).trans (if_pos rfl)
    have hfree := Place.run_free (p := Wpcp.subscriptions)
      (w := { w.released k s with
        subscriptionTable := w.subscriptionTable.eraseIdx place
        malloc := fun n => w.malloc (n + 1) }) hget
    rw [if_neg (not_not.mpr hzero), Attempt.run_bind_ok (a := w.released k s)
      (t := w.released k s) rfl]
    rw [Attempt.run_bind_ok hloop]
    exact hfree
  · refine Or.inl ⟨hzero, ?_⟩
    rw [if_pos hzero]
    rfl

/-- A subscription is requested for the first time. -/
def World.subscribed (w : World) (type : ℕ) (key : List UInt8) (place : ℕ) : World :=
  { w with
    subscriptions := w.subscriptions.alloc
      { publishHandle := ⟨0, []⟩, referenceCount := 1, type := type, key := key }
    subscriptionTable := w.subscriptionTable.insertIdx place w.subscriptions.next
    malloc := fun n => w.malloc (n + 2) }

/-- **Requesting a subscription** gives the one with the key, or a new one; only the
allocations can make it fail. -/
theorem World.Sorted.run_requestSubscription {w : World} {keys : List SortKey}
    (h : w.Sorted keys) (type : ℕ) (key : List UInt8) :
    (∃ k s, w.subscriptions.get k = some s ∧ s.sortKey = sortKey type key ∧
      (requestSubscription type key).run w = some (.ok (some k), w.retained k s)) ∨
    ∃ place, Cut (probeList compareKeys (sortKey type key) keys) keys.length place ∧
      probeList compareKeys (sortKey type key) keys place ≠ .eq ∧
      ((requestSubscription type key).run w =
          some (.ok (some w.subscriptions.next), w.subscribed type key place) ∧
            w.malloc 0 = true ∧ w.malloc 1 = true ∨
        ∃ n, (requestSubscription type key).run w =
          some (.ok none, { w with malloc := fun m => w.malloc (m + n) }) ∧
            (w.malloc 0 = false ∨ w.malloc 1 = false)) := by
  obtain ⟨place, hcut⟩ := BinarySearch.exists_cut h.sorted (sortKey type key)
  have hloop := h.run_loop_searchSubscription type key hcut hcut.within (Nat.zero_le _)
    (fun hprobe => ?_) (show keys.length - 0 < keys.length + 1 from Nat.lt_succ_self _)
  · unfold requestSubscription
    rw [Attempt.run_bind_ok (a := w) (t := w) rfl]
    dsimp only
    rw [h.length]
    obtain ⟨k, s, -, hs, hkey, hrun⟩ | ⟨hne, hrun⟩ := hloop
    · refine Or.inl ⟨k, s, hs, hkey, ?_⟩
      rw [Attempt.run_bind_ok hrun]
      dsimp only
      rw [Attempt.run_bind_ok (run_retainSubscription hs)]
      rfl
    · refine Or.inr ⟨place, hcut, hne, ?_⟩
      rw [Attempt.run_bind_ok hrun]
      dsimp only
      rw [Attempt.run_bind_ok (run_malloc w)]
      by_cases hrealloc : w.malloc 0 = true
      · rw [if_pos hrealloc, Attempt.run_bind_ok (run_malloc _)]
        by_cases hnew : w.malloc (0 + 1) = true
        · refine Or.inl ⟨?_, hrealloc, hnew⟩
          rw [if_pos hnew]
          rfl
        · refine Or.inr ⟨2, ?_, Or.inr (Bool.not_eq_true _ |>.mp hnew)⟩
          rw [if_neg hnew]
          rfl
      · refine Or.inr ⟨1, ?_, Or.inl (Bool.not_eq_true _ |>.mp hrealloc)⟩
        rw [if_neg hrealloc]
        rfl
  · rw [probeList] at hprobe
    split at hprobe
    · exact (List.getElem?_eq_some_iff.mp ‹_›).1
    · cases hprobe

end Wpcp

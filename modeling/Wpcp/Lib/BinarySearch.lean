import Mathlib.Data.List.InsertIdx
import Mathlib.Order.Compare
import Mathlib.Tactic.Common

/-!
# Searching a sorted list by halving

A search keeps a range of places and compares the middle of the range
(`BinarySearch.step`). What it looks for has one place in the list, where it is or where it is
to go (`BinarySearch.Cut`); every round keeps this place in the range and makes the range
shorter. A search that stops when the range is empty finds the place, and one that does not
look at the range finds what is there.

In a list sorted by a comparison, every element has its place (`BinarySearch.exists_cut`),
and the list stays sorted when the element is put there.
-/

namespace BinarySearch

/-- One round: the middle of the range is compared, and the range cut. -/
def step (probe : ℕ → Ordering) (range : ℕ × ℕ) : (ℕ × ℕ) ⊕ ℕ :=
  let pos := (range.1 + range.2) / 2
  match probe pos with
  | .eq => .inr pos
  | .gt => .inl (pos + 1, range.2)
  | .lt => .inl (range.1, pos)

/-- **The place of what is looked for**, among `count` places: what is before it is smaller,
and what is behind it is greater. -/
structure Cut (probe : ℕ → Ordering) (count place : ℕ) : Prop where
  le : place ≤ count
  below : ∀ i < place, probe i = .gt
  here : place < count → probe place ≠ .gt
  above : ∀ i, place < i → i < count → probe i = .lt

variable {probe : ℕ → Ordering} {count place : ℕ} {range : ℕ × ℕ}

/-- The place is in the range. -/
def Within (count place : ℕ) (range : ℕ × ℕ) : Prop :=
  range.1 ≤ place ∧ place ≤ range.2 ∧ range.2 ≤ count

theorem Cut.within (h : Cut probe count place) : Within count place (0, count) :=
  ⟨Nat.zero_le _, h.le, Nat.le_refl _⟩

/-- What is found is at its place. -/
theorem Cut.eq_place (h : Cut probe count place) {i : ℕ} (heq : probe i = .eq)
    (hlt : i < count) : i = place := by
  rcases Nat.lt_trichotomy i place with hbefore | hsame | hbehind
  · rw [h.below i hbefore] at heq
    exact absurd heq nofun
  · exact hsame
  · rw [h.above i hbehind hlt] at heq
    exact absurd heq nofun

/-- **A round of a search in a range that is not empty** finds the place or keeps it in a
shorter range. -/
theorem Cut.step (h : Cut probe count place) (hw : Within count place range)
    (hne : range.1 < range.2) :
    (BinarySearch.step probe range = .inr place ∧ place < count ∧ probe place = .eq) ∨
      ∃ range', BinarySearch.step probe range = .inl range' ∧ Within count place range' ∧
        range'.1 ≤ range'.2 ∧ range'.2 - range'.1 < range.2 - range.1 ∧
        (probe place = .eq → place < range.2 → place < range'.2) := by
  obtain ⟨hlow, hhigh, hcount⟩ := hw
  obtain ⟨low, high⟩ := range
  dsimp only at hlow hhigh hcount hne
  have hmid : (low + high) / 2 < high := by omega
  unfold BinarySearch.step
  dsimp only
  split
  · rename_i heq
    have hplace : (low + high) / 2 = place := h.eq_place heq (by omega)
    refine Or.inl ⟨congrArg _ hplace, by omega, ?_⟩
    rw [← hplace]
    exact heq
  · rename_i heq
    refine Or.inr ⟨_, rfl, ⟨?_, hhigh, hcount⟩, ?_, ?_, fun _ hlt => hlt⟩
    · by_contra hnot
      rcases Nat.eq_or_lt_of_le (show place ≤ (low + high) / 2 by omega) with heq' | hlt
      · rw [← heq'] at heq
        exact h.here (by omega) heq
      · rw [h.above _ hlt (by omega)] at heq
        exact absurd heq nofun
    · show (low + high) / 2 + 1 ≤ high
      omega
    · show high - ((low + high) / 2 + 1) < high - low
      omega
  · rename_i heq
    have hle : place ≤ (low + high) / 2 := by
      by_contra hnot
      rw [h.below _ (by omega)] at heq
      exact absurd heq nofun
    refine Or.inr ⟨_, rfl, ⟨hlow, hle, ?_⟩, ?_, ?_, fun hprobe _ => ?_⟩
    · show (low + high) / 2 ≤ count
      omega
    · show low ≤ (low + high) / 2
      omega
    · show (low + high) / 2 - low < high - low
      omega
    · refine Nat.lt_of_le_of_ne hle ?_
      rintro rfl
      rw [heq] at hprobe
      exact absurd hprobe nofun

/-! ### Sorted lists -/

section Sorted

variable {α : Type} {cmp : α → α → Ordering} {l : List α} {a : α}

/-- The comparison with the elements of a list. -/
def probeList (cmp : α → α → Ordering) (a : α) (l : List α) (i : ℕ) : Ordering :=
  match l[i]? with
  | some b => cmp a b
  | none => .lt

/-- Every element has a place in a sorted list. -/
theorem exists_cut [Std.TransCmp cmp] (hl : l.Pairwise fun a b => cmp a b = .lt) (a : α) :
    ∃ place, Cut (probeList cmp a l) l.length place := by
  induction l with
  | nil => exact ⟨0, Nat.le_refl _, nofun, nofun, nofun⟩
  | cons b l ih =>
    obtain ⟨hb, hl⟩ := List.pairwise_cons.mp hl
    by_cases hgt : cmp a b = .gt
    · obtain ⟨place, hle, hbelow, hhere, habove⟩ := ih hl
      refine ⟨place + 1, Nat.succ_le_succ hle, fun i hi => ?_,
        fun hlt => hhere (Nat.lt_of_succ_lt_succ hlt), fun i hi hlt => ?_⟩
      · cases i with
        | zero => exact hgt
        | succ i => exact hbelow i (Nat.lt_of_succ_lt_succ hi)
      · cases i with
        | zero => exact absurd hi (Nat.not_lt_zero _)
        | succ i => exact habove i (Nat.lt_of_succ_lt_succ hi) (Nat.lt_of_succ_lt_succ hlt)
    · refine ⟨0, Nat.zero_le _, nofun, fun _ => hgt, fun i hi hlt => ?_⟩
      cases i with
      | zero => exact absurd hi (Nat.lt_irrefl _)
      | succ i =>
        have hi' : i < l.length := Nat.lt_of_succ_lt_succ hlt
        have hlt' : cmp a l[i] = .lt := by
          have hbl := hb l[i] (List.getElem_mem hi')
          cases hcmp : cmp a b with
          | lt => exact Std.TransCmp.lt_trans hcmp hbl
          | eq => exact Std.TransCmp.lt_of_eq_of_lt hcmp hbl
          | gt => exact absurd hcmp hgt
        rw [probeList, List.getElem?_cons_succ, List.getElem?_eq_getElem hi']
        exact hlt'

/-- **A sorted list stays sorted when an element that is not in it is put in its place.** -/
theorem Cut.sorted_insertIdx [Std.TransCmp cmp] (hl : l.Pairwise fun a b => cmp a b = .lt)
    (h : Cut (probeList cmp a l) l.length place)
    (hne : place < l.length → probeList cmp a l place ≠ .eq) :
    (l.insertIdx place a).Pairwise fun a b => cmp a b = .lt := by
  induction l generalizing place with
  | nil =>
    obtain rfl : place = 0 := Nat.le_zero.mp h.le
    exact List.pairwise_singleton _ _
  | cons b l ih =>
    obtain ⟨hb, hl'⟩ := List.pairwise_cons.mp hl
    obtain ⟨hle, hbelow, hhere, habove⟩ := h
    cases place with
    | zero =>
      refine List.pairwise_cons.mpr ⟨fun c hc => ?_, hl⟩
      obtain ⟨i, hi, rfl⟩ := List.getElem_of_mem hc
      have hprobe : probeList cmp a (b :: l) i = cmp a (b :: l)[i] := by
        rw [probeList, List.getElem?_eq_getElem hi]
      rw [← hprobe]
      cases i with
      | zero =>
        cases hcmp : probeList cmp a (b :: l) 0 with
        | lt => rfl
        | eq => exact absurd hcmp (hne (Nat.succ_pos _))
        | gt => exact absurd hcmp (hhere (Nat.succ_pos _))
      | succ i => exact habove _ (Nat.succ_pos _) hi
    | succ place =>
      rw [List.insertIdx_succ_cons]
      refine List.pairwise_cons.mpr ⟨fun c hc => ?_, ih hl' ⟨Nat.le_of_succ_le_succ hle,
        fun i hi => hbelow (i + 1) (Nat.succ_lt_succ hi),
        fun hlt => hhere (Nat.succ_lt_succ hlt),
        fun i hi hlt => habove (i + 1) (Nat.succ_lt_succ hi) (Nat.succ_lt_succ hlt)⟩
        fun hlt => hne (Nat.succ_lt_succ hlt)⟩
      obtain rfl | hc := (List.mem_insertIdx (Nat.le_of_succ_le_succ hle)).mp hc
      · exact Std.OrientedCmp.gt_iff_lt.mp (hbelow 0 (Nat.succ_pos _))
      · exact hb c hc

end Sorted

end BinarySearch

import Mathlib.Data.List.Basic
import Mathlib.Tactic.Common

/-!
# Arrays that end at a null pointer

An array whose items are in front, with null pointers (`none`) behind them. Who reads it goes on
to the first null pointer; where there is none, it runs out of the array, and both readers here
then have no result. **One free cell behind the items is enough** for both
(`NullTerminated.findNull_cells`, `NullTerminated.search_cells`), and to append an item takes one
(`NullTerminated.set_cells`).
-/

namespace NullTerminated

variable {α : Type*}

/-- The cells of an array with some items and some free cells. -/
def cells (items : List α) (free : ℕ) : List (Option α) :=
  items.map some ++ List.replicate free none

/-- `while (*p) ++p;`, which ends at the place of the first null pointer. -/
def findNull : List (Option α) → Option ℕ
  | [] => none
  | none :: _ => some 0
  | some _ :: rest => (findNull rest).map (· + 1)

/-- `while (*p) { if (*p == a) return true; ++p; }` -/
def search [DecidableEq α] (a : α) : List (Option α) → Option Bool
  | [] => none
  | none :: _ => some false
  | some b :: rest => if b = a then some true else search a rest

variable (items : List α) (free : ℕ)

theorem length_cells : (cells items free).length = items.length + free := by
  rw [cells, List.length_append, List.length_map, List.length_replicate]

theorem take_cells : (cells items free).take items.length = items.map some := by
  rw [cells, List.take_left' (List.length_map _)]

/-- A cell behind the items is free, or it is not in the array. -/
theorem getElem?_cells (k : ℕ) :
    (cells items free)[items.length + k]? = if k < free then some none else none := by
  rw [cells, List.getElem?_append_right (by rw [List.length_map]; omega), List.length_map,
    Nat.add_sub_cancel_left, List.getElem?_replicate]

/-- **The first free cell is found.** -/
theorem findNull_cells : findNull (cells items (free + 1)) = some items.length := by
  induction items with
  | nil => rfl
  | cons a items ih =>
    show (findNull (cells items (free + 1))).map (· + 1) = _
    rw [ih]
    rfl

/-- Without a free cell the search runs out of the array. -/
theorem findNull_cells_zero : findNull (cells items 0) = none := by
  induction items with
  | nil => rfl
  | cons a items ih =>
    show (findNull (cells items 0)).map (· + 1) = _
    rw [ih]
    rfl

/-- **A search ends**, and finds what is among the items. -/
theorem search_cells [DecidableEq α] (a : α) :
    search a (cells items (free + 1)) = some (decide (a ∈ items)) := by
  induction items with
  | nil => rfl
  | cons b items ih =>
    show (if b = a then some true else search a (cells items (free + 1))) = _
    by_cases hab : b = a
    · rw [if_pos hab, hab, decide_eq_true List.mem_cons_self]
    · rw [if_neg hab, ih]
      congr 1
      exact decide_eq_decide.mpr (by simp [Ne.symm hab])

/-- An item is appended. -/
theorem set_cells (a : α) :
    (cells items (free + 1)).set items.length (some a) = cells (items ++ [a]) free := by
  have hlength : (items.map some).length = items.length := List.length_map _
  rw [cells, cells, List.set_append_right _ _ (by omega), hlength, Nat.sub_self,
    List.replicate_succ, List.set_cons_zero, List.map_append, List.append_assoc]
  rfl

end NullTerminated

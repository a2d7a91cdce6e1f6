import Mathlib.Algebra.BigOperators.Group.Finset.Basic
import Mathlib.Logic.Function.Basic
import Mathlib.Tactic.Common

/-!
# Objects on a heap

The objects of one type that a program has allocated, numbered in the order of their
allocation. A number is never used again: a freed object leaves an empty cell, so that
a reference that outlives its object can be told from every other one.

That cells not yet allocated are empty is a field of `Heap`, and every operation keeps
it.
-/

/-- The cells of the objects of one type. -/
@[ext] structure Heap (α : Type) where
  /-- The number of the next object. -/
  next : ℕ
  get : ℕ → Option α
  fresh : ∀ r, next ≤ r → get r = none

namespace Heap

variable {α : Type} (h : Heap α)

/-- The heap without objects. -/
def empty : Heap α where
  next := 0
  get := fun _ => none
  fresh := fun _ _ => rfl

/-- One more object, under the number `h.next`. -/
def alloc (a : α) : Heap α where
  next := h.next + 1
  get := Function.update h.get h.next (some a)
  fresh := fun r hr => by
    rw [Function.update_of_ne (by omega)]
    exact h.fresh r (by omega)

/-- Write to an object; there is no effect on an empty cell. -/
def set (r : ℕ) (a : α) : Heap α where
  next := h.next
  get := Function.update h.get r ((h.get r).map fun _ => a)
  fresh := fun k hk => by
    rw [Function.update_apply]
    split
    · rename_i heq
      rw [← heq, h.fresh k hk]
      rfl
    · exact h.fresh k hk

/-- Free an object. -/
def free (r : ℕ) : Heap α where
  next := h.next
  get := Function.update h.get r none
  fresh := fun k hk => by
    rw [Function.update_apply]
    split
    · rfl
    · exact h.fresh k hk

/-- Change the objects with some numbers. -/
def modify (l : List ℕ) (f : α → α) : Heap α where
  next := h.next
  get := fun r => if r ∈ l then (h.get r).map f else h.get r
  fresh := fun r hr => by
    rw [h.fresh r hr]
    exact ite_self _

/-- An object has a number below the next one. -/
theorem lt_next {h : Heap α} {r : ℕ} {a : α} (hr : h.get r = some a) : r < h.next := by
  by_contra hge
  rw [h.fresh r (by omega)] at hr
  exact Option.some_ne_none a hr.symm

theorem get_alloc (a : α) (r : ℕ) :
    (h.alloc a).get r = if r = h.next then some a else h.get r :=
  Function.update_apply h.get h.next (some a) r

/-- An object that is there is not the new one. -/
theorem get_alloc_of_get {h : Heap α} {r : ℕ} {a b : α} (hr : h.get r = some b) :
    (h.alloc a).get r = some b := by
  have hlt := lt_next hr
  rw [get_alloc, if_neg (by omega), hr]

theorem get_set {h : Heap α} {r : ℕ} {b : α} (hr : h.get r = some b) (a : α) (k : ℕ) :
    (h.set r a).get k = if k = r then some a else h.get k := by
  show Function.update h.get r ((h.get r).map fun _ => a) k = _
  rw [Function.update_apply, hr]
  rfl

/-- A write allocates and frees nothing. -/
theorem isSome_get_set (r k : ℕ) (a : α) : ((h.set r a).get k).isSome = (h.get k).isSome := by
  show (Function.update h.get r ((h.get r).map fun _ => a) k).isSome = _
  rw [Function.update_apply]
  split
  · rename_i heq
    rw [heq, Option.isSome_map]
  · rfl

@[simp] theorem next_set (r : ℕ) (a : α) : (h.set r a).next = h.next := rfl

/-- Of two writes to one object the second counts. -/
@[simp] theorem set_set (r : ℕ) (a b : α) : (h.set r a).set r b = h.set r b := by
  ext k : 2
  · rfl
  · have hr : ((h.set r a).get r).map (fun _ => b) = (h.get r).map fun _ => b := by
      show (Function.update h.get r _ r).map _ = _
      rw [Function.update_self, Option.map_map]
      rfl
    show Function.update (Function.update h.get r _) r (((h.set r a).get r).map _) k = _
    rw [hr, Function.update_idem]
    rfl

/-- To write what is there changes nothing. -/
theorem set_self {h : Heap α} {r : ℕ} {a : α} (hr : h.get r = some a) : h.set r a = h := by
  ext k : 2
  · rfl
  · rw [get_set hr]
    split
    · rw [‹k = r›, hr]
    · rfl

theorem get_free (r k : ℕ) : (h.free r).get k = if k = r then none else h.get k :=
  Function.update_apply h.get r none k

/-- An object that is freed need not have been written to. -/
@[simp] theorem free_set (r : ℕ) (a : α) : (h.set r a).free r = h.free r := by
  ext k : 2
  · rfl
  · rw [get_free, get_free]
    split
    · rfl
    · exact Function.update_of_ne ‹_› _ _

/-- What is there after an object has been freed was there before. -/
theorem get_of_get_free {h : Heap α} {r k : ℕ} {a : α} (hk : (h.free r).get k = some a) :
    k ≠ r ∧ h.get k = some a := by
  rw [get_free] at hk
  split at hk
  · simp at hk
  · exact ⟨‹_›, hk⟩

theorem get_modify (l : List ℕ) (f : α → α) (r : ℕ) :
    (h.modify l f).get r = if r ∈ l then (h.get r).map f else h.get r := rfl

/-- An object that is there after a change was there before. -/
theorem get_of_get_modify {h : Heap α} {l : List ℕ} {f : α → α} {r : ℕ} {b : α}
    (hr : (h.modify l f).get r = some b) :
    ∃ a, h.get r = some a ∧ (r ∈ l ∧ b = f a ∨ r ∉ l ∧ b = a) := by
  rw [get_modify] at hr
  split at hr
  · obtain ⟨a, ha, rfl⟩ := Option.map_eq_some_iff.mp hr
    exact ⟨a, ha, Or.inl ⟨‹_›, rfl⟩⟩
  · exact ⟨b, hr, Or.inr ⟨‹_›, rfl⟩⟩

@[simp] theorem modify_nil (f : α → α) : h.modify [] f = h := by
  ext r : 2
  · rfl
  · simp [get_modify]

/-- One object is changed before the others. -/
theorem modify_set {h : Heap α} {r : ℕ} {a : α} {f : α → α} (hr : h.get r = some a)
    (hf : f (f a) = f a) (l : List ℕ) : (h.set r (f a)).modify l f = h.modify (r :: l) f := by
  ext k : 2
  · rfl
  · rw [get_modify, get_modify, get_set hr]
    by_cases hk : k = r
    · subst hk
      simp [hr, hf]
    · simp [hk]

/-! ### Totals -/

/-- The sum of a number that each object has. -/
def total (f : α → ℕ) : ℕ := ∑ r ∈ Finset.range h.next, (h.get r).elim 0 f

variable {h} {r : ℕ} {a : α} {f : α → ℕ}

/-- The total is the number of one object and the sum over the other cells. -/
theorem total_eq (hr : h.get r = some a) :
    h.total f = f a + ∑ k ∈ (Finset.range h.next).erase r, (h.get k).elim 0 f := by
  rw [total, ← Finset.add_sum_erase _ _ (Finset.mem_range.mpr (lt_next hr)), hr, Option.elim_some]

/-- The number of one object is not more than the total. -/
theorem le_total (hr : h.get r = some a) : f a ≤ h.total f := by
  rw [total_eq hr]
  exact Nat.le_add_right _ _

/-- A write exchanges one number. -/
theorem total_set (hr : h.get r = some a) (b : α) :
    (h.set r b).total f + f a = h.total f + f b := by
  have hset : (h.set r b).get r = some b := (get_set hr b r).trans (if_pos rfl)
  have hrest : ∑ k ∈ (Finset.range h.next).erase r, ((h.set r b).get k).elim 0 f =
      ∑ k ∈ (Finset.range h.next).erase r, (h.get k).elim 0 f :=
    Finset.sum_congr rfl fun k hk => by rw [get_set hr, if_neg (Finset.ne_of_mem_erase hk)]
  rw [total_eq hset, total_eq hr, next_set, hrest]
  omega

/-- An object that is freed is not counted any more. -/
theorem total_free (hr : h.get r = some a) : (h.free r).total f + f a = h.total f := by
  have hrest : ∑ k ∈ (Finset.range h.next).erase r, ((h.free r).get k).elim 0 f =
      ∑ k ∈ (Finset.range h.next).erase r, (h.get k).elim 0 f :=
    Finset.sum_congr rfl fun k hk => by rw [get_free, if_neg (Finset.ne_of_mem_erase hk)]
  have hcell : ((h.free r).get r).elim 0 f = 0 := by
    rw [get_free, if_pos rfl, Option.elim_none]
  have hlt : r < h.next := lt_next hr
  have hfree : (h.free r).total f =
      ∑ k ∈ (Finset.range h.next).erase r, ((h.free r).get k).elim 0 f := by
    rw [total, show (h.free r).next = h.next from rfl,
      ← Finset.add_sum_erase _ _ (Finset.mem_range.mpr hlt), hcell, Nat.zero_add]
  rw [total_eq hr, hfree, hrest, Nat.add_comm]

/-- A new object is counted. -/
theorem total_alloc (a : α) : (h.alloc a).total f = h.total f + f a := by
  have hrest : ∑ k ∈ Finset.range h.next, ((h.alloc a).get k).elim 0 f = h.total f :=
    Finset.sum_congr rfl fun k hk => by
      rw [get_alloc, if_neg (Finset.mem_range.mp hk).ne]
  have hcell : ((h.alloc a).get h.next).elim 0 f = f a := by
    rw [get_alloc, if_pos rfl, Option.elim_some]
  rw [total, show (h.alloc a).next = h.next + 1 from rfl, Finset.sum_range_succ, hrest, hcell]

end Heap

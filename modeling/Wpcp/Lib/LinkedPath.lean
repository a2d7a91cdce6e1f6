import Mathlib.Data.List.Basic
import Mathlib.Logic.Function.Basic

/-!
# Singly linked lists in a heap of next links

A heap of list cells is its next link, `next : α → Option α`, with `none` the
link that ends a list. `Linked.IsPath next p l` says that following the links from
`p` visits exactly the cells of `l` and then ends.

The facts are the ones a verification of pointer code needs: the cells a link
leads to are determined, storing into a cell that is not visited changes nothing
(`Linked.IsPath.update`), storing a fresh last cell into the last one visited
lengthens the list by it (`Linked.IsPath.snoc`), and where links only ever lead to
later cells a list visits its cells in their order (`Linked.IsPath.pairwise_lt`), and a walk
as long as the heap computes it (`Linked.isPath_walk`).
-/

namespace Linked

variable {α : Type*} {next : α → Option α}

/-- Following `next` from the link `p` visits exactly the cells of the list. -/
def IsPath (next : α → Option α) : Option α → List α → Prop
  | p, [] => p = none
  | p, a :: l => p = some a ∧ IsPath next (next a) l

@[simp] theorem isPath_nil {p : Option α} : IsPath next p [] ↔ p = none := Iff.rfl

@[simp] theorem isPath_cons {p : Option α} {a : α} {l : List α} :
    IsPath next p (a :: l) ↔ p = some a ∧ IsPath next (next a) l := Iff.rfl

@[simp] theorem isPath_none {l : List α} : IsPath next none l ↔ l = [] := by
  cases l <;> simp

theorem isPath_some {a : α} {l : List α} :
    IsPath next (some a) l ↔ ∃ l', l = a :: l' ∧ IsPath next (next a) l' := by
  cases l with
  | nil => simp
  | cons b l =>
    simp only [isPath_cons, Option.some.injEq, List.cons.injEq]
    constructor
    · rintro ⟨rfl, h⟩
      exact ⟨l, ⟨rfl, rfl⟩, h⟩
    · rintro ⟨l', ⟨rfl, rfl⟩, h⟩
      exact ⟨rfl, h⟩

/-- The cells a link leads to are determined. -/
theorem IsPath.unique {p : Option α} {l l' : List α} (h : IsPath next p l)
    (h' : IsPath next p l') : l = l' := by
  induction l generalizing p l' with
  | nil =>
    obtain rfl : p = none := h
    exact (isPath_none.mp h').symm
  | cons a l ih =>
    obtain ⟨rfl, h⟩ := h
    obtain ⟨l₁, rfl, h₁⟩ := isPath_some.mp h'
    rw [ih h h₁]

/-- From a cell on, a list visits what comes after it. -/
theorem IsPath.suffix {p : Option α} {l l' : List α} {a : α} (h : IsPath next p (l ++ a :: l')) :
    IsPath next (next a) l' := by
  induction l generalizing p with
  | nil => exact h.2
  | cons b l ih => exact ih h.2

/-- A list that ends visits no cell twice. -/
theorem IsPath.nodup {p : Option α} {l : List α} (h : IsPath next p l) : l.Nodup := by
  induction l generalizing p with
  | nil => exact .nil
  | cons a l ih =>
    refine List.nodup_cons.mpr ⟨fun ha => ?_, ih h.2⟩
    -- the list from a second visit on would be the list itself
    obtain ⟨before, after, rfl⟩ := List.append_of_mem ha
    have hlength := congrArg List.length (h.2.unique h.2.suffix)
    rw [List.length_append, List.length_cons] at hlength
    omega

/-- **Frame**: storing into a cell that is not visited leaves the list alone. -/
theorem IsPath.update [DecidableEq α] {p q : Option α} {l : List α} {b : α}
    (h : IsPath next p l) (hb : b ∉ l) : IsPath (Function.update next b q) p l := by
  induction l generalizing p with
  | nil => exact h
  | cons a l ih =>
    simp only [List.mem_cons, not_or] at hb
    refine ⟨h.1, ?_⟩
    rw [Function.update_of_ne (Ne.symm hb.1)]
    exact ih h.2 hb.2

/-- **Append**: storing a cell whose own link ends the list into the last cell
visited lengthens the list by that cell. -/
theorem IsPath.snoc [DecidableEq α] {p : Option α} {l : List α} {a b : α}
    (h : IsPath next p (l ++ [a])) (hl : a ∉ l) (hb : next b = none) (hba : b ≠ a) :
    IsPath (Function.update next a (some b)) p (l ++ [a] ++ [b]) := by
  induction l generalizing p with
  | nil =>
    refine ⟨h.1, ?_, ?_⟩
    · exact Function.update_self ..
    · rw [Function.update_of_ne hba]
      exact hb
  | cons c l ih =>
    simp only [List.mem_cons, not_or] at hl
    refine ⟨h.1, ?_⟩
    rw [Function.update_of_ne (Ne.symm hl.1)]
    exact ih h.2 hl.2

/-- Where links only lead to later cells, a list visits its cells in their order. -/
theorem IsPath.pairwise_lt {next : ℕ → Option ℕ} (hnext : ∀ a b, next a = some b → a < b)
    {p : Option ℕ} {l : List ℕ} (h : IsPath next p l) : l.Pairwise (· < ·) := by
  induction l generalizing p with
  | nil => exact .nil
  | cons a l ih =>
    obtain ⟨-, h⟩ := h
    refine List.pairwise_cons.mpr ⟨fun c hc => ?_, ih h⟩
    cases l with
    | nil => simp at hc
    | cons b l =>
      have hab := hnext a b h.1
      obtain rfl | hc := List.mem_cons.mp hc
      · exact hab
      · have hbc := (List.pairwise_cons.mp (ih h)).1 c hc
        omega

/-- A list only visits cells below the bound of its links. -/
theorem IsPath.lt_of_mem {next : ℕ → Option ℕ} {n : ℕ} (hnext : ∀ a b, next a = some b → b < n)
    {p : Option ℕ} {l : List ℕ} (h : IsPath next p l) (hp : ∀ a, p = some a → a < n) {a : ℕ}
    (ha : a ∈ l) : a < n := by
  induction l generalizing p with
  | nil => simp at ha
  | cons b l ih =>
    obtain ⟨rfl, h⟩ := h
    obtain rfl | ha := List.mem_cons.mp ha
    · exact hp a rfl
    · exact ih h (fun c hc => hnext b c hc) ha

/-- A cell whose link ends the list is the last one. -/
theorem IsPath.eq_concat {p : Option α} {l : List α} {a : α} (h : IsPath next p l) (ha : a ∈ l)
    (hend : next a = none) : ∃ l', l = l' ++ [a] := by
  induction l generalizing p with
  | nil => simp at ha
  | cons b l ih =>
    obtain ⟨-, h⟩ := h
    obtain rfl | ha := List.mem_cons.mp ha
    · rw [hend] at h
      exact ⟨[], by rw [isPath_none.mp h]; rfl⟩
    · obtain ⟨l', rfl⟩ := ih h ha
      exact ⟨b :: l', rfl⟩

/-- The cells a link leads to, along at most so many links. -/
def walk (next : α → Option α) : ℕ → Option α → List α
  | 0, _ => []
  | _ + 1, none => []
  | n + 1, some a => a :: walk next n (next a)

/-- **A walk as long as the heap visits the whole list.** -/
theorem isPath_walk {next : ℕ → Option ℕ} {n : ℕ}
    (hnext : ∀ a b, next a = some b → a < b ∧ b < n) {k : ℕ} {p : Option ℕ}
    (hp : ∀ a, p = some a → a < n ∧ n ≤ a + k) : IsPath next p (walk next k p) := by
  induction k generalizing p with
  | zero =>
    cases p with
    | none => rfl
    | some a =>
      have := hp a rfl
      omega
  | succ k ih =>
    cases p with
    | none => rfl
    | some a =>
      refine ⟨rfl, ih fun b hb => ?_⟩
      have hab := hnext a b hb
      have ha := hp a rfl
      omega

end Linked

import Wpcp.Lib.LinkedPath

/-!
# Doubly linked lists

Cells that are linked in both directions, in any number of lists at once: each list has a
first cell, and each cell a link to the next and one to the previous cell of its list. What a
program does with such a list is to put a cell in front (`Linked.Links.insert`) and to take a
cell out, wherever it is (`Linked.Links.remove`).

`Linked.Links.IsList` says that a list has certain cells, in both directions. **The two
operations make of it the list with one cell more in front, and the list without the cell**
(`Linked.Links.IsList.insert`, `Linked.Links.IsList.remove`), and they leave every list alone
that has none of the cells of the one they work on.
-/

namespace Linked

/-- The lists of cells of type `α`, one for each `κ`. -/
structure Links (κ α : Type*) where
  first : κ → Option α
  next : α → Option α
  prev : α → Option α

namespace Links

variable {κ α : Type*} [DecidableEq κ] [DecidableEq α]

/-- No list has a cell. -/
def empty : Links κ α where
  first _ := none
  next _ := none
  prev _ := none

/-- A cell whose link back is to be `p`, where there is one. -/
def setPrev (prev : α → Option α) (a p : Option α) : α → Option α :=
  a.elim prev fun a => Function.update prev a p

/-- To put a cell in front of a list. -/
def insert (links : Links κ α) (k : κ) (a : α) : Links κ α where
  first := Function.update links.first k (some a)
  next := Function.update links.next a (links.first k)
  prev := setPrev (Function.update links.prev a none) (links.first k) (some a)

/-- To take a cell out of a list: its neighbours, or the list, are linked past it. -/
def remove (links : Links κ α) (k : κ) (a : α) : Links κ α where
  first := (links.prev a).elim (Function.update links.first k (links.next a)) fun _ => links.first
  next := (links.prev a).elim links.next fun p => Function.update links.next p (links.next a)
  prev := setPrev links.prev (links.next a) (links.prev a)

/-- The links back from the cells of a list, of which the first has the link `p`. -/
def Backed (prev : α → Option α) : Option α → List α → Prop
  | _, [] => True
  | p, a :: l => prev a = p ∧ Backed prev (some a) l

/-- **The list has these cells**, in both directions. -/
structure IsList (links : Links κ α) (k : κ) (l : List α) : Prop where
  path : IsPath links.next (links.first k) l
  back : Backed links.prev none l

section Backed

variable {prev : α → Option α} {p q : Option α} {a : α} {l : List α}

omit [DecidableEq α] in
@[simp] theorem backed_nil : Backed prev p [] ↔ True := Iff.rfl

omit [DecidableEq α] in
@[simp] theorem backed_cons : Backed prev p (a :: l) ↔ prev a = p ∧ Backed prev (some a) l :=
  Iff.rfl

/-- A link back of a cell that is not in the list. -/
theorem Backed.update (h : Backed prev p l) (ha : a ∉ l) :
    Backed (Function.update prev a q) p l := by
  induction l generalizing p with
  | nil => trivial
  | cons b l ih =>
    simp only [List.mem_cons, not_or] at ha
    refine ⟨?_, ih h.2 ha.2⟩
    rw [Function.update_of_ne (Ne.symm ha.1)]
    exact h.1

theorem Backed.setPrev {o : Option α} (h : Backed prev p l) (ho : ∀ b ∈ o, b ∉ l) :
    Backed (setPrev prev o q) p l := by
  cases o with
  | none => exact h
  | some b => exact h.update (ho b rfl)

/-- The first cell of a list gets another link back. -/
theorem Backed.setPrev_head (h : Backed prev p l) (hl : l.Nodup) :
    Backed (Links.setPrev prev l.head? q) q l := by
  cases l with
  | nil => trivial
  | cons b l =>
    exact ⟨Function.update_self .., h.2.update (List.nodup_cons.mp hl).1⟩

omit [DecidableEq α] in
/-- The last of some cells, or the one before them. -/
theorem getLast?_cons_or (a : α) (l : List α) (p : Option α) :
    (a :: l).getLast?.or p = l.getLast?.or (some a) := by
  rw [List.getLast?_cons]
  cases l.getLast? with
  | none => rfl
  | some b => rfl

omit [DecidableEq α] in
/-- The link back of a cell is to the one before it. -/
theorem Backed.prev_eq {before after : List α} (h : Backed prev p (before ++ a :: after)) :
    prev a = before.getLast?.or p := by
  induction before generalizing p with
  | nil => exact h.1
  | cons b before ih => rw [ih h.2, getLast?_cons_or]

omit [DecidableEq α] in
theorem Backed.append {before after : List α} :
    Backed prev p (before ++ after) ↔
      Backed prev p before ∧ Backed prev (before.getLast?.or p) after := by
  induction before generalizing p with
  | nil => simp
  | cons b before ih =>
    rw [List.cons_append, backed_cons, backed_cons, ih, and_assoc, getLast?_cons_or]

end Backed

section Path

variable {next : α → Option α} {p : Option α} {a : α} {before after : List α}

omit [DecidableEq α] in
/-- What the link to a list is. -/
theorem IsPath.head_eq {l : List α} (h : IsPath next p l) : p = l.head? := by
  cases l with
  | nil => exact h
  | cons b l => exact h.1

omit [DecidableEq α] in
/-- The link of a cell is to the one behind it. -/
theorem IsPath.next_eq (h : IsPath next p (before ++ a :: after)) : next a = after.head? := by
  induction before generalizing p with
  | nil => exact IsPath.head_eq h.2
  | cons b before ih => exact ih h.2

/-- A cell of a list is linked past, from the one before it. -/
theorem IsPath.unlink {b : α} (h : IsPath next p (before ++ b :: a :: after))
    (hnodup : (before ++ b :: a :: after).Nodup) :
    IsPath (Function.update next b (next a)) p (before ++ b :: after) := by
  induction before generalizing p with
  | nil =>
    obtain ⟨rfl, -, hafter⟩ := h
    refine ⟨rfl, ?_⟩
    rw [Function.update_self]
    refine hafter.update ?_
    simp only [List.nil_append, List.nodup_cons, List.mem_cons, not_or] at hnodup
    exact hnodup.1.2
  | cons c before ih =>
    rw [List.cons_append, List.nodup_cons] at hnodup
    refine ⟨h.1, ?_⟩
    rw [Function.update_of_ne (by rintro rfl; exact hnodup.1 (by simp))]
    exact ih h.2 hnodup.2

end Path

namespace IsList

variable {links : Links κ α} {k k' : κ} {a : α} {l l' : List α}

omit [DecidableEq κ] [DecidableEq α] in
/-- **The links between neighbours are inverse to each other.** -/
theorem next_iff_prev (h : IsList links k l) (hnodup : l.Nodup) {a b : α} (ha : a ∈ l)
    (hb : b ∈ l) : links.next a = some b ↔ links.prev b = some a := by
  constructor
  · intro hnext
    obtain ⟨before, after, rfl⟩ := List.append_of_mem ha
    have hhead := IsPath.next_eq h.path
    rw [hnext] at hhead
    obtain ⟨after, rfl⟩ : ∃ after', after = b :: after' := by
      cases after with
      | nil => exact absurd hhead nofun
      | cons c after => exact ⟨after, by rw [Option.some.inj hhead]⟩
    have hback := h.back
    rw [show before ++ a :: b :: after = (before ++ [a]) ++ b :: after by simp] at hback
    simpa using hback.prev_eq
  · intro hprev
    obtain ⟨before, after, rfl⟩ := List.append_of_mem hb
    have hlast := h.back.prev_eq
    rw [hprev, Option.or_none] at hlast
    obtain ⟨before, rfl⟩ := List.getLast?_eq_some_iff.mp hlast.symm
    have hpath := h.path
    rw [List.append_assoc] at hpath
    exact IsPath.next_eq hpath

/-- **A cell is put in front of a list.** -/
theorem insert (h : IsList links k l) (ha : a ∉ l) (hl : l.Nodup) :
    IsList (links.insert k a) k (a :: l) := by
  have hfirst := IsPath.head_eq h.path
  refine ⟨⟨Function.update_self .., ?_⟩, ?_, ?_⟩
  · show IsPath (Function.update links.next a (links.first k))
      (Function.update links.next a (links.first k) a) l
    rw [Function.update_self]
    exact h.path.update ha
  · show setPrev (Function.update links.prev a none) (links.first k) (some a) a = none
    rw [hfirst]
    cases l with
    | nil => exact Function.update_self ..
    | cons b l =>
      rw [setPrev, List.head?_cons, Option.elim_some, Function.update_of_ne (by
        rintro rfl
        exact ha List.mem_cons_self)]
      exact Function.update_self ..
  · show Backed (setPrev (Function.update links.prev a none) (links.first k) (some a)) _ _
    rw [hfirst]
    exact (h.back.update ha).setPrev_head hl

/-- **Another list** than the one a cell is put in front of. -/
theorem insert_of_ne (h : IsList links k l) (h' : IsList links k' l') (hne : k' ≠ k) (ha : a ∉ l')
    (hdisjoint : l'.Disjoint l) : IsList (links.insert k a) k' l' := by
  refine ⟨?_, ?_⟩
  · show IsPath _ (Function.update links.first k (some a) k') _
    rw [Function.update_of_ne hne]
    exact h'.path.update ha
  · refine (h'.back.update ha).setPrev fun b hb hmem => ?_
    rw [IsPath.head_eq h.path] at hb
    exact hdisjoint hmem (List.mem_of_mem_head? hb)

/-- **A cell is taken out of a list**, wherever it is. -/
theorem remove (h : IsList links k l) (ha : a ∈ l) (hl : l.Nodup) :
    IsList (links.remove k a) k (l.erase a) := by
  obtain ⟨before, after, rfl⟩ := List.append_of_mem ha
  obtain ⟨-, hright, hdisjoint⟩ := List.nodup_append.mp hl
  have hnotMem : a ∉ before := fun hmem => hdisjoint a hmem a List.mem_cons_self rfl
  rw [List.erase_append_right _ hnotMem, List.erase_cons_head]
  have hnext : links.next a = after.head? := IsPath.next_eq h.path
  have hprev := h.back.prev_eq
  rw [Option.or_none] at hprev
  have hback : Backed (setPrev links.prev after.head? before.getLast?) none (before ++ after) := by
    obtain ⟨hbefore, hafter⟩ := Backed.append.mp h.back
    rw [Backed.append, Option.or_none]
    refine ⟨hbefore.setPrev fun b hb hmem => ?_, ?_⟩
    · exact hdisjoint b hmem b (List.mem_cons_of_mem _ (List.mem_of_mem_head? hb)) rfl
    · exact hafter.2.setPrev_head (List.nodup_cons.mp hright).2
  rcases List.eq_nil_or_concat before with rfl | ⟨before, b, rfl⟩
  · -- the first cell: the list begins behind it
    refine ⟨?_, ?_⟩
    · simp only [Links.remove, hprev, hnext, List.getLast?_nil, Option.elim_none,
        Function.update_self, List.nil_append]
      have hafter := h.path.2
      rwa [hnext] at hafter
    · simpa only [Links.remove, hprev, hnext] using hback
  · -- a cell behind another one, which is linked past it
    rw [List.concat_eq_append] at hprev hback hl ⊢
    have hpath := h.path
    rw [List.concat_eq_append, List.append_assoc, List.singleton_append] at hpath
    rw [List.append_assoc, List.singleton_append] at hl
    refine ⟨?_, ?_⟩
    · simp only [Links.remove, hprev, List.getLast?_append, List.getLast?_singleton, Option.some_or,
        Option.elim_some]
      rw [List.append_assoc, List.singleton_append]
      exact IsPath.unlink hpath hl
    · simpa only [Links.remove, hprev, hnext] using hback

/-- **Another list** than the one a cell is taken out of. -/
theorem remove_of_ne (h : IsList links k l) (h' : IsList links k' l') (hne : k' ≠ k) (ha : a ∈ l)
    (hdisjoint : l'.Disjoint l) : IsList (links.remove k a) k' l' := by
  obtain ⟨before, after, rfl⟩ := List.append_of_mem ha
  have hnext : links.next a = after.head? := IsPath.next_eq h.path
  have hprev := h.back.prev_eq
  rw [Option.or_none] at hprev
  have hback : Backed (setPrev links.prev after.head? before.getLast?) none l' := by
    refine h'.back.setPrev fun b hb hmem => hdisjoint hmem ?_
    exact List.mem_append_right _ (List.mem_cons_of_mem _ (List.mem_of_mem_head? hb))
  refine ⟨?_, by simpa only [Links.remove, hprev, hnext] using hback⟩
  cases hlast : before.getLast? with
  | none =>
    simp only [Links.remove, hprev, hlast, Option.elim_none, Function.update_of_ne hne]
    exact h'.path
  | some b =>
    simp only [Links.remove, hprev, hlast, Option.elim_some]
    refine h'.path.update fun hmem => hdisjoint hmem ?_
    exact List.mem_append_left _ (List.mem_of_getLast? hlast)

omit [DecidableEq κ] [DecidableEq α] in
/-- **To follow the links** as often as the list is long visits its cells. -/
theorem walk_eq (h : IsList links k l) : walk links.next l.length (links.first k) = l := by
  obtain ⟨hpath, -⟩ := h
  generalize links.first k = p at hpath
  induction l generalizing p with
  | nil => rfl
  | cons a l ih =>
    obtain ⟨rfl, hpath⟩ := hpath
    rw [List.length_cons, walk, ih _ hpath]

end IsList

end Links

end Linked

import Mathlib.Data.List.Nodup
import Mathlib.Logic.Function.Basic

/-!
# Entries that follow an answer

Requests are answered piece by piece, and an answer is sent when its last piece is there. With
a piece an item may be accepted; entries for the item must not be sent before the answer that
tells of it. A ledger says which entries are held back, and where: it knows what has been asked
for and accepted, what has been published and what has been answered, and nothing else.

`ρ` are the requests, `ι` the items, `ε` the entries and `μ` what identifies an answer.
-/

/-- What has been asked for, accepted, published and answered. -/
structure Ledger (ρ ι ε μ : Type) where
  /-- The requests whose answers are not complete, the last one first. -/
  outstanding : List ρ
  /-- How many pieces of an answer are missing. -/
  remaining : ρ → Option ℕ
  /-- The answer to a request. -/
  answer : ρ → Option μ
  /-- The request with whose answer an item has been accepted. -/
  acceptedBy : ι → Option ρ
  /-- The entries that are held back for the answer to a request. -/
  heldBack : ρ → List ε
  /-- The answers and the entries that have been sent. -/
  sent : List (μ ⊕ ε)

namespace Ledger

variable {ρ ι ε μ : Type} [DecidableEq ρ]

/-- Nothing has been done. -/
def empty : Ledger ρ ι ε μ where
  outstanding := []
  remaining := fun _ => none
  answer := fun _ => none
  acceptedBy := fun _ => none
  heldBack := fun _ => []
  sent := []

variable (L : Ledger ρ ι ε μ) (r : ρ) (it : ι) (e : ε)

/-- An answer of some pieces is asked for. -/
def request (answer : μ) (count : ℕ) : Ledger ρ ι ε μ :=
  { L with
    outstanding := r :: L.outstanding
    remaining := Function.update L.remaining r (some count)
    answer := Function.update L.answer r (some answer)
    heldBack := Function.update L.heldBack r [] }

/-- An item is accepted with an answer. -/
def accept [DecidableEq ι] : Ledger ρ ι ε μ :=
  { L with acceptedBy := Function.update L.acceptedBy it (some r) }

/-- The request for whose answer the entries of an item are held back: the one that has accepted
the item, as long as its answer is outstanding. -/
def holder : Option ρ := (L.acceptedBy it).filter (· ∈ L.outstanding)

/-- An entry is published to an item: it is held back, or sent. -/
def publish : Ledger ρ ι ε μ :=
  match L.holder it with
  | some r => { L with heldBack := Function.update L.heldBack r (L.heldBack r ++ [e]) }
  | none => { L with sent := L.sent ++ [.inr e] }

/-- One more piece of an answer is there. With the last one the answer is sent, and then, in
order, what was held back for it. -/
def release : Ledger ρ ι ε μ :=
  if L.remaining r = some 1 then
    { L with
      outstanding := L.outstanding.erase r
      sent := L.sent ++ ((L.answer r).toList.map .inl ++ (L.heldBack r).map .inr) }
  else { L with remaining := Function.update L.remaining r ((L.remaining r).map (· - 1)) }

theorem holder_eq_some {L : Ledger ρ ι ε μ} {r : ρ} {it : ι} :
    L.holder it = some r ↔ L.acceptedBy it = some r ∧ r ∈ L.outstanding := by
  rw [holder, Option.filter_eq_some_iff, decide_eq_true_iff]

theorem publish_of_holder {L : Ledger ρ ι ε μ} {r : ρ} {it : ι} (h : L.holder it = some r)
    (e : ε) : L.publish it e =
      { L with heldBack := Function.update L.heldBack r (L.heldBack r ++ [e]) } := by
  rw [publish, h]

theorem publish_of_holder_none {L : Ledger ρ ι ε μ} {it : ι} (h : L.holder it = none) (e : ε) :
    L.publish it e = { L with sent := L.sent ++ [.inr e] } := by
  rw [publish, h]

end Ledger

import Mathlib.Data.Nat.Basic
import Mathlib.Tactic.Common

/-!
# Stateful computations that can fail and can run on

An `Attempt σ ε α` is a computation on a state of type `σ`: it ends with a result of
type `α` or with a failure of type `ε`, in both cases in some state, or it has not
ended when its fuel is used up (`none`). A program that calls itself is an attempt for
every amount of fuel, and a program's loop is `Attempt.loop`, whose body says after
each round whether to go round again.

Seven rules carry the proofs about such programs.

* `Attempt.Extends` – **fuel does not matter**: what a computation does with some fuel
  it also does with more. The rules go along the construction of a computation
  (`Attempt.Extends.bind`, `Attempt.Extends.loop`).
* `Attempt.Keeps` – an assertion on states that survives every step survives the
  computation, however it ends.
* `Attempt.Ensures` – from a state with one assertion a computation ends with another, and
  its failures are of a given kind; the rules are those of a program logic.
* `Attempt.Returns` – from a state with one assertion a computation returns, and ends with
  another.
* `Attempt.Ends` – from every state a computation ends, with failures of a given kind only.
* `Attempt.Transfers` – what a computation returns from one state it returns from every related
  one.
* `Attempt.loop_ends` – a loop whose rounds make a measure smaller ends, with as much
  fuel as the measure says.
-/

/-- A computation on a state that ends with a result or a failure, or (`none`) has not
ended when its fuel is used up. -/
def Attempt (σ ε α : Type) : Type := σ → Option (Except ε α × σ)

namespace Attempt

variable {σ ε α β : Type}

/-- The computation on a given state. -/
def run (m : Attempt σ ε α) (s : σ) : Option (Except ε α × σ) := m s

/-- To go on with a result, and to stop at a failure. -/
protected def bind (m : Attempt σ ε α) (f : α → Attempt σ ε β) : Attempt σ ε β := fun s =>
  match m s with
  | none => none
  | some (.error e, t) => some (.error e, t)
  | some (.ok a, t) => f a t

instance : Monad (Attempt σ ε) where
  pure a := fun s => some (.ok a, s)
  bind := Attempt.bind

/-- To fail. -/
def fail (e : ε) : Attempt σ ε α := fun s => some (.error e, s)

/-- The computation that has no fuel. -/
def outOfFuel : Attempt σ ε α := fun _ => none

/-- A loop: the body says whether to go round again (`inl`) or to leave (`inr`). Each
round takes one unit of fuel. -/
def loop (body : β → Attempt σ ε (β ⊕ α)) : ℕ → β → Attempt σ ε α
  | 0, _ => outOfFuel
  | fuel + 1, b => do
    match ← body b with
    | .inl b => loop body fuel b
    | .inr a => pure a

section Run

variable {m : Attempt σ ε α} {f : α → Attempt σ ε β} {s t : σ}

@[simp] theorem run_pure (a : α) : (pure a : Attempt σ ε α).run s = some (.ok a, s) := rfl

@[simp] theorem run_fail (e : ε) : (fail e : Attempt σ ε α).run s = some (.error e, s) := rfl

@[simp] theorem run_outOfFuel : (outOfFuel : Attempt σ ε α).run s = none := rfl

theorem run_bind_none (h : m.run s = none) : (m >>= f).run s = none := by
  show Attempt.bind m f s = none
  simp only [Attempt.bind, show m s = none from h]

theorem run_bind_error {e : ε} (h : m.run s = some (.error e, t)) :
    (m >>= f).run s = some (.error e, t) := by
  show Attempt.bind m f s = some (.error e, t)
  simp only [Attempt.bind, show m s = some (.error e, t) from h]

theorem run_bind_ok {a : α} (h : m.run s = some (.ok a, t)) :
    (m >>= f).run s = (f a).run t := by
  show Attempt.bind m f s = f a t
  simp only [Attempt.bind, show m s = some (.ok a, t) from h]

/-- **How a sequence ends**: with the failure of its first part, or as its second part
ends from where the first has ended. -/
theorem run_bind_eq_some {o : Except ε β × σ} :
    (m >>= f).run s = some o ↔
      (∃ e t, m.run s = some (.error e, t) ∧ o = (.error e, t)) ∨
      (∃ a t, m.run s = some (.ok a, t) ∧ (f a).run t = some o) := by
  rcases hm : m.run s with _ | ⟨e | a, t⟩
  · simp [run_bind_none hm]
  · simp [run_bind_error hm, eq_comm]
  · simp [run_bind_ok hm]

/-- A sequence has not ended when its first part has not, or when its second part has
not from where the first has ended. -/
theorem run_bind_eq_none :
    (m >>= f).run s = none ↔
      m.run s = none ∨ ∃ a t, m.run s = some (.ok a, t) ∧ (f a).run t = none := by
  rcases hm : m.run s with _ | ⟨e | a, t⟩
  · simp [run_bind_none hm]
  · simp [run_bind_error hm]
  · simp [run_bind_ok hm]

/-- Three parts in sequence. -/
theorem bind_assoc {γ : Type} (g : β → Attempt σ ε γ) :
    (m >>= f) >>= g = m >>= fun a => f a >>= g := by
  funext s
  show Attempt.bind (Attempt.bind m f) g s = Attempt.bind m (fun a => Attempt.bind (f a) g) s
  rcases hm : m s with _ | ⟨e | a, t⟩
  · simp only [Attempt.bind, hm]
  · simp only [Attempt.bind, hm]
  · simp only [Attempt.bind, hm]

/-- One round of a loop. -/
theorem loop_succ (body : β → Attempt σ ε (β ⊕ α)) (fuel : ℕ) (b : β) :
    loop body (fuel + 1) b = body b >>= fun
      | .inl b => loop body fuel b
      | .inr a => pure a := rfl

/-- A loop whose first round goes round again. -/
theorem run_loop_inl {body : β → Attempt σ ε (β ⊕ α)} {fuel : ℕ} {b b' : β}
    (h : (body b).run s = some (.ok (.inl b'), t)) :
    (loop body (fuel + 1) b).run s = (loop body fuel b').run t := by
  rw [loop_succ, run_bind_ok h]

/-- A loop whose first round leaves. -/
theorem run_loop_inr {body : β → Attempt σ ε (β ⊕ α)} {fuel : ℕ} {b : β} {a : α}
    (h : (body b).run s = some (.ok (.inr a), t)) :
    (loop body (fuel + 1) b).run s = some (.ok a, t) := by
  rw [loop_succ, run_bind_ok h]
  rfl

end Run

/-! ### Fuel does not matter -/

/-- Whatever one computation ends with, the other ends with as well. -/
def Extends (m m' : Attempt σ ε α) : Prop := ∀ s o, m.run s = some o → m'.run s = some o

namespace Extends

theorem refl (m : Attempt σ ε α) : Extends m m := fun _ _ h => h

theorem trans {m₁ m₂ m₃ : Attempt σ ε α} (h : Extends m₁ m₂) (h' : Extends m₂ m₃) :
    Extends m₁ m₃ := fun s o ho => h' s o (h s o ho)

theorem outOfFuel (m : Attempt σ ε α) : Extends Attempt.outOfFuel m := by
  intro s o h
  simp at h

theorem bind {m m' : Attempt σ ε α} {f f' : α → Attempt σ ε β} (hm : Extends m m')
    (hf : ∀ a, Extends (f a) (f' a)) : Extends (m >>= f) (m' >>= f') := by
  intro s o h
  obtain ⟨e, t, he, rfl⟩ | ⟨a, t, ha, ho⟩ := run_bind_eq_some.mp h
  · exact run_bind_error (hm _ _ he)
  · rw [run_bind_ok (hm _ _ ha)]
    exact hf a t o ho

theorem ite {c : Prop} [Decidable c] {m₁ m₁' m₂ m₂' : Attempt σ ε α} (h₁ : Extends m₁ m₁')
    (h₂ : Extends m₂ m₂') : Extends (if c then m₁ else m₂) (if c then m₁' else m₂') := by
  split
  · exact h₁
  · exact h₂

/-- A loop with more fuel whose body has more fuel. -/
theorem loop {body body' : β → Attempt σ ε (β ⊕ α)} (hbody : ∀ b, Extends (body b) (body' b))
    {fuel fuel' : ℕ} (hle : fuel ≤ fuel') (b : β) :
    Extends (Attempt.loop body fuel b) (Attempt.loop body' fuel' b) := by
  induction fuel generalizing fuel' b with
  | zero => exact outOfFuel _
  | succ fuel ih =>
    obtain ⟨fuel', rfl⟩ := Nat.exists_eq_add_of_lt hle
    rw [show fuel + fuel' + 1 = (fuel + fuel') + 1 from rfl, loop_succ, loop_succ]
    refine bind (hbody b) ?_
    rintro (b | a)
    · exact ih (Nat.le_add_right _ _) b
    · exact refl _

/-- A computation extended by the next amount of fuel is extended by every larger
amount. -/
theorem of_succ {m : ℕ → Attempt σ ε α} (hm : ∀ fuel, Extends (m fuel) (m (fuel + 1)))
    {fuel fuel' : ℕ} (hle : fuel ≤ fuel') : Extends (m fuel) (m fuel') := by
  induction hle with
  | refl => exact refl _
  | step _ ih => exact ih.trans (hm _)

/-- **A computation that ends, ends in one way**, with whatever fuel it does. -/
theorem unique {m : ℕ → Attempt σ ε α} (hm : ∀ fuel, Extends (m fuel) (m (fuel + 1)))
    {fuel fuel' : ℕ} {s : σ} {o o' : Except ε α × σ} (h : (m fuel).run s = some o)
    (h' : (m fuel').run s = some o') : o = o' := by
  have hmax := of_succ hm (Nat.le_max_left fuel fuel') s o h
  rw [of_succ hm (Nat.le_max_right fuel fuel') s o' h'] at hmax
  exact (Option.some.inj hmax).symm

end Extends

/-! ### Assertions that survive -/

/-- An assertion on states that survives a computation, however it ends. -/
def Keeps (I : σ → Prop) (m : Attempt σ ε α) : Prop :=
  ∀ s o, I s → m.run s = some o → I o.2

namespace Keeps

variable {I : σ → Prop}

theorem pure (a : α) : Keeps I (Pure.pure a : Attempt σ ε α) := by
  intro s o hs h
  obtain rfl := Option.some.inj h
  exact hs

theorem fail (e : ε) : Keeps I (Attempt.fail e : Attempt σ ε α) := by
  intro s o hs h
  obtain rfl := Option.some.inj h
  exact hs

theorem outOfFuel : Keeps I (Attempt.outOfFuel : Attempt σ ε α) := by
  intro s o _ h
  simp at h

theorem bind {m : Attempt σ ε α} {f : α → Attempt σ ε β} (hm : Keeps I m)
    (hf : ∀ a, Keeps I (f a)) : Keeps I (m >>= f) := by
  intro s o hs h
  obtain ⟨e, t, he, rfl⟩ | ⟨a, t, ha, ho⟩ := run_bind_eq_some.mp h
  · exact hm s _ hs he
  · exact hf a t o (hm s _ hs ha) ho

theorem ite {c : Prop} [Decidable c] {m m' : Attempt σ ε α} (hm : Keeps I m)
    (hm' : Keeps I m') : Keeps I (if c then m else m') := by
  split
  · exact hm
  · exact hm'

theorem loop {body : β → Attempt σ ε (β ⊕ α)} (hbody : ∀ b, Keeps I (body b)) (fuel : ℕ)
    (b : β) : Keeps I (Attempt.loop body fuel b) := by
  induction fuel generalizing b with
  | zero => exact outOfFuel
  | succ fuel ih =>
    rw [loop_succ]
    refine bind (hbody b) ?_
    rintro (b | a)
    · exact ih b
    · exact pure a

end Keeps

/-! ### Assertions before and after -/

/-- From a state with `P`, a result and the state after it have `Q`, and a failure has
`E`. -/
def Ensures (P : σ → Prop) (m : Attempt σ ε α) (Q : α → σ → Prop) (E : ε → Prop) : Prop :=
  ∀ s, P s → ∀ r t, m.run s = some (r, t) →
    (∀ a, r = .ok a → Q a t) ∧ ∀ e, r = .error e → E e

namespace Ensures

variable {P P' : σ → Prop} {Q Q' : α → σ → Prop} {R : β → σ → Prop} {E E' : ε → Prop}

/-- What is ensured of a result. -/
theorem ok {m : Attempt σ ε α} (h : Ensures P m Q E) {s t : σ} {a : α} (hs : P s)
    (hrun : m.run s = some (.ok a, t)) : Q a t :=
  (h s hs _ _ hrun).1 a rfl

/-- What is ensured of a failure. -/
theorem error {m : Attempt σ ε α} (h : Ensures P m Q E) {s t : σ} {e : ε} (hs : P s)
    (hrun : m.run s = some (.error e, t)) : E e :=
  (h s hs _ _ hrun).2 e rfl

theorem pure {a : α} (h : ∀ s, P s → Q a s) :
    Ensures P (Pure.pure a : Attempt σ ε α) Q E := by
  intro s hs r t hrun
  obtain ⟨rfl, rfl⟩ := Prod.mk.inj (Option.some.inj hrun)
  refine ⟨fun b hb => ?_, fun e he => (nomatch he)⟩
  obtain rfl := Except.ok.inj hb
  exact h s hs

theorem fail {e : ε} (h : E e) : Ensures P (Attempt.fail e : Attempt σ ε α) Q E := by
  intro s _ r t hrun
  obtain ⟨rfl, rfl⟩ := Prod.mk.inj (Option.some.inj hrun)
  refine ⟨fun a ha => (nomatch ha), fun e' he => ?_⟩
  obtain rfl := Except.error.inj he
  exact h

theorem outOfFuel : Ensures P (Attempt.outOfFuel : Attempt σ ε α) Q E :=
  fun _ _ _ _ hrun => nomatch hrun

/-- **The rule for sequences.** -/
theorem bind {m : Attempt σ ε α} {f : α → Attempt σ ε β} (hm : Ensures P m Q E)
    (hf : ∀ a, Ensures (Q a) (f a) R E) : Ensures P (m >>= f) R E := by
  intro s hs r t hrun
  obtain ⟨e, t', he, ho⟩ | ⟨a, t', ha, ho⟩ := run_bind_eq_some.mp hrun
  · obtain ⟨rfl, rfl⟩ := Prod.mk.inj ho
    refine ⟨fun b hb => (nomatch hb), fun e' he' => ?_⟩
    obtain rfl := Except.error.inj he'
    exact hm.error hs he
  · exact hf a t' (hm.ok hs ha) r t ho

/-- The rule of consequence. -/
theorem imp {m : Attempt σ ε α} (h : Ensures P m Q E) (hP : ∀ s, P' s → P s)
    (hQ : ∀ a s, Q a s → Q' a s) (hE : ∀ e, E e → E' e) : Ensures P' m Q' E' :=
  fun s hs r t hrun =>
    ⟨fun a ha => hQ a t ((h s (hP s hs) r t hrun).1 a ha),
      fun e he => hE e ((h s (hP s hs) r t hrun).2 e he)⟩

/-- A computation whose end is known. -/
theorem of_run {m : Attempt σ ε α}
    (h : ∀ s, P s → ∃ r t, m.run s = some (r, t) ∧
      (∀ a, r = .ok a → Q a t) ∧ ∀ e, r = .error e → E e) : Ensures P m Q E := by
  intro s hs r t hrun
  obtain ⟨r', t', hrun', h⟩ := h s hs
  rw [hrun'] at hrun
  obtain ⟨rfl, rfl⟩ := Prod.mk.inj (Option.some.inj hrun)
  exact h

/-- Two assertions are carried along side by side. -/
theorem and {m : Attempt σ ε α} (h : Ensures P m Q E) (h' : Ensures P' m Q' E') :
    Ensures (fun s => P s ∧ P' s) m (fun a s => Q a s ∧ Q' a s) fun e => E e ∧ E' e :=
  fun s hs r t hrun =>
    ⟨fun a ha => ⟨(h s hs.1 r t hrun).1 a ha, (h' s hs.2 r t hrun).1 a ha⟩,
      fun e he => ⟨(h s hs.1 r t hrun).2 e he, (h' s hs.2 r t hrun).2 e he⟩⟩

theorem ite {c : Prop} [Decidable c] {m m' : Attempt σ ε α}
    (h : c → Ensures P m Q E) (h' : ¬c → Ensures P m' Q E) :
    Ensures P (if c then m else m') Q E := by
  split
  · exact h ‹_›
  · exact h' ‹_›

/-- Nothing is ensured. -/
theorem anything {m : Attempt σ ε α} : Ensures P m (fun _ _ => True) fun _ => True :=
  fun _ _ _ _ _ => ⟨fun _ _ => trivial, fun _ _ => trivial⟩

/-- A fact that the states with `P` give away may be used. -/
theorem assume {p : Prop} {m : Attempt σ ε α} (hp : ∀ s, P s → p) (h : p → Ensures P m Q E) :
    Ensures P m Q E :=
  fun s hs => h (hp s hs) s hs

/-- **The rule for loops**: `I` holds before each round. -/
theorem loop {body : β → Attempt σ ε (β ⊕ α)} {I : β → σ → Prop}
    (hbody : ∀ b, Ensures (I b) (body b) (fun r s => r.elim (fun b => I b s) fun a => Q a s) E)
    (fuel : ℕ) (b : β) : Ensures (I b) (Attempt.loop body fuel b) Q E := by
  induction fuel generalizing b with
  | zero => exact outOfFuel
  | succ fuel ih =>
    rw [loop_succ]
    refine bind (hbody b) ?_
    rintro (b | a)
    · exact ih b
    · exact pure fun _ h => h

end Ensures

/-! ### Computations that return -/

/-- From a state with `P` a computation returns, with a result and in a state that have `Q`. -/
def Returns (P : σ → Prop) (m : Attempt σ ε α) (Q : α → σ → Prop) : Prop :=
  ∀ s, P s → ∃ a t, m.run s = some (.ok a, t) ∧ Q a t

namespace Returns

variable {P P' : σ → Prop} {Q Q' : α → σ → Prop} {R : β → σ → Prop}

theorem pure {a : α} (h : ∀ s, P s → Q a s) : Returns P (Pure.pure a : Attempt σ ε α) Q :=
  fun s hs => ⟨a, s, rfl, h s hs⟩

/-- The rule for sequences. -/
theorem bind {m : Attempt σ ε α} {f : α → Attempt σ ε β} (hm : Returns P m Q)
    (hf : ∀ a, Returns (Q a) (f a) R) : Returns P (m >>= f) R := by
  intro s hs
  obtain ⟨a, t, hrun, ht⟩ := hm s hs
  obtain ⟨b, u, hrun', hu⟩ := hf a t ht
  exact ⟨b, u, (run_bind_ok hrun).trans hrun', hu⟩

/-- The rule of consequence. -/
theorem imp {m : Attempt σ ε α} (h : Returns P m Q) (hP : ∀ s, P' s → P s)
    (hQ : ∀ a s, Q a s → Q' a s) : Returns P' m Q' := by
  intro s hs
  obtain ⟨a, t, hrun, ht⟩ := h s (hP s hs)
  exact ⟨a, t, hrun, hQ a t ht⟩

theorem ite {c : Prop} [Decidable c] {m m' : Attempt σ ε α} (h : c → Returns P m Q)
    (h' : ¬c → Returns P m' Q) : Returns P (if c then m else m') Q := by
  split
  · exact h ‹_›
  · exact h' ‹_›

end Returns

/-! ### Computations that end -/

/-- From every state a computation ends, and its failures are of a given kind. -/
def Ends (m : Attempt σ ε α) (E : ε → Prop) : Prop :=
  ∀ s, ∃ r t, m.run s = some (r, t) ∧ ∀ e, r = .error e → E e

namespace Ends

variable {E : ε → Prop}

theorem pure (a : α) : Ends (Pure.pure a : Attempt σ ε α) E :=
  fun s => ⟨.ok a, s, rfl, fun _ he => by cases he⟩

theorem fail {e : ε} (h : E e) : Ends (Attempt.fail e : Attempt σ ε α) E := by
  refine fun s => ⟨.error e, s, rfl, fun e' he => ?_⟩
  obtain rfl := Except.error.inj he
  exact h

/-- The rule for sequences. -/
theorem bind {m : Attempt σ ε α} {f : α → Attempt σ ε β} (hm : Ends m E)
    (hf : ∀ a, Ends (f a) E) : Ends (m >>= f) E := by
  intro s
  obtain ⟨e | a, t, hrun, he⟩ := hm s
  · refine ⟨.error e, t, run_bind_error hrun, fun e' he' => ?_⟩
    obtain rfl := Except.error.inj he'
    exact he _ rfl
  · obtain ⟨r, u, hrun', hr⟩ := hf a t
    exact ⟨r, u, (run_bind_ok hrun).trans hrun', hr⟩

theorem ite {c : Prop} [Decidable c] {m m' : Attempt σ ε α} (h : Ends m E) (h' : Ends m' E) :
    Ends (if c then m else m') E := by
  split
  · exact h
  · exact h'

end Ends

/-! ### Results from related states -/

/-- A result from one state is the result from every related one, and the states after it are
related; nothing is said of failures. -/
def Transfers (r : σ → σ → Prop) (m : Attempt σ ε α) : Prop :=
  ∀ s s' a t, r s s' → m.run s = some (.ok a, t) → ∃ t', m.run s' = some (.ok a, t') ∧ r t t'

namespace Transfers

variable {r : σ → σ → Prop}

theorem pure (a : α) : Transfers r (Pure.pure a : Attempt σ ε α) := by
  intro s s' a t hs h
  obtain ⟨ha, rfl⟩ := Prod.mk.inj (Option.some.inj h)
  exact ⟨s', congrArg (fun a => some (a, s')) ha, hs⟩

theorem fail (e : ε) : Transfers r (Attempt.fail e : Attempt σ ε α) := by
  intro s s' a t _ h
  exact absurd (Prod.mk.inj (Option.some.inj h)).1 (by simp)

theorem outOfFuel : Transfers r (Attempt.outOfFuel : Attempt σ ε α) := by
  intro s s' a t _ h
  simp at h

/-- The rule for sequences. -/
theorem bind {m : Attempt σ ε α} {f : α → Attempt σ ε β} (hm : Transfers r m)
    (hf : ∀ a, Transfers r (f a)) : Transfers r (m >>= f) := by
  intro s s' b t hs h
  obtain ⟨e, u, -, ho⟩ | ⟨a, u, ha, hb⟩ := run_bind_eq_some.mp h
  · exact absurd (Prod.mk.inj ho).1 (by simp)
  · obtain ⟨u', ha', hu⟩ := hm s s' a u hs ha
    obtain ⟨t', hb', ht⟩ := hf a u u' b t hu hb
    exact ⟨t', (run_bind_ok ha').trans hb', ht⟩

theorem ite {c : Prop} [Decidable c] {m m' : Attempt σ ε α} (hm : Transfers r m)
    (hm' : Transfers r m') : Transfers r (if c then m else m') := by
  split
  · exact hm
  · exact hm'

theorem loop {body : β → Attempt σ ε (β ⊕ α)} (hbody : ∀ b, Transfers r (body b)) (fuel : ℕ)
    (b : β) : Transfers r (Attempt.loop body fuel b) := by
  induction fuel generalizing b with
  | zero => exact outOfFuel
  | succ fuel ih =>
    rw [loop_succ]
    refine bind (hbody b) ?_
    rintro (b | a)
    · exact ih b
    · exact pure a

end Transfers

/-! ### Loops that end -/

/-- **A loop whose rounds make a measure smaller ends**: the body has to end where the
measure is below a bound, and one unit of fuel more than the measure is enough. -/
theorem loop_ends {body : β → Attempt σ ε (β ⊕ α)} (measure : σ → ℕ) {bound fuel : ℕ}
    (hbody : ∀ b s, measure s < bound → (body b).run s ≠ none)
    (hround : ∀ b s b' t, (body b).run s = some (.ok (.inl b'), t) → measure t < measure s)
    {b : β} {s : σ} (hbound : measure s < bound) (hfuel : measure s < fuel) :
    (loop body fuel b).run s ≠ none := by
  induction fuel generalizing b s with
  | zero => omega
  | succ fuel ih =>
    rw [loop_succ]
    intro hnone
    obtain hnone | ⟨b' | a, t, hb, hnone⟩ := run_bind_eq_none.mp hnone
    · exact hbody b s hbound hnone
    · have hlt := hround b s b' t hb
      exact ih (by omega) (by omega) hnone
    · simp at hnone

end Attempt

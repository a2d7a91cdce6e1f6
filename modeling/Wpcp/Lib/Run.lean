import Mathlib.Data.List.Basic

/-!
# Runs of a guarded transition system

A system is a partial step function `step : σ → α → Option σ`: from a state, an
action either leads to one state or is not available. Everything later is about
**runs whose steps are admitted**, `Transition.Run step ok`: a sequence of steps,
each taken in a state where the guard `ok` allows the action. The plain runs are
those of the guard that allows everything.

The guard is what lets a statement name the branch of a program that goes wrong
and speak about the runs that stay out of it. One rule carries every such
statement, `Transition.Run.invariant`: what the first state has and every
admitted step keeps, holds at the end of every admitted run.
-/

namespace Transition

variable {σ α : Type*} {step : σ → α → Option σ} {ok ok' : σ → α → Prop}

/-- A run from a state to a state along a list of actions, each of them allowed
by the guard in the state it is taken in. -/
inductive Run (step : σ → α → Option σ) (ok : σ → α → Prop) (s : σ) : List α → σ → Prop
  /-- The run that takes no step. -/
  | nil : Run step ok s [] s
  /-- A run followed by one more admitted step. -/
  | snoc {t u : σ} {as : List α} {a : α} :
      Run step ok s as t → ok t a → step t a = some u → Run step ok s (as ++ [a]) u

/-- The guard that allows every action. -/
def anyStep (_ : σ) (_ : α) : Prop := True

instance (s : σ) (a : α) : Decidable (anyStep s a) := inferInstanceAs (Decidable True)

/-- **The invariant rule**: an assertion on the actions taken so far and the state
reached that holds at the start and survives every admitted step holds at the end
of every admitted run. -/
theorem Run.invariant {motive : List α → σ → Prop} {s t : σ} {as : List α}
    (hrun : Run step ok s as t) (hinit : motive [] s)
    (hstep : ∀ as t a u, motive as t → ok t a → step t a = some u → motive (as ++ [a]) u) :
    motive as t := by
  induction hrun with
  | nil => exact hinit
  | snoc _ hok hst ih => exact hstep _ _ _ _ ih hok hst

/-- The run a list of actions drives, where every action is available and
allowed; `none` as soon as one is not. -/
def execute (step : σ → α → Option σ) (ok : σ → α → Prop) [∀ s a, Decidable (ok s a)] :
    σ → List α → Option σ
  | s, [] => some s
  | s, a :: as => if ok s a then (step s a).bind fun t => execute step ok t as else none

/-- A run without steps ends where it starts. -/
theorem Run.eq_of_nil {s t : σ} (h : Run step ok s [] t) : s = t := by
  generalize hnil : ([] : List α) = as at h
  cases h with
  | nil => rfl
  | snoc => exact absurd hnil (by simp)

/-- An admitted step put in front of a run. -/
theorem Run.cons {s t u : σ} {a : α} {as : List α} (hok : ok s a) (hst : step s a = some t)
    (hrun : Run step ok t as u) : Run step ok s (a :: as) u := by
  induction hrun with
  | nil => exact .snoc .nil hok hst
  | snoc _ hok' hst' ih => exact .snoc ih hok' hst'

/-- A run that takes a step starts with it. -/
theorem Run.exists_of_cons {s u : σ} {a : α} {as : List α} (h : Run step ok s (a :: as) u) :
    ∃ t, ok s a ∧ step s a = some t ∧ Run step ok t as u := by
  generalize hcons : a :: as = bs at h
  induction h generalizing as with
  | nil => exact absurd hcons nofun
  | @snoc t u before last hrun hok hst ih =>
    rcases before with _ | ⟨first, before⟩
    · obtain ⟨rfl, rfl⟩ := List.cons.inj hcons
      obtain rfl := hrun.eq_of_nil
      exact ⟨u, hok, hst, .nil⟩
    · obtain ⟨rfl, rfl⟩ := List.cons.inj hcons
      obtain ⟨t', hok', hst', hrest⟩ := ih rfl
      exact ⟨t', hok', hst', hrest.snoc hok hst⟩

/-- A run comes through the state that its first steps lead to. -/
theorem Run.exists_of_append {s u : σ} {before after : List α}
    (h : Run step ok s (before ++ after) u) :
    ∃ t, Run step ok s before t ∧ Run step ok t after u := by
  induction before generalizing s with
  | nil => exact ⟨s, .nil, h⟩
  | cons a before ih =>
    obtain ⟨t, hok, hst, hrest⟩ := h.exists_of_cons
    obtain ⟨t', hbefore, hafter⟩ := ih hrest
    exact ⟨t', .cons hok hst hbefore, hafter⟩

/-- **What `Transition.execute` computes is a run.** -/
theorem run_of_execute [∀ s a, Decidable (ok s a)] {s t : σ} {as : List α}
    (h : execute step ok s as = some t) : Run step ok s as t := by
  induction as generalizing s with
  | nil =>
    obtain rfl : s = t := by simpa [execute] using h
    exact .nil
  | cons a as ih =>
    rw [execute] at h
    split at h
    · rename_i hok
      obtain ⟨u, hu, hrest⟩ := Option.bind_eq_some_iff.mp h
      exact .cons hok hu (ih hrest)
    · simp at h

/-- A run along given actions ends in one state, whatever the guard. -/
theorem Run.unique {s t u : σ} {as : List α} (h : Run step ok s as t)
    (h' : Run step ok' s as u) : t = u := by
  induction h generalizing u with
  | nil =>
    generalize hnil : ([] : List α) = as at h'
    cases h' with
    | nil => rfl
    | snoc => simp at hnil
  | @snoc t₁ t₂ as a _ _ hst ih =>
    generalize hsnoc : as ++ [a] = bs at h'
    cases h' with
    | nil => simp at hsnoc
    | snoc hrun' _ hst' =>
      obtain ⟨rfl, hlast⟩ := List.append_inj' hsnoc rfl
      obtain rfl := List.singleton_inj.mp hlast
      obtain rfl := ih hrun'
      exact Option.some.inj (hst.symm.trans hst')

/-- A run whose actions `Transition.execute` also admits by another guard is a run of that
guard. -/
theorem Run.admitted [∀ s a, Decidable (ok' s a)] {s t : σ} {as : List α}
    (h : Run step ok s as t) (hsome : (execute step ok' s as).isSome) : Run step ok' s as t := by
  obtain ⟨u, hu⟩ := Option.isSome_iff_exists.mp hsome
  have hrun := run_of_execute hu
  rwa [h.unique hrun]

end Transition

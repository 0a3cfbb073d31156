import Mathlib.Control.Lawful

/-!
# Runs of a state-and-error program to a postcondition

`RunsTo x s P` says that the program `x` of `StateT σ (Except ε)`, run from
`s`, does not fail and ends with a result and a state that satisfy `P`: the
weakest precondition of `x` for `P`. A program is taken apart by
`runsTo_bind`, a lemma about a called function is used through
`RunsTo.mono`, and `runsTo_iff` turns a run that has been computed into the
postcondition.
-/

namespace Ctdb.Lib

variable {σ ε α β : Type}

/-- Run from `s`, `x` does not fail, and its result and final state satisfy `P`. -/
def RunsTo (x : StateT σ (Except ε) α) (s : σ) (P : α → σ → Prop) : Prop :=
  match x.run s with
  | .ok (a, s') => P a s'
  | .error _ => False

theorem runsTo_iff {x : StateT σ (Except ε) α} {s : σ} {P : α → σ → Prop} :
    RunsTo x s P ↔ ∃ a s', x.run s = .ok (a, s') ∧ P a s' := by
  unfold RunsTo
  cases x.run s with
  | error e => simp
  | ok r =>
      obtain ⟨a, s'⟩ := r
      exact ⟨fun h => ⟨a, s', rfl, h⟩, fun ⟨b, t, heq, h⟩ => by cases heq; exact h⟩

theorem runsTo_of_run {x : StateT σ (Except ε) α} {s s' : σ} {a : α} {P : α → σ → Prop}
    (h : x.run s = .ok (a, s')) : RunsTo x s P ↔ P a s' := by
  simp [RunsTo, h]

theorem RunsTo.mono {x : StateT σ (Except ε) α} {s : σ} {P Q : α → σ → Prop}
    (h : RunsTo x s P) (hPQ : ∀ a s', P a s' → Q a s') : RunsTo x s Q := by
  obtain ⟨a, s', hrun, hP⟩ := runsTo_iff.mp h
  exact runsTo_iff.mpr ⟨a, s', hrun, hPQ a s' hP⟩

@[simp] theorem runsTo_pure {a : α} {s : σ} {P : α → σ → Prop} :
    RunsTo (pure a : StateT σ (Except ε) α) s P ↔ P a s :=
  runsTo_of_run rfl

@[simp] theorem runsTo_bind {x : StateT σ (Except ε) α} {f : α → StateT σ (Except ε) β} {s : σ}
    {P : β → σ → Prop} :
    RunsTo (x >>= f) s P ↔ RunsTo x s fun a s' => RunsTo (f a) s' P := by
  unfold RunsTo
  rw [StateT.run_bind]
  cases x.run s with
  | error e => rfl
  | ok r => rfl

@[simp] theorem runsTo_map {x : StateT σ (Except ε) α} {f : α → β} {s : σ} {P : β → σ → Prop} :
    RunsTo (f <$> x) s P ↔ RunsTo x s fun a s' => P (f a) s' := by
  rw [← bind_pure_comp, runsTo_bind]
  simp only [runsTo_pure]

end Ctdb.Lib

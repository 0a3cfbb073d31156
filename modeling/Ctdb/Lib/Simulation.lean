import Mathlib.Logic.Relation

/-!
# Runs of a machine that can fail, and the abstract runs that follow them

A machine whose step either fails with an error or moves to a new state runs
over a list of inputs by `List.foldlM` in `Except`. `foldlM_simulation` is
forward simulation for such runs: a relation `I n s t` between the machine's
state after `n` steps and a state of an abstract machine, which every step
within a bound `N` on an input allowed by `P` keeps while the abstract state
stays or moves by one step of `R`, gives for every run of at most `N` allowed
inputs that the run does not fail and that it ends in a state related to one
that `R` reaches. The step count lets `I` carry a quantity that grows by a
bounded amount each step, so that it stays clear of a machine word's overflow
for that long; `P` lets `I` carry a fact that only some inputs keep.
`foldlM_simulation_trace` keeps the whole abstract run: one abstract state for
each prefix of the inputs, each at most one step of `R` after the last.
-/

namespace Ctdb.Lib

open Relation

section Simulation

variable {σ α ε τ : Type*} {f : σ → α → Except ε σ} {P : α → Prop} {R : τ → τ → Prop}
  {I : Nat → σ → τ → Prop} {N : Nat}

/-- One step within the bound on an allowed input keeps the relation, and the
abstract state stays or takes one step. -/
def StepSimulates (f : σ → α → Except ε σ) (P : α → Prop) (R : τ → τ → Prop)
    (I : Nat → σ → τ → Prop) (N : Nat) : Prop :=
  ∀ n < N, ∀ s a t, P a → I n s t → ∃ s' t', f s a = .ok s' ∧ I (n + 1) s' t' ∧ ReflGen R t t'

/-- A run of allowed inputs, from a related state after `m` steps, that stays
within the bound does not fail and ends related to an abstract state the start
reaches. -/
theorem foldlM_simulation_from (hstep : StepSimulates f P R I N) :
    ∀ (l : List α) (m : Nat) (s : σ) (t : τ), (∀ a ∈ l, P a) → I m s t → m + l.length ≤ N →
      ∃ s' t', l.foldlM f s = .ok s' ∧ I (m + l.length) s' t' ∧ ReflTransGen R t t'
  | [], m, s, t, _, hI, _ => ⟨s, t, rfl, hI, .refl⟩
  | a :: l, m, s, t, hP, hI, hlen => by
      have hm : m < N := by simp at hlen; omega
      obtain ⟨s₁, t₁, hrun, hI₁, hR₁⟩ := hstep m hm s a t (hP a List.mem_cons_self) hI
      have hlen' : (m + 1) + l.length ≤ N := by simp at hlen; omega
      obtain ⟨s', t', hrest, hI', hR'⟩ :=
        foldlM_simulation_from hstep l (m + 1) s₁ t₁ (fun b hb => hP b (List.mem_cons_of_mem a hb)) hI₁ hlen'
      refine ⟨s', t', ?_, ?_, ?_⟩
      · simp only [List.foldlM_cons, hrun]
        exact hrest
      · rwa [List.length_cons, ← Nat.add_assoc, Nat.add_right_comm]
      · cases hR₁ with
        | refl => exact hR'
        | single h => exact ReflTransGen.head h hR'

/-- A run of at most `N` allowed inputs from a related start does not fail, and
ends related to an abstract state the start reaches. -/
theorem foldlM_simulation (hstep : StepSimulates f P R I N) {s : σ} {t : τ} (hI : I 0 s t)
    {l : List α} (hP : ∀ a ∈ l, P a) (hlen : l.length ≤ N) :
    ∃ s' t', l.foldlM f s = .ok s' ∧ I l.length s' t' ∧ ReflTransGen R t t' := by
  have h := foldlM_simulation_from hstep l 0 s t hP hI (by omega)
  rwa [Nat.zero_add] at h

/-- The trace of a run: the abstract state related to the run of each prefix
of the inputs, each one at most one step of `R` from the one before. -/
theorem foldlM_simulation_trace (hstep : StepSimulates f P R I N) :
    ∀ (l : List α) (m : Nat) (s : σ) (t : τ), (∀ a ∈ l, P a) → I m s t → m + l.length ≤ N →
      ∃ ts : Nat → τ, ts 0 = t ∧
        (∀ i ≤ l.length, ∃ s', (l.take i).foldlM f s = .ok s' ∧ I (m + i) s' (ts i)) ∧
        ∀ i < l.length, ReflGen R (ts i) (ts (i + 1))
  | [], m, s, t, _, hI, _ => by
      refine ⟨fun _ => t, rfl, fun i hi => ?_, fun _ hi => absurd hi (Nat.not_lt_zero _)⟩
      obtain rfl : i = 0 := Nat.le_zero.mp hi
      exact ⟨s, rfl, hI⟩
  | a :: l, m, s, t, hP, hI, hlen => by
      have hm : m < N := by simp at hlen; omega
      obtain ⟨s₁, t₁, hrun, hI₁, hR₁⟩ := hstep m hm s a t (hP a List.mem_cons_self) hI
      have hlen' : (m + 1) + l.length ≤ N := by simp at hlen; omega
      obtain ⟨ts, hts, hprefix, hsteps⟩ :=
        foldlM_simulation_trace hstep l (m + 1) s₁ t₁ (fun b hb => hP b (List.mem_cons_of_mem a hb)) hI₁ hlen'
      -- the trace of `a :: l` is `t` followed by the trace of `l` from `t₁`
      refine ⟨fun i => Nat.casesOn i t ts, rfl, ?_, ?_⟩
      · intro i hi
        cases i with
        | zero => exact ⟨s, rfl, hI⟩
        | succ i =>
            obtain ⟨s', hrest, hI'⟩ := hprefix i (by simpa using hi)
            refine ⟨s', ?_, ?_⟩
            · simp only [List.take_succ_cons, List.foldlM_cons, hrun]
              exact hrest
            · rwa [Nat.add_right_comm, Nat.add_assoc] at hI'
      · intro i hi
        cases i with
        | zero =>
            show ReflGen R t (ts 0)
            rw [hts]
            exact hR₁
        | succ i => exact hsteps i (by simpa using hi)

/-- Two computations that fail together and succeed related stay so when each
goes on with a step that keeps the relation. -/
theorem optionRel_bind {β γ δ : Type*} {S : σ → β → Prop} {S' : γ → δ → Prop} {x : Option σ} {y : Option β}
    {g : σ → Option γ} {g' : β → Option δ} (h : Option.Rel S x y)
    (hg : ∀ a b, S a b → Option.Rel S' (g a) (g' b)) : Option.Rel S' (x.bind g) (y.bind g') := by
  cases h with
  | some hab => exact hg _ _ hab
  | none => exact .none

theorem optionRel_bind_same {γ δ : Type*} {S' : γ → δ → Prop} (x : Option σ) {g : σ → Option γ}
    {g' : σ → Option δ} (hg : ∀ a, Option.Rel S' (g a) (g' a)) : Option.Rel S' (x.bind g) (x.bind g') := by
  cases x with
  | none => exact .none
  | some a => exact hg a

theorem Option.Rel.eq_none_iff {β : Type*} {S : σ → β → Prop} {x : Option σ} {y : Option β}
    (h : Option.Rel S x y) : x = none ↔ y = none := by
  cases h <;> simp

theorem Option.Rel.isNone_eq {β : Type*} {S : σ → β → Prop} {x : Option σ} {y : Option β}
    (h : Option.Rel S x y) : x.isNone = y.isNone := by
  cases h <;> rfl

theorem Option.Rel.exists_of_some {β : Type*} {S : σ → β → Prop} {x : Option σ} {b : β}
    (h : Option.Rel S x (some b)) : ∃ a, x = some a ∧ S a b := by
  cases h with
  | some hab => exact ⟨_, rfl, hab⟩

/-- A property every successful step keeps holds after every successful run. -/
theorem foldlM_invariant {J : σ → Prop} (hstep : ∀ s a s', J s → f s a = .ok s' → J s') :
    ∀ (l : List α) {s s' : σ}, J s → l.foldlM f s = .ok s' → J s'
  | [], s, s', hs, h => by
      injection h with h
      exact h ▸ hs
  | a :: l, s, s', hs, h => by
      rw [List.foldlM_cons] at h
      cases hs₁ : f s a with
      | error e =>
          rw [hs₁] at h
          cases h
      | ok s₁ =>
          rw [hs₁] at h
          exact foldlM_invariant hstep l (hstep s a s₁ hs hs₁) h

end Simulation

end Ctdb.Lib

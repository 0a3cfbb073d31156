import Mathlib.Logic.Relation
import Mathlib.Logic.Function.Basic

/-!
# Handing a role on through its home node

A role that one node at a time may hold, such as the right to write a shared
record, is handed from node to node by messages. In the pattern modelled here
every hand-over passes by the role's *home* node, which therefore always
knows where to send a request for the role: a holder other than the home
gives the role to the home on behalf of the node that asked for it, and the
home keeps it or sends it on. `Place` is where the role is and `Place.Move`
is one hop of it.

A system with one such role for every key moves one of them at a time:
`KeyMove` lifts the hops of one role to the family, and
`KeyMove.reflTransGen_apply` takes a run of the family back to a run of
each role.
-/

namespace Ctdb.Lib

open Relation

/-- Where a role is: with a node, on its way from a node to the home on behalf
of another node, or on its way from the home to a node. -/
inductive Place (ν : Type*) where
  | held (n : ν)
  | toHome (src dst : ν)
  | fromHome (dst : ν)
  deriving DecidableEq

variable {ν κ β : Type*}

/-- One hop of the role whose home is `home`. -/
inductive Place.Move (home : ν) : Place ν → Place ν → Prop
  /-- A holder other than the home gives the role up for another node. -/
  | give {a b : ν} : a ≠ home → b ≠ a → Place.Move home (.held a) (.toHome a b)
  /-- The home as holder sends the role to another node. -/
  | send {b : ν} : b ≠ home → Place.Move home (.held home) (.fromHome b)
  /-- The home passes a role given up for another node on to it. -/
  | forward {a b : ν} : b ≠ home → Place.Move home (.toHome a b) (.fromHome b)
  /-- The home keeps a role given up for it. -/
  | reclaim {a : ν} : Place.Move home (.toHome a home) (.held home)
  /-- A node takes the role the home sent it. -/
  | take {b : ν} : Place.Move home (.fromHome b) (.held b)

/-- The role of one key hops and the role of every other key stays. -/
def KeyMove (R : κ → β → β → Prop) (f g : κ → β) : Prop :=
  ∃ k, R k (f k) (g k) ∧ ∀ k', k' ≠ k → g k' = f k'

variable {R : κ → β → β → Prop}

/-- Putting a role where it was, or one hop further, is at most one move of
the family. -/
theorem KeyMove.reflGen_update [DecidableEq κ] {f : κ → β} {k : κ} {b : β} (h : b = f k ∨ R k (f k) b) :
    ReflGen (KeyMove R) f (Function.update f k b) := by
  rcases h with rfl | hR
  · rw [Function.update_eq_self]
  · refine .single ⟨k, ?_, fun k' hk' => Function.update_of_ne hk' b f⟩
    rw [Function.update_self]
    exact hR

/-- A run of the family is a run of each key's role. -/
theorem KeyMove.reflTransGen_apply {f g : κ → β} (h : ReflTransGen (KeyMove R) f g) (k : κ) :
    ReflTransGen (R k) (f k) (g k) := by
  induction h with
  | refl => exact .refl
  | tail _ hstep ih =>
      obtain ⟨k₀, hR, hrest⟩ := hstep
      by_cases hk : k = k₀
      · subst hk
        exact ih.tail hR
      · rw [hrest k hk]
        exact ih

end Ctdb.Lib

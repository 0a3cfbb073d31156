import Mathlib.Data.List.Basic

/-!
# The one element that beats all the others

A relation `r` that is, on the elements of a list, transitive and total on
distinct elements has an element of the list related to every other one
(`exists_beatsAll`), the winner of a round-robin tournament; when `r` is
also asymmetric there, that element is the only one (`beatsAll_unique`).
The list may repeat elements.
-/

namespace Ctdb.Lib

variable {α : Type*} (r : α → α → Prop)

/-- `a` beats every element of `l` other than itself. -/
def BeatsAll (l : List α) (a : α) : Prop :=
  ∀ b ∈ l, b ≠ a → r a b

variable {r}

theorem exists_beatsAll : ∀ {l : List α}, l ≠ [] →
    (∀ a ∈ l, ∀ b ∈ l, ∀ c ∈ l, r a b → r b c → r a c) →
    (∀ a ∈ l, ∀ b ∈ l, a ≠ b → r a b ∨ r b a) → ∃ a ∈ l, BeatsAll r l a
  | [], hne, _, _ => absurd rfl hne
  | [x], _, _, _ => ⟨x, List.mem_singleton_self x, fun b hb hbx => absurd (List.mem_singleton.mp hb) hbx⟩
  | x :: y :: l, _, htrans, htotal => by
      have hsub : ∀ {a}, a ∈ y :: l → a ∈ x :: y :: l := List.mem_cons_of_mem x
      obtain ⟨t, ht, hbeat⟩ := exists_beatsAll (List.cons_ne_nil y l)
        (fun a ha b hb c hc => htrans a (hsub ha) b (hsub hb) c (hsub hc))
        (fun a ha b hb => htotal a (hsub ha) b (hsub hb))
      by_cases hxt : x = t
      · -- `x` is the winner of the tail already
        refine ⟨t, hsub ht, fun b hb hbt => ?_⟩
        rcases List.mem_cons.mp hb with rfl | hb
        · exact absurd hxt hbt
        · exact hbeat b hb hbt
      rcases htotal x List.mem_cons_self t (hsub ht) hxt with hx | ht'
      · -- `x` beats the winner of the tail, and through it the rest
        refine ⟨x, List.mem_cons_self, fun b hb hbx => ?_⟩
        rcases List.mem_cons.mp hb with rfl | hb
        · exact absurd rfl hbx
        by_cases hbt : b = t
        · exact hbt ▸ hx
        · exact htrans x List.mem_cons_self t (hsub ht) b (hsub hb) hx (hbeat b hb hbt)
      · refine ⟨t, hsub ht, fun b hb hbt => ?_⟩
        rcases List.mem_cons.mp hb with rfl | hb
        · exact ht'
        · exact hbeat b hb hbt

theorem beatsAll_unique {l : List α} (hasymm : ∀ a ∈ l, ∀ b ∈ l, r a b → ¬ r b a) {a a' : α}
    (ha : a ∈ l) (ha' : a' ∈ l) (h : BeatsAll r l a) (h' : BeatsAll r l a') : a' = a := by
  by_contra hne
  exact hasymm a ha a' ha' (h a' ha' hne) (h' a ha (Ne.symm hne))

end Ctdb.Lib

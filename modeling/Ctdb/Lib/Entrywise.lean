import Mathlib.Data.List.Forall2

/-!
# Lists related entry by entry

A pass that rewrites some entries of a list in place and leaves the others
alone relates the list before and after it entry by entry (`List.Forall₂`).
Passes run one after another compose, when the relation on entries does, and
rewriting one position keeps the relation when the relation is reflexive and
holds of the rewritten entry.
-/

namespace Ctdb.Lib

variable {α β γ : Type*}

theorem forall₂_trans {R : α → β → Prop} {S : β → γ → Prop} {T : α → γ → Prop}
    (h : ∀ a b c, R a b → S b c → T a c) :
    ∀ {l₁ l₂ l₃}, List.Forall₂ R l₁ l₂ → List.Forall₂ S l₂ l₃ → List.Forall₂ T l₁ l₃
  | _, _, _, .nil, .nil => .nil
  | _, _, _, .cons hab h₁, .cons hbc h₂ => .cons (h _ _ _ hab hbc) (forall₂_trans h h₁ h₂)

theorem forall₂_modify {R : α → α → Prop} {f : α → α} :
    ∀ {l : List α} {i : Nat}, (∀ x ∈ l, R x x) → (∀ h : i < l.length, R l[i] (f l[i])) →
      List.Forall₂ R l (l.modify i f)
  | [], _, _, _ => by rw [List.modify_nil]; exact .nil
  | x :: l, 0, hR, hf => by
      rw [List.modify_zero_cons]
      exact .cons (hf (Nat.succ_pos _)) (List.forall₂_same.mpr fun y hy => hR y (.tail _ hy))
  | x :: l, i + 1, hR, hf => by
      rw [List.modify_succ_cons]
      exact .cons (hR x List.mem_cons_self)
        (forall₂_modify (fun y hy => hR y (.tail _ hy)) fun h => hf (Nat.succ_lt_succ h))

theorem Forall₂.exists_of_mem_right {R : α → β → Prop} :
    ∀ {l₁ l₂}, List.Forall₂ R l₁ l₂ → ∀ {b}, b ∈ l₂ → ∃ a ∈ l₁, R a b
  | _, _, .nil, _, hb => absurd hb List.not_mem_nil
  | a :: _, _, .cons hab h, _, hb => by
      rcases List.mem_cons.mp hb with rfl | hb
      · exact ⟨a, List.mem_cons_self, hab⟩
      · obtain ⟨a', ha', hr⟩ := Forall₂.exists_of_mem_right h hb
        exact ⟨a', .tail _ ha', hr⟩

end Ctdb.Lib

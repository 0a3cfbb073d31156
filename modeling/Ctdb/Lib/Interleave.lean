import Mathlib

/-!
# Interleavings of ordered streams

Items sent on several channels, each delivering in order, arrive as one
sequence that keeps every channel's order and mixes the channels in any
way. `Interleaving ss out` says that `out` is such an arrival order for the
streams `ss`: each arrival is the front item of some stream that still has
one, until every stream is empty. No fairness and no order between streams
is assumed.

What all arrival orders share is what they hold (`Interleaving.perm`), hence
how often each item arrives (`Interleaving.count_eq`). When every stream
ends with the same marker, the arrival order ends with it as well
(`Interleaving.getLast?_eq`): the last marker comes after everything else.
-/

namespace Ctdb.Lib

variable {α : Type*}

/-- `out` is the items of the streams `ss`, taken one at a time from the front
of any stream. -/
inductive Interleaving : List (List α) → List α → Prop
  | done {ss : List (List α)} : (∀ s ∈ ss, s = []) → Interleaving ss []
  | take {pre post : List (List α)} {x : α} {xs out : List α} :
      Interleaving (pre ++ xs :: post) out → Interleaving (pre ++ (x :: xs) :: post) (x :: out)

namespace Interleaving

theorem perm {ss : List (List α)} {out : List α} (h : Interleaving ss out) :
    out.Perm ss.flatten := by
  induction h with
  | done hnil =>
      rw [List.flatten_eq_nil_iff.mpr hnil]
  | @take pre post x xs out _ ih =>
      simp only [List.flatten_append, List.flatten_cons] at ih ⊢
      rw [List.cons_append]
      exact (ih.cons x).trans List.perm_middle.symm

theorem count_eq [BEq α] {ss : List (List α)} {out : List α} (h : Interleaving ss out)
    (a : α) : out.count a = (ss.map (List.count a)).sum := by
  rw [h.perm.count_eq, List.count_flatten]

theorem mem {ss : List (List α)} {out : List α} (h : Interleaving ss out) {x : α}
    (hx : x ∈ out) : ∃ s ∈ ss, x ∈ s :=
  List.mem_flatten.mp (h.perm.subset hx)

/-- An empty stream changes nothing. -/
theorem cons_nil {ss : List (List α)} {out : List α} (h : Interleaving ss out) :
    Interleaving ([] :: ss) out := by
  induction h with
  | done hnil =>
      refine done fun s hs => ?_
      rcases List.mem_cons.mp hs with rfl | hs
      · rfl
      · exact hnil s hs
  | @take pre post x xs out _ ih =>
      exact @take _ ([] :: pre) post x xs out ih

/-- One stream after the other is an arrival order. -/
theorem flatten : ∀ ss : List (List α), Interleaving ss ss.flatten
  | [] => done fun _ hs => absurd hs List.not_mem_nil
  | [] :: ss => (flatten ss).cons_nil
  | (x :: xs) :: ss => @take _ [] ss x xs _ (flatten (xs :: ss))

theorem eq_nil_of_nil {ss : List (List α)} {out : List α} (h : Interleaving ss out)
    (hout : out = []) : ∀ s ∈ ss, s = [] := by
  cases h with
  | done hnil => exact hnil
  | take _ => cases hout

/-- When every stream ends with `m`, so do its interleavings. -/
theorem getLast?_eq {ss : List (List α)} {out : List α} (h : Interleaving ss out) {m : α}
    (hss : ∀ s ∈ ss, s = [] ∨ s.getLast? = some m) : out = [] ∨ out.getLast? = some m := by
  induction h with
  | done _ => exact Or.inl rfl
  | @take pre post x xs out hrest ih =>
      have hx : (x :: xs).getLast? = some m := by
        rcases hss (x :: xs) (List.mem_append_right pre List.mem_cons_self) with h | h
        · cases h
        · exact h
      -- what is left of the stream still ends with `m`
      have hxs : xs = [] ∨ xs.getLast? = some m := by
        cases xs with
        | nil => exact Or.inl rfl
        | cons y ys =>
            rw [List.getLast?_cons_cons] at hx
            exact Or.inr hx
      have hss' : ∀ s ∈ pre ++ xs :: post, s = [] ∨ s.getLast? = some m := by
        intro s hs
        rcases List.mem_append.mp hs with hs | hs
        · exact hss s (List.mem_append_left _ hs)
        rcases List.mem_cons.mp hs with rfl | hs
        · exact hxs
        · exact hss s (List.mem_append_right pre (List.mem_cons_of_mem _ hs))
      right
      rcases ih hss' with rfl | hlast
      · -- nothing arrives after `x`: every stream, `xs` among them, is empty
        have hnil : xs = [] :=
          hrest.eq_nil_of_nil rfl xs (List.mem_append_right pre List.mem_cons_self)
        subst hnil
        exact hx
      · rw [List.getLast?_cons, hlast]
        rfl

end Interleaving

end Ctdb.Lib

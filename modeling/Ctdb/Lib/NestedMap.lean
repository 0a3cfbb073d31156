import Mathlib.Data.List.Lex
import Ctdb.Lib.RbZipper

/-!
# Maps of maps, and walks that stop early

A map whose values are maps again stands for one map keyed by lists: the
entry `(ks, a)` of the value under `k` is the entry `(k :: ks, a)` of the
whole (`nestEntries`). When the outer keys strictly increase and each inner
list of keys is lexicographically increasing, so is the whole list
(`nestEntries_lex`): a walk in order over the outer map, and over each value
in order, meets the list keys in lexicographic order.

`stopFold` hands a callback the items of a list with a state, up to the first
non-zero answer. A walk over a concatenation, or over the values of a map of
maps, is a walk over the parts (`stopFold_append`, `stopFold_flatMap`).

In a list whose keys strictly increase, an entry is in it exactly when
`List.lookup` finds it (`lookup_eq_some_iff_mem`).
-/

namespace Ctdb.Lib

section StopFold

variable {α σ : Type}

/-- The items of `l` to `cb` in order, up to the first non-zero answer, which
is the result with the state then; `0` when no answer was non-zero. -/
def stopFold (cb : σ → α → Int × σ) : List α → σ → Int × σ
  | [], s => (0, s)
  | a :: l, s =>
      let (ret, s) := cb s a
      if ret ≠ 0 then (ret, s) else stopFold cb l s

@[simp]
theorem stopFold_singleton (cb : σ → α → Int × σ) (a : α) (s : σ) : stopFold cb [a] s = cb s a := by
  rcases h : cb s a with ⟨ret, s'⟩
  by_cases hr : ret = 0 <;> simp [stopFold, h, hr]

theorem stopFold_map {β : Type} (cb : σ → α → Int × σ) (f : β → α) (l : List β) (s : σ) :
    stopFold cb (l.map f) s = stopFold (fun s b => cb s (f b)) l s := by
  induction l generalizing s with
  | nil => rfl
  | cons b l ih => simp only [List.map_cons, stopFold, ih]

theorem stopFold_append (cb : σ → α → Int × σ) (l₁ l₂ : List α) (s : σ) :
    stopFold cb (l₁ ++ l₂) s =
      let (ret, s) := stopFold cb l₁ s
      if ret ≠ 0 then (ret, s) else stopFold cb l₂ s := by
  induction l₁ generalizing s with
  | nil => simp [stopFold]
  | cons a l₁ ih =>
      rcases h : cb s a with ⟨ret, s'⟩
      by_cases hr : ret = 0
      · simp [stopFold, h, hr, ih]
      · simp [stopFold, h, hr]

theorem stopFold_flatMap {β : Type} (cb : σ → α → Int × σ) (f : β → List α) (l : List β) (s : σ) :
    stopFold cb (l.flatMap f) s = stopFold (fun s b => stopFold cb (f b) s) l s := by
  induction l generalizing s with
  | nil => rfl
  | cons b l ih =>
      rw [List.flatMap_cons, stopFold_append, stopFold]
      rcases stopFold cb (f b) s with ⟨ret, s'⟩
      simp [ih]

end StopFold

section Nested

variable {κ β α : Type}

/-- The entries of a map of maps, each inner key with its outer key in front. -/
def nestEntries (l : List (κ × β)) (f : β → List (List κ × α)) : List (List κ × α) :=
  l.flatMap fun e => (f e.2).map fun x => (e.1 :: x.1, x.2)

theorem mem_nestEntries {l : List (κ × β)} {f : β → List (List κ × α)} {k : κ} {ks : List κ}
    {a : α} : (k :: ks, a) ∈ nestEntries l f ↔ ∃ b, (k, b) ∈ l ∧ (ks, a) ∈ f b := by
  simp [nestEntries]

theorem nil_not_mem_nestEntries (l : List (κ × β)) (f : β → List (List κ × α)) (a : α) :
    ([], a) ∉ nestEntries l f := by
  simp [nestEntries]

theorem nestEntries_cons (k : κ) (b : β) (l : List (κ × β)) (f : β → List (List κ × α)) :
    nestEntries ((k, b) :: l) f = (f b).map (fun x => (k :: x.1, x.2)) ++ nestEntries l f := by
  simp [nestEntries]

theorem map_snd_nestEntries (l : List (κ × β)) (f : β → List (List κ × α)) :
    (nestEntries l f).map Prod.snd = l.flatMap fun e => (f e.2).map Prod.snd := by
  simp [nestEntries, List.map_flatMap, Function.comp_def]

/-- The first entry of a map of maps is the first entry of its first value. -/
theorem map_snd_head_nestEntries_cons {k : κ} {b : β} (l : List (κ × β)) {f : β → List (List κ × α)}
    (hb : f b ≠ []) : (nestEntries ((k, b) :: l) f).head?.map Prod.snd = (f b).head?.map Prod.snd := by
  obtain ⟨x, xs, hx⟩ := List.exists_cons_of_ne_nil hb
  simp [nestEntries_cons, hx]

theorem nestEntries_lex [LT κ] {l : List (κ × β)} {f : β → List (List κ × α)}
    (hl : KeysSorted l) (hf : ∀ e ∈ l, ((f e.2).map Prod.fst).Pairwise (List.Lex (· < ·))) :
    ((nestEntries l f).map Prod.fst).Pairwise (List.Lex (· < ·)) := by
  induction l with
  | nil => simp [nestEntries]
  | cons e l ih =>
      obtain ⟨k, b⟩ := e
      rw [KeysSorted, List.pairwise_cons] at hl
      rw [nestEntries_cons, List.map_append, List.pairwise_append]
      refine ⟨?_, ih hl.2 fun e he => hf e (List.mem_cons_of_mem _ he), ?_⟩
      · -- one block: the same first key in front of lexicographically increasing keys
        have hb := hf (k, b) List.mem_cons_self
        rw [List.map_map]
        simpa [Function.comp_def, List.pairwise_map] using
          hb.imp fun h => List.Lex.cons h
      · -- across blocks: the first keys increase
        intro x hx y hy
        simp only [List.map_map, List.mem_map, Function.comp_apply] at hx
        obtain ⟨x', -, rfl⟩ := hx
        simp only [nestEntries, List.map_flatMap, List.map_map, List.mem_flatMap, List.mem_map,
          Function.comp_apply] at hy
        obtain ⟨e', he', y', -, rfl⟩ := hy
        exact List.Lex.rel (hl.1 e' he')

/-- The first entry of a list whose keys increase has the least key. -/
theorem least_of_head_eq {R : κ → κ → Prop} {l : List (κ × α)} (hl : (l.map Prod.fst).Pairwise R)
    {k : κ} {a : α} (hh : l.head? = some (k, a)) : ∀ e ∈ l, e.1 = k ∨ R k e.1 := by
  obtain ⟨rest, rfl⟩ : ∃ rest, l = (k, a) :: rest := by
    cases l with
    | nil => cases hh
    | cons e rest => exact ⟨rest, by simpa using hh⟩
  rw [List.map_cons, List.pairwise_cons] at hl
  intro e he
  rcases List.mem_cons.mp he with rfl | he
  · exact .inl rfl
  · exact .inr (hl.1 e.1 (List.mem_map_of_mem he))

end Nested

section Distinct

variable {κ α : Type} [BEq κ] [LawfulBEq κ]

/-- In a list whose keys are distinct, `List.lookup` finds exactly the entries. -/
theorem lookup_eq_some_iff_mem_of_nodup :
    ∀ {l : List (κ × α)}, (l.map Prod.fst).Nodup → ∀ (k : κ) (a : α), l.lookup k = some a ↔ (k, a) ∈ l
  | [], _, _, _ => by simp
  | (k', a') :: l, hd, k, a => by
      rw [List.map_cons, List.nodup_cons] at hd
      by_cases hk : k = k'
      · subst hk
        -- no later entry has the same key
        have hnot : ∀ b, (k, b) ∉ l := fun b hb => hd.1 (List.mem_map.mpr ⟨(k, b), hb, rfl⟩)
        simp only [List.lookup_cons, beq_self_eq_true, Option.some.injEq, List.mem_cons,
          Prod.mk.injEq, true_and]
        constructor
        · exact fun h => .inl h.symm
        · rintro (h | h)
          · exact h.symm
          · exact absurd h (hnot a)
      · rw [List.lookup_cons, beq_false_of_ne hk, lookup_eq_some_iff_mem_of_nodup hd.2]
        simp [hk]

end Distinct

section Lookup

variable {κ α : Type} [LT κ]

theorem keys_nodup_of_keysSorted (hirr : ∀ k : κ, ¬ k < k) {l : List (κ × α)} (hs : KeysSorted l) :
    (l.map Prod.fst).Nodup :=
  List.Pairwise.map Prod.fst (fun _ _ hlt heq => hirr _ (heq ▸ hlt)) hs

variable [BEq κ] [LawfulBEq κ]

/-- In a list whose keys strictly increase, `List.lookup` finds exactly the entries. -/
theorem lookup_eq_some_iff_mem (hirr : ∀ k : κ, ¬ k < k) {l : List (κ × α)} (hs : KeysSorted l)
    (k : κ) (a : α) : l.lookup k = some a ↔ (k, a) ∈ l :=
  lookup_eq_some_iff_mem_of_nodup (keys_nodup_of_keysSorted hirr hs) k a

end Lookup

end Ctdb.Lib

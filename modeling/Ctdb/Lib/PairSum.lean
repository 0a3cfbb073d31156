import Mathlib

/-!
# Sums over the pairs of a list that share a class

The entries of a list each fall in at most one class, and a weight is given
on pairs of entries. `pairSum` adds the weight of every pair of entries,
each pair once, that fall in the same class; `classSum c x l` adds the
weight of `x` against each entry of `l` in class `c`.

When one entry changes class and the weight does not tell the entry before
and after apart, the pair sum changes by the entry's weight against its new
class less its weight against its old one (`pairSum_move`, in the additive
form that needs no subtraction). With a symmetric weight this is what a
load-balancing move does to a potential that counts pairs.
-/

namespace Ctdb.Lib

variable {α κ : Type*} [DecidableEq κ] (cls : α → Option κ) (w : α → α → ℕ)

/-- The weight of `x` against `b` if `b` is in class `c`; nothing for no class. -/
def classTerm (c : Option κ) (x b : α) : ℕ :=
  match c with
  | none => 0
  | some k => if cls b = some k then w x b else 0

/-- The weight of `x` against the entries of `l` in class `c`. -/
def classSum (c : Option κ) (x : α) (l : List α) : ℕ :=
  (l.map (classTerm cls w c x)).sum

/-- The weight of the pairs of entries of `l` in one class, each pair once. -/
def pairSum : List α → ℕ
  | [] => 0
  | a :: l => classSum cls w (cls a) a l + pairSum l

variable {cls w}

@[simp] theorem classSum_nil (c : Option κ) (x : α) : classSum cls w c x [] = 0 := rfl

theorem classSum_cons (c : Option κ) (x b : α) (l : List α) :
    classSum cls w c x (b :: l) = classTerm cls w c x b + classSum cls w c x l := by
  simp [classSum]

theorem classSum_append (c : Option κ) (x : α) (l l' : List α) :
    classSum cls w c x (l ++ l') = classSum cls w c x l + classSum cls w c x l' := by
  simp [classSum]

@[simp] theorem classSum_none (x : α) (l : List α) : classSum cls w none x l = 0 := by
  induction l with
  | nil => rfl
  | cons b l ih =>
      rw [classSum_cons, ih]
      rfl

theorem pairSum_cons (a : α) (l : List α) :
    pairSum cls w (a :: l) = classSum cls w (cls a) a l + pairSum cls w l := rfl

/-- The pairs of a concatenation: those inside each part, and each entry of
the first part against the second. -/
theorem pairSum_append (l l' : List α) :
    pairSum cls w (l ++ l') =
      pairSum cls w l + pairSum cls w l' + (l.map fun a => classSum cls w (cls a) a l').sum := by
  induction l with
  | nil => simp [pairSum]
  | cons a l ih =>
      rw [List.cons_append, pairSum_cons, pairSum_cons, classSum_append, ih, List.map_cons, List.sum_cons]
      omega

/-- Against entries none of which is in class `c`, a class sum is zero. -/
theorem classSum_eq_zero {c : Option κ} {x : α} {l : List α} (h : ∀ b ∈ l, cls b ≠ c) :
    classSum cls w c x l = 0 := by
  unfold classSum
  refine List.sum_eq_zero fun t ht => ?_
  obtain ⟨b, hb, rfl⟩ := List.mem_map.mp ht
  cases c with
  | none => rfl
  | some k => simp [classTerm, h b hb]

/-- Against entries all in class `k` that `x` weighs `B` against, a class sum
is `B` for each entry. -/
theorem classSum_of_forall {B : ℕ} {k : κ} {x : α} :
    ∀ {l : List α}, (∀ b ∈ l, cls b = some k ∧ w x b = B) → classSum cls w (some k) x l = l.length * B
  | [], _ => by simp
  | b :: l, h => by
      obtain ⟨hb, hw⟩ := h b List.mem_cons_self
      have hterm : classTerm cls w (some k) x b = B := by simp [classTerm, hb, hw]
      rw [classSum_cons, hterm, classSum_of_forall fun c hc => h c (List.mem_cons_of_mem b hc),
        List.length_cons, Nat.succ_mul]
      omega

/-- Entries in no class make no pairs. -/
theorem pairSum_eq_zero : ∀ {l : List α}, (∀ a ∈ l, cls a = none) → pairSum cls w l = 0
  | [], _ => rfl
  | a :: l, h => by
      rw [pairSum_cons, h a List.mem_cons_self, classSum_none,
        pairSum_eq_zero fun b hb => h b (List.mem_cons_of_mem a hb)]

/-- Two parts whose entries share no class make no pairs across. -/
theorem pairSum_append_of_disjoint {l l' : List α} (h : ∀ a ∈ l, ∀ b ∈ l', cls b ≠ cls a) :
    pairSum cls w (l ++ l') = pairSum cls w l + pairSum cls w l' := by
  have hcross : (l.map fun a => classSum cls w (cls a) a l').sum = 0 := by
    refine List.sum_eq_zero fun t ht => ?_
    obtain ⟨a, ha, rfl⟩ := List.mem_map.mp ht
    exact classSum_eq_zero fun b hb => h a ha b hb
  rw [pairSum_append, hcross, Nat.add_zero]

/-- Two parts all in class `k`, each pair across of weight `B`: the pairs
across add `B` for each of them. -/
theorem pairSum_append_of_forall {B : ℕ} {k : κ} {l l' : List α} (hl : ∀ a ∈ l, cls a = some k)
    (hl' : ∀ b ∈ l', cls b = some k) (hw : ∀ a ∈ l, ∀ b ∈ l', w a b = B) :
    pairSum cls w (l ++ l') = pairSum cls w l + pairSum cls w l' + l.length * (l'.length * B) := by
  have hcross : (l.map fun a => classSum cls w (cls a) a l') = List.replicate l.length (l'.length * B) := by
    refine List.eq_replicate_iff.mpr ⟨List.length_map _, fun t ht => ?_⟩
    obtain ⟨a, ha, rfl⟩ := List.mem_map.mp ht
    rw [hl a ha]
    exact classSum_of_forall fun b hb => ⟨hl' b hb, hw a ha b hb⟩
  rw [pairSum_append, hcross, List.sum_replicate, smul_eq_mul]

/-- Two entries that weigh the same against everything weigh the same
against a class. -/
theorem classSum_congr {x x' : α} (hw : ∀ b, w x' b = w x b) (c : Option κ) (l : List α) :
    classSum cls w c x' l = classSum cls w c x l := by
  unfold classSum classTerm
  congr 1
  refine List.map_congr_left fun b _ => ?_
  cases c <;> simp [hw]

/-- With a symmetric weight, the pair `x, y` counts the same from either end. -/
theorem classTerm_swap (hsymm : ∀ a b, w a b = w b a) (x y : α) :
    classTerm cls w (cls x) x y = classTerm cls w (cls y) y x := by
  unfold classTerm
  cases hx : cls x <;> cases hy : cls y <;> simp only [reduceCtorEq, if_false]
  next k k' =>
    by_cases e : k' = k
    · subst e
      simp [hsymm x y]
    · have e' : ¬ k = k' := fun h => e h.symm
      simp [e, e']

/-- Moving one entry from the class of `a` to that of `a'`, an entry with the
same weights, changes the pair sum by its weight against the new class less
its weight against the old one. -/
theorem pairSum_move (hsymm : ∀ a b, w a b = w b a) {a a' : α} (hw : ∀ b, w a' b = w a b)
    (pre post : List α) :
    pairSum cls w (pre ++ a' :: post) + classSum cls w (cls a) a (pre ++ post) =
      pairSum cls w (pre ++ a :: post) + classSum cls w (cls a') a (pre ++ post) := by
  induction pre with
  | nil =>
      simp only [List.nil_append, pairSum_cons, classSum_congr hw]
      omega
  | cons p pre ih =>
      -- the pair of `p` with the moving entry is counted from `p`'s side in
      -- the pair sum and from the entry's side in the class sums
      have hp' : classTerm cls w (cls p) p a' = classTerm cls w (cls a') a p := by
        rw [classTerm_swap hsymm]
        simp only [classTerm, hw]
      have hp : classTerm cls w (cls p) p a = classTerm cls w (cls a) a p :=
        classTerm_swap hsymm p a
      simp only [List.cons_append, pairSum_cons, classSum_append, classSum_cons] at ih ⊢
      omega

/-- Each term against a class is at most a bound on the weight, so a class
sum is at most the bound times the length. -/
theorem classSum_le {B : ℕ} (hB : ∀ a b, w a b ≤ B) (c : Option κ) (x : α) (l : List α) :
    classSum cls w c x l ≤ l.length * B := by
  induction l with
  | nil => simp
  | cons b l ih =>
      have hterm : classTerm cls w c x b ≤ B := by
        unfold classTerm
        cases c with
        | none => exact Nat.zero_le _
        | some k =>
            by_cases h : cls b = some k
            · simp only [h, if_true]
              exact hB x b
            · simp only [h, if_false]
              exact Nat.zero_le _
      rw [classSum_cons, List.length_cons, Nat.succ_mul]
      omega

theorem classSum_replicate (c : Option κ) (x y : α) (n : ℕ) :
    classSum cls w c x (List.replicate n y) = n * classTerm cls w c x y := by
  simp [classSum, List.map_replicate, List.sum_replicate]

/-- `n` copies of one entry make `n choose 2` pairs of one weight. -/
theorem pairSum_replicate (y : α) :
    ∀ n : ℕ, pairSum cls w (List.replicate n y) = n.choose 2 * classTerm cls w (cls y) y y
  | 0 => by simp [pairSum]
  | n + 1 => by
      rw [List.replicate_succ, pairSum_cons, classSum_replicate, pairSum_replicate y n,
        Nat.choose_succ_succ, Nat.choose_one_right, Nat.add_mul]

/-- Against its own class, with every weight at least `B`, a class sum is at
least the bound times the length. -/
theorem le_classSum {B : ℕ} {k : κ} {x : α} :
    ∀ {l : List α}, (∀ b ∈ l, cls b = some k) → (∀ b ∈ l, B ≤ w x b) →
      l.length * B ≤ classSum cls w (some k) x l
  | [], _, _ => by simp
  | b :: l, hcls, hB => by
      have hterm : classTerm cls w (some k) x b = w x b := by
        simp [classTerm, hcls b List.mem_cons_self]
      have ih := le_classSum (fun c hc => hcls c (List.mem_cons_of_mem b hc))
        (fun c hc => hB c (List.mem_cons_of_mem b hc))
      rw [classSum_cons, hterm, List.length_cons, Nat.succ_mul]
      have := hB b List.mem_cons_self
      omega

/-- When all entries are in one class and every pair weighs at least `B`, the
pair sum is at least `B` for each of the `length choose 2` pairs. -/
theorem le_pairSum {B : ℕ} {k : κ} :
    ∀ {l : List α}, (∀ a ∈ l, cls a = some k) → (∀ a ∈ l, ∀ b ∈ l, B ≤ w a b) →
      l.length.choose 2 * B ≤ pairSum cls w l
  | [], _, _ => by simp [pairSum]
  | a :: l, hcls, hB => by
      have hhead := le_classSum (x := a) (fun b hb => hcls b (List.mem_cons_of_mem a hb))
        (fun b hb => hB a List.mem_cons_self b (List.mem_cons_of_mem a hb))
      have htail := le_pairSum (fun b hb => hcls b (List.mem_cons_of_mem a hb))
        (fun b hb c hc => hB b (List.mem_cons_of_mem a hb) c (List.mem_cons_of_mem a hc))
      have hchoose : (l.length + 1).choose 2 = l.length + l.length.choose 2 := by
        rw [Nat.choose_succ_succ, Nat.choose_one_right]
      rw [pairSum_cons, hcls a List.mem_cons_self, List.length_cons, hchoose, Nat.add_mul]
      omega

end Ctdb.Lib

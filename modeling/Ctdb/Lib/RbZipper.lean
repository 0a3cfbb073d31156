import Mathlib.Data.List.Basic

/-!
# Red-black trees and their zipper

A binary tree whose nodes carry a colour, a key and a value, and a zipper over
it: a focus subtree and the frames above it, nearest first. A frame is a
parent node seen from one child: the side that child hangs on, the parent's
colour, key and value, and the other child. `plug` puts the focus back.

The red-black invariant is stated for a tree, `IsRb t c n` (root colour `c`,
`n` black nodes on every path down, no red node with a red child), and for a
path, `PathRb p c n`: whatever tree with `IsRb t c n` is plugged into `p`, the
result is a red-black tree with a black root (`PathRb.plug`). Code that fixes
a tree up while walking towards its root is then proved one frame at a time,
the way `Path.Balanced` is used for the functional red-black trees of
Batteries.

The in-order list of a plugged tree is what the path holds before the focus,
the focus's own list, and what the path holds after it (`toList_plug`). A
frame's colour is not part of that, so recolouring never moves an entry.
-/

namespace Ctdb.Lib

inductive RbColor
  | red
  | black
  deriving DecidableEq, Repr

inductive RbNode (κ α : Type) where
  | leaf
  | node (color : RbColor) (left : RbNode κ α) (key : κ) (val : α) (right : RbNode κ α)
  deriving DecidableEq, Repr

namespace RbColor

@[simp] theorem not_red_iff {c : RbColor} : ¬ c = .red ↔ c = .black := by
  cases c <;> simp

@[simp] theorem not_black_iff {c : RbColor} : ¬ c = .black ↔ c = .red := by
  cases c <;> simp

end RbColor

namespace RbNode

variable {κ α : Type}

/-- A leaf counts as black. -/
def color : RbNode κ α → RbColor
  | leaf => .black
  | node c .. => c

def leftColor : RbNode κ α → RbColor
  | leaf => .black
  | node _ l .. => l.color

def rightColor : RbNode κ α → RbColor
  | leaf => .black
  | node _ _ _ _ r => r.color

/-- Recolour the root; a leaf stays a leaf. -/
def setColor (t : RbNode κ α) (c : RbColor) : RbNode κ α :=
  match t with
  | leaf => leaf
  | node _ l k v r => node c l k v r

def setLeftColor (t : RbNode κ α) (c : RbColor) : RbNode κ α :=
  match t with
  | leaf => leaf
  | node c' l k v r => node c' (l.setColor c) k v r

def setRightColor (t : RbNode κ α) (c : RbColor) : RbNode κ α :=
  match t with
  | leaf => leaf
  | node c' l k v r => node c' l k v (r.setColor c)

/-- The entries in order. -/
def toList : RbNode κ α → List (κ × α)
  | leaf => []
  | node _ l k v r => l.toList ++ (k, v) :: r.toList

@[simp] theorem toList_leaf : (leaf : RbNode κ α).toList = [] := rfl

@[simp] theorem toList_node (c : RbColor) (l : RbNode κ α) (k : κ) (v : α) (r : RbNode κ α) :
    (node c l k v r).toList = l.toList ++ (k, v) :: r.toList := rfl

@[simp] theorem toList_setColor (t : RbNode κ α) (c : RbColor) : (t.setColor c).toList = t.toList := by
  cases t <;> rfl

@[simp] theorem toList_setLeftColor (t : RbNode κ α) (c : RbColor) :
    (t.setLeftColor c).toList = t.toList := by
  cases t <;> simp [setLeftColor]

@[simp] theorem toList_setRightColor (t : RbNode κ α) (c : RbColor) :
    (t.setRightColor c).toList = t.toList := by
  cases t <;> simp [setRightColor]

/-- `t` is a red-black tree with root colour `c` and `n` black nodes on every
path from its root to a leaf. -/
inductive IsRb : RbNode κ α → RbColor → Nat → Prop
  | leaf : IsRb leaf .black 0
  | red {l r : RbNode κ α} {n : Nat} {k : κ} {v : α} :
      IsRb l .black n → IsRb r .black n → IsRb (node .red l k v r) .red n
  | black {l r : RbNode κ α} {cl cr : RbColor} {n : Nat} {k : κ} {v : α} :
      IsRb l cl n → IsRb r cr n → IsRb (node .black l k v r) .black (n + 1)

variable {t : RbNode κ α} {c : RbColor} {n : Nat}

theorem IsRb.color_eq (h : IsRb t c n) : t.color = c := by
  cases h <;> rfl

/-- A black tree of black height zero is a leaf. -/
theorem IsRb.eq_leaf_of_black_zero (h : IsRb t .black 0) : t = RbNode.leaf := by
  cases h; rfl

/-- Keys and values play no part in the invariant. -/
theorem IsRb.node_entry {cn : RbColor} {l r : RbNode κ α} {k k' : κ} {v v' : α}
    (h : IsRb (node cn l k v r) c n) : IsRb (node cn l k' v' r) c n := by
  cases h with
  | red hl hr => exact .red hl hr
  | black hl hr => exact .black hl hr

theorem IsRb.mirror {cn : RbColor} {l r : RbNode κ α} {k : κ} {v : α}
    (h : IsRb (node cn l k v r) c n) : IsRb (node cn r k v l) c n := by
  cases h with
  | red hl hr => exact .red hr hl
  | black hl hr => exact .black hr hl

theorem IsRb.setColor_black (h : IsRb t .red n) : IsRb (t.setColor .black) .black (n + 1) := by
  cases h with
  | red hl hr => exact .black hl hr

theorem IsRb.setColor_red (h : IsRb t .black (n + 1)) (hl : t.leftColor = .black)
    (hr : t.rightColor = .black) : IsRb (t.setColor .red) .red n := by
  cases h with
  | black hl' hr' =>
      rw [leftColor, hl'.color_eq] at hl
      rw [rightColor, hr'.color_eq] at hr
      subst hl hr
      exact .red hl' hr'

end RbNode

inductive Side
  | left
  | right
  deriving DecidableEq, Repr

/-- The side across. -/
def Side.opp : Side → Side
  | .left => .right
  | .right => .left

/-- A parent node seen from its child on `side`: the other child is `sibling`. -/
structure RbFrame (κ α : Type) where
  side : Side
  color : RbColor
  key : κ
  val : α
  sibling : RbNode κ α
  deriving DecidableEq, Repr

namespace RbFrame

variable {κ α : Type}

/-- The parent's subtree with `t` as the child on `f.side`. -/
def attach (f : RbFrame κ α) (t : RbNode κ α) : RbNode κ α :=
  match f.side with
  | .left => .node f.color t f.key f.val f.sibling
  | .right => .node f.color f.sibling f.key f.val t

/-- The entries of the parent's subtree in order before the child's. -/
def before (f : RbFrame κ α) : List (κ × α) :=
  match f.side with
  | .left => []
  | .right => f.sibling.toList ++ [(f.key, f.val)]

def after (f : RbFrame κ α) : List (κ × α) :=
  match f.side with
  | .left => (f.key, f.val) :: f.sibling.toList
  | .right => []

theorem toList_attach (f : RbFrame κ α) (t : RbNode κ α) :
    (f.attach t).toList = f.before ++ t.toList ++ f.after := by
  rcases f with ⟨_ | _, c, k, v, y⟩ <;> simp [attach, before, after]

variable {t : RbNode κ α} {n : Nat}

theorem isRb_attach_red {f : RbFrame κ α} (hf : f.color = .red) (ht : t.IsRb .black n)
    (hs : f.sibling.IsRb .black n) : (f.attach t).IsRb .red n := by
  obtain ⟨s, c, k, v, y⟩ := f
  simp only at hf hs
  subst hf
  cases s with
  | left => exact .red ht hs
  | right => exact .red hs ht

theorem isRb_attach_black {f : RbFrame κ α} {c c' : RbColor} (hf : f.color = .black)
    (ht : t.IsRb c n) (hs : f.sibling.IsRb c' n) : (f.attach t).IsRb .black (n + 1) := by
  obtain ⟨s, fc, k, v, y⟩ := f
  simp only at hf hs
  subst hf
  cases s with
  | left => exact .black ht hs
  | right => exact .black hs ht

end RbFrame

section Zipper

variable {κ α : Type}

open RbNode

/-- Put the focus `t` back under the frames `p`, nearest first. -/
def plug (t : RbNode κ α) : List (RbFrame κ α) → RbNode κ α
  | [] => t
  | f :: p => plug (f.attach t) p

@[simp] theorem plug_nil (t : RbNode κ α) : plug t [] = t := rfl

@[simp] theorem plug_cons (t : RbNode κ α) (f : RbFrame κ α) (p : List (RbFrame κ α)) :
    plug t (f :: p) = plug (f.attach t) p := rfl

theorem plug_append (t : RbNode κ α) (p q : List (RbFrame κ α)) :
    plug t (p ++ q) = plug (plug t p) q := by
  induction p generalizing t with
  | nil => rfl
  | cons f p ih => exact ih (f.attach t)

/-- The entries the frames hold before the focus, in order. -/
def pathBefore : List (RbFrame κ α) → List (κ × α)
  | [] => []
  | f :: p => pathBefore p ++ f.before

def pathAfter : List (RbFrame κ α) → List (κ × α)
  | [] => []
  | f :: p => f.after ++ pathAfter p

@[simp] theorem pathBefore_nil : pathBefore ([] : List (RbFrame κ α)) = [] := rfl

@[simp] theorem pathBefore_cons (f : RbFrame κ α) (p : List (RbFrame κ α)) :
    pathBefore (f :: p) = pathBefore p ++ f.before := rfl

@[simp] theorem pathAfter_nil : pathAfter ([] : List (RbFrame κ α)) = [] := rfl

@[simp] theorem pathAfter_cons (f : RbFrame κ α) (p : List (RbFrame κ α)) :
    pathAfter (f :: p) = f.after ++ pathAfter p := rfl

theorem toList_plug (t : RbNode κ α) (p : List (RbFrame κ α)) :
    (plug t p).toList = pathBefore p ++ t.toList ++ pathAfter p := by
  induction p generalizing t with
  | nil => simp
  | cons f p ih => simp [ih, RbFrame.toList_attach]

/-- Plugging depends on the focus only through its in-order list. -/
theorem toList_plug_congr {t t' : RbNode κ α} (p : List (RbFrame κ α)) (h : t.toList = t'.toList) :
    (plug t p).toList = (plug t' p).toList := by
  rw [toList_plug, toList_plug, h]

/-- `PathRb p c n`: a tree with `IsRb t c n` plugged into `p` is a red-black
tree with a black root. A red frame takes only a black child; a black frame
takes either colour, one black level below its own. -/
inductive PathRb : List (RbFrame κ α) → RbColor → Nat → Prop
  | root {n : Nat} : PathRb [] .black n
  | red {s : Side} {k : κ} {v : α} {y : RbNode κ α} {p : List (RbFrame κ α)} {n : Nat} :
      y.IsRb .black n → PathRb p .red n → PathRb (⟨s, .red, k, v, y⟩ :: p) .black n
  | black {s : Side} {k : κ} {v : α} {y : RbNode κ α} {p : List (RbFrame κ α)} {c cy : RbColor}
      {n : Nat} :
      y.IsRb cy n → PathRb p .black (n + 1) → PathRb (⟨s, .black, k, v, y⟩ :: p) c n

variable {p : List (RbFrame κ α)} {c : RbColor} {n : Nat}

theorem PathRb.plug {t : RbNode κ α} (hp : PathRb p c n) (ht : t.IsRb c n) :
    ∃ m, (Lib.plug t p).IsRb .black m := by
  induction hp generalizing t with
  | root => exact ⟨_, ht⟩
  | @red s _ _ _ _ _ hy _ ih =>
      cases s with
      | left => exact ih (.red ht hy)
      | right => exact ih (.red hy ht)
  | @black s _ _ _ _ _ _ _ hy _ ih =>
      cases s with
      | left => exact ih (.black ht hy)
      | right => exact ih (.black hy ht)

/-- A place that takes a red tree takes a black one of the same height. -/
theorem PathRb.black_of_red (hp : PathRb p .red n) : PathRb p .black n := by
  cases hp with
  | black hy hp => exact .black hy hp

/-- Below a black frame the focus may take either colour. -/
theorem PathRb.recolor {f : RbFrame κ α} (hf : f.color = .black) (hp : PathRb (f :: p) c n)
    (c' : RbColor) : PathRb (f :: p) c' n := by
  cases hp with
  | red => simp at hf
  | black hy hp => exact .black hy hp

/-- A red frame with a red frame above it, or at the root, takes nothing. -/
theorem PathRb.red_frame {f : RbFrame κ α} (hf : f.color = .red) (hp : PathRb (f :: p) c n) :
    c = .black ∧ f.sibling.IsRb .black n ∧ PathRb p .red n := by
  cases hp with
  | red hy hp => exact ⟨rfl, hy, hp⟩
  | black => simp at hf

theorem PathRb.black_frame {f : RbFrame κ α} (hf : f.color = .black) (hp : PathRb (f :: p) c n) :
    (∃ cy, f.sibling.IsRb cy n) ∧ PathRb p .black (n + 1) := by
  cases hp with
  | red => simp at hf
  | black hy hp => exact ⟨⟨_, hy⟩, hp⟩

/-- Above a place that takes a red tree there is a black frame. -/
theorem PathRb.frame_black_of_red {f : RbFrame κ α} (hp : PathRb (f :: p) .red n) :
    f.color = .black := by
  cases hp with
  | black => rfl

theorem PathRb.sibling_black {f : RbFrame κ α} (hp : PathRb (f :: p) c n)
    (hs : f.sibling.color = .black) : f.sibling.IsRb .black n := by
  cases hp with
  | red hy => exact hy
  | black hy =>
      rw [hy.color_eq] at hs
      subst hs
      exact hy

/-- A frame's sibling can be swapped for any black tree of the same height. -/
theorem PathRb.sibling {f : RbFrame κ α} {y : RbNode κ α} (hp : PathRb (f :: p) c n)
    (hy : y.IsRb .black n) : PathRb ({ f with sibling := y } :: p) c n := by
  cases hp with
  | red _ hp => exact .red hy hp
  | black _ hp => exact .black hy hp

/-- The children of the focus, each with the focus's node as its frame. -/
theorem PathRb.left {cn : RbColor} {l r : RbNode κ α} {k : κ} {v : α}
    (ht : (RbNode.node cn l k v r).IsRb c n) (hp : PathRb p c n) :
    ∃ cl nl, l.IsRb cl nl ∧ PathRb (⟨.left, cn, k, v, r⟩ :: p) cl nl := by
  cases ht with
  | red hl hr => exact ⟨_, _, hl, .red hr hp⟩
  | black hl hr => exact ⟨_, _, hl, .black hr hp⟩

theorem PathRb.right {cn : RbColor} {l r : RbNode κ α} {k : κ} {v : α}
    (ht : (RbNode.node cn l k v r).IsRb c n) (hp : PathRb p c n) :
    ∃ cr nr, r.IsRb cr nr ∧ PathRb (⟨.right, cn, k, v, l⟩ :: p) cr nr := by
  cases ht with
  | red hl hr => exact ⟨_, _, hr, .red hl hp⟩
  | black hl hr => exact ⟨_, _, hr, .black hl hp⟩

end Zipper

/-! ## In-order entries

The map a tree stands for is `List.lookup` on its in-order entries. With the
keys strictly increasing that list is a binary search tree's (`isBst_of_keysSorted`),
and an update at one place of it is read back by the lemmas below. -/

section Entries

variable {κ α : Type}

/-- The keys strictly increase. -/
def KeysSorted [LT κ] (l : List (κ × α)) : Prop :=
  l.Pairwise fun a b => a.1 < b.1

variable [LT κ]

theorem keysSorted_node_split (A B : List (κ × α)) {l r : List (κ × α)} {k : κ} {v : α}
    (h : KeysSorted (A ++ (l ++ (k, v) :: r) ++ B)) :
    KeysSorted l ∧ KeysSorted r ∧ (∀ e ∈ l, e.1 < k) ∧ ∀ e ∈ r, k < e.1 := by
  rw [KeysSorted, List.pairwise_append, List.pairwise_append, List.pairwise_append] at h
  obtain ⟨⟨-, ⟨hl, hkr, hcross⟩, -⟩, -, -⟩ := h
  exact ⟨hl, (List.pairwise_cons.mp hkr).2, fun e he => hcross e he (k, v) List.mem_cons_self,
    fun e he => List.rel_of_pairwise_cons hkr he⟩

theorem keysSorted_replace {A B : List (κ × α)} {key : κ} {x y : α}
    (h : KeysSorted (A ++ (key, x) :: B)) : KeysSorted (A ++ (key, y) :: B) := by
  rw [KeysSorted, List.pairwise_append, List.pairwise_cons] at h ⊢
  obtain ⟨hA, ⟨hkB, hB⟩, hAB⟩ := h
  refine ⟨hA, ⟨hkB, hB⟩, fun a ha b hb => ?_⟩
  rcases List.mem_cons.mp hb with rfl | hb
  · exact hAB a ha (key, x) List.mem_cons_self
  · exact hAB a ha b (List.mem_cons_of_mem _ hb)

theorem keysSorted_insert {A B : List (κ × α)} {key : κ} {x : α}
    (h : KeysSorted (A ++ B)) (hA : ∀ e ∈ A, e.1 < key) (hB : ∀ e ∈ B, key < e.1) :
    KeysSorted (A ++ (key, x) :: B) := by
  rw [KeysSorted, List.pairwise_append] at h ⊢
  obtain ⟨hA', hB', hAB⟩ := h
  refine ⟨hA', List.pairwise_cons.mpr ⟨hB, hB'⟩, fun a ha b hb => ?_⟩
  rcases List.mem_cons.mp hb with rfl | hb
  · exact hA a ha
  · exact hAB a ha b hb

theorem keysSorted_erase {A B : List (κ × α)} {key : κ} {x : α}
    (h : KeysSorted (A ++ (key, x) :: B)) : KeysSorted (A ++ B) :=
  List.Pairwise.sublist ((List.sublist_cons_self _ _).append_left A) h

end Entries

section Lookup

variable {κ α : Type} [BEq κ] [LawfulBEq κ]

theorem lookup_eq_none_of_ne {A : List (κ × α)} {key : κ} (hA : ∀ e ∈ A, e.1 ≠ key) :
    A.lookup key = none :=
  List.lookup_eq_none_iff.mpr fun e he => bne_iff_ne.mpr fun h => hA e he h.symm

theorem lookup_middle_self {A B : List (κ × α)} {key : κ} {x : α} (hA : ∀ e ∈ A, e.1 ≠ key) :
    (A ++ (key, x) :: B).lookup key = some x := by
  simp [List.lookup_append, lookup_eq_none_of_ne hA]

theorem lookup_middle_ne {A B : List (κ × α)} {key k : κ} {x : α} (h : k ≠ key) :
    (A ++ (key, x) :: B).lookup k = (A ++ B).lookup k := by
  simp [List.lookup_append, List.lookup_cons, beq_false_of_ne h]

theorem mem_keys_iff_lookup_isSome (l : List (κ × α)) (k : κ) :
    k ∈ l.map Prod.fst ↔ (l.lookup k).isSome := by
  rw [List.lookup_isSome_iff, List.mem_map]
  constructor
  · rintro ⟨e, he, rfl⟩
    exact ⟨e, he, beq_self_eq_true _⟩
  · rintro ⟨e, he, h⟩
    exact ⟨e, he, (beq_iff_eq.mp h).symm⟩

variable [DecidableEq κ]

theorem lookup_replace_middle {A B : List (κ × α)} {key : κ} {x y : α}
    (hA : ∀ e ∈ A, e.1 ≠ key) (k : κ) :
    (A ++ (key, y) :: B).lookup k = if k = key then some y else (A ++ (key, x) :: B).lookup k := by
  split_ifs with hk
  · subst hk
    exact lookup_middle_self hA
  · rw [lookup_middle_ne hk, lookup_middle_ne hk]

theorem lookup_insert_middle {A B : List (κ × α)} {key : κ} {x : α} (hA : ∀ e ∈ A, e.1 ≠ key)
    (k : κ) : (A ++ (key, x) :: B).lookup k = if k = key then some x else (A ++ B).lookup k := by
  split_ifs with hk
  · subst hk
    exact lookup_middle_self hA
  · exact lookup_middle_ne hk

theorem lookup_erase_middle {A B : List (κ × α)} {key : κ} {x : α}
    (hAB : ∀ e ∈ A ++ B, e.1 ≠ key) (k : κ) :
    (A ++ B).lookup k = if k = key then none else (A ++ (key, x) :: B).lookup k := by
  split_ifs with hk
  · subst hk
    exact lookup_eq_none_of_ne hAB
  · exact (lookup_middle_ne hk).symm

end Lookup

end Ctdb.Lib

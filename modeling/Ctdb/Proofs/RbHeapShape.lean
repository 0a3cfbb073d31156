import Mathlib.Data.List.Nodup
import Ctdb.Proofs.RbHeap

/-!
# Reading the pointer tree as a tree

The trees of `RbTree/Tree.lean` and the nodes of `RbTree/Heap.lean` are two
levels of one design: the functions of `rb_tree.c` follow the same cases on
both, on subtrees and zipper paths in the one and on `parent`, `left` and
`right` pointers in the other. This file says when memory holds a given tree
and a given path, so that each function on the heap can be shown to do to
memory what its functional twin does to the tree.

* **Subtrees.** `Subtree h dc c q t fp`: the pointer `c` leads down the child
  pointers to a subtree that reads as `t`, every node's `parent` pointing back
  up (the root's to `q`), over the addresses `fp`, each once. The dummy `dc` of
  a running `delete_node` reads as a leaf: black, childless, and in memory.
* **Paths.** `PathAt h dc c q p fp`: from the child `c` of `q`, the parent
  pointers lead through the frames `p` to the tree's root, each frame the node
  there with its other child read as a subtree. A `Zipper` is a subtree and a
  path that meet, over disjoint addresses, and `Zipper.plug` puts the whole
  tree together, as `plug` does.
* **Framing.** A reading depends only on the nodes at its addresses
  (`Subtree.frame`, `PathAt.frame`); a path depends on its first node's child
  pointer only on the frame's side, which a subtree put in the child's place
  takes over (`PathAt.retarget`).
* **Focusing.** Every node of a tree read from the root is the focus of a
  zipper of that tree (`Subtree.focus`), which is how the writes of the code
  to a node found by its address, not by a walk, are followed.
-/

namespace Ctdb.Heap

open Lib

variable {α : Type}

/-! ## Subtrees and paths -/

/-- The child of a node on a side. -/
def HeapNode.child (n : HeapNode α) : Side → Option Nat
  | .left => n.left
  | .right => n.right

/-- The child on the other side. -/
def HeapNode.other (n : HeapNode α) : Side → Option Nat
  | .left => n.right
  | .right => n.left

/-- The node with its child on `side` replaced. -/
def HeapNode.setChild (n : HeapNode α) : Side → Option Nat → HeapNode α
  | .left, c => { n with left := c }
  | .right, c => { n with right := c }

/-- The node with its child on the other side replaced. -/
def HeapNode.setOther (n : HeapNode α) : Side → Option Nat → HeapNode α
  | .left, c => { n with right := c }
  | .right, c => { n with left := c }

/-- The node with its parent pointer replaced. -/
def HeapNode.withParent (n : HeapNode α) (q : Option Nat) : HeapNode α := { n with parent := q }

/-- The node recoloured. -/
def HeapNode.withColor (n : HeapNode α) (c : RbColor) : HeapNode α := { n with rbColor := c }

/-- The heap with the node `n` at the address `a`: what a write through `a`
leaves. -/
def TrbtHeap.setNode (h : TrbtHeap α) (a : Nat) (n : HeapNode α) : TrbtHeap α :=
  { h with nodes := Function.update h.nodes a (some n) }

/-- The subtree at `c` below `q` reads as `t` over the addresses `fp`. -/
inductive Subtree (h : TrbtHeap α) (dc : Option Nat) :
    Option Nat → Option Nat → TrbtNode α → List Nat → Prop
  | leaf (q : Option Nat) : Subtree h dc none q .leaf []
  | dummy {d : Nat} {n : HeapNode α} {q : Option Nat} (hd : dc = some d) (hn : h.nodes d = some n)
      (hq : n.parent = q) (hl : n.left = none) (hr : n.right = none) (hc : n.rbColor = .black) :
      Subtree h dc (some d) q .leaf [d]
  | node {a : Nat} {n : HeapNode α} {q : Option Nat} {v : α} {l r : TrbtNode α} {fl fr : List Nat}
      (ha : dc ≠ some a) (hn : h.nodes a = some n) (hq : n.parent = q) (hv : n.data = some v)
      (hl : Subtree h dc n.left (some a) l fl) (hr : Subtree h dc n.right (some a) r fr)
      (hnd : (a :: (fl ++ fr)).Nodup) :
      Subtree h dc (some a) q (.node n.rbColor l n.key32 v r) (a :: (fl ++ fr))

/-- Above the child at `c` of `q`, the frames `p` up to the child `c₀` of `q₀`,
over the addresses `fp`. -/
inductive PathSeg (h : TrbtHeap α) (dc c₀ q₀ : Option Nat) :
    Option Nat → Option Nat → TrbtPath α → List Nat → Prop
  | nil : PathSeg h dc c₀ q₀ c₀ q₀ [] []
  | cons {c : Option Nat} {b : Nat} {n : HeapNode α} {side : Side} {v : α} {s : TrbtNode α}
      {p : TrbtPath α} {fs fp : List Nat}
      (hb : dc ≠ some b) (hn : h.nodes b = some n) (hv : n.data = some v) (hc : n.child side = c)
      (hs : Subtree h dc (n.other side) (some b) s fs) (hp : PathSeg h dc c₀ q₀ (some b) n.parent p fp)
      (hnd : (b :: (fs ++ fp)).Nodup) :
      PathSeg h dc c₀ q₀ c (some b) (⟨side, n.rbColor, n.key32, v, s⟩ :: p) (b :: (fs ++ fp))

/-- Above the child at `c` of `q`, the frames `p` up to the tree's root. -/
abbrev PathAt (h : TrbtHeap α) (dc c q : Option Nat) (p : TrbtPath α) (fp : List Nat) : Prop :=
  PathSeg h dc h.root none c q p fp

/-- The heap reads as the tree `t` at `c` below `q`, under the frames `p`; the
addresses of the whole tree are `fz`. -/
def Zipper (h : TrbtHeap α) (dc c q : Option Nat) (t : TrbtNode α) (p : TrbtPath α) (fz : List Nat) : Prop :=
  ∃ ft fp, Subtree h dc c q t ft ∧ PathAt h dc c q p fp ∧ (ft ++ fp).Perm fz ∧ fz.Nodup

/-- The heap reads from its root as the tree `t`, over the addresses `fz`. -/
def TreeOn (h : TrbtHeap α) (dc : Option Nat) (t : TrbtNode α) (fz : List Nat) : Prop :=
  ∃ ft, Subtree h dc h.root none t ft ∧ ft.Perm fz ∧ fz.Nodup

variable {h h' : TrbtHeap α} {dc : Option Nat}

/-! ## Framing -/

theorem Subtree.frame {c q : Option Nat} {t : TrbtNode α} {fp : List Nat} (hs : Subtree h dc c q t fp)
    (hagree : ∀ x ∈ fp, h'.nodes x = h.nodes x) : Subtree h' dc c q t fp := by
  induction hs with
  | leaf q => exact .leaf q
  | dummy hd hn hq hl hr hc => exact .dummy hd ((hagree _ (List.mem_singleton_self _)).trans hn) hq hl hr hc
  | node ha hn hq hv _ _ hnd ihl ihr =>
      refine .node ha ((hagree _ List.mem_cons_self).trans hn) hq hv
        (ihl fun x hx => hagree x ?_) (ihr fun x hx => hagree x ?_) hnd
      · exact List.mem_cons_of_mem _ (List.mem_append_left _ hx)
      · exact List.mem_cons_of_mem _ (List.mem_append_right _ hx)

theorem PathSeg.frame {c₀ q₀ c q : Option Nat} {p : TrbtPath α} {fp : List Nat}
    (hp : PathSeg h dc c₀ q₀ c q p fp) (hagree : ∀ x ∈ fp, h'.nodes x = h.nodes x) :
    PathSeg h' dc c₀ q₀ c q p fp := by
  induction hp with
  | nil => exact .nil
  | cons hb hn hv hc hs _ hnd ih =>
      refine .cons hb ((hagree _ List.mem_cons_self).trans hn) hv hc
        (hs.frame fun x hx => hagree x ?_) (ih fun x hx => hagree x ?_) hnd
      · exact List.mem_cons_of_mem _ (List.mem_append_left _ hx)
      · exact List.mem_cons_of_mem _ (List.mem_append_right _ hx)

theorem PathAt.frame {c q : Option Nat} {p : TrbtPath α} {fp : List Nat} (hp : PathAt h dc c q p fp)
    (hagree : ∀ x ∈ fp, h'.nodes x = h.nodes x) (hroot : h'.root = h.root) : PathAt h' dc c q p fp := by
  rw [PathAt, hroot]
  exact PathSeg.frame hp hagree

/-! ## Reading a node back -/

theorem Subtree.node_inv {c q : Option Nat} {col : RbColor} {l r : TrbtNode α} {k : UInt32} {v : α}
    {fp : List Nat} (hs : Subtree h dc c q (.node col l k v r) fp) :
    ∃ a n fl fr, c = some a ∧ dc ≠ some a ∧ h.nodes a = some n ∧ n.parent = q ∧ n.rbColor = col ∧
      n.key32 = k ∧ n.data = some v ∧ Subtree h dc n.left (some a) l fl ∧
      Subtree h dc n.right (some a) r fr ∧ fp = a :: (fl ++ fr) ∧ (a :: (fl ++ fr)).Nodup := by
  cases hs with
  | node ha hn hq hv hl hr hnd => exact ⟨_, _, _, _, rfl, ha, hn, hq, rfl, rfl, hv, hl, hr, rfl, hnd⟩

theorem Subtree.leaf_inv {c q : Option Nat} {fp : List Nat} (hs : Subtree h dc c q .leaf fp) :
    (c = none ∧ fp = []) ∨ ∃ d n, c = some d ∧ dc = some d ∧ h.nodes d = some n ∧ n.parent = q ∧
      n.left = none ∧ n.right = none ∧ n.rbColor = .black ∧ fp = [d] := by
  cases hs with
  | leaf => exact .inl ⟨rfl, rfl⟩
  | dummy hd hn hq hl hr hc => exact .inr ⟨_, _, rfl, hd, hn, hq, hl, hr, hc, rfl⟩

/-- Without a dummy, a subtree is a leaf exactly where its pointer is `NULL`. -/
theorem Subtree.eq_none_iff {c q : Option Nat} {t : TrbtNode α} {fp : List Nat}
    (hs : Subtree h none c q t fp) : c = none ↔ t = .leaf := by
  cases hs with
  | leaf => simp
  | dummy hd => cases hd
  | node => simp

theorem Subtree.mem_of_eq_some {c q : Option Nat} {t : TrbtNode α} {fp : List Nat} {a : Nat}
    (hs : Subtree h dc c q t fp) (ha : c = some a) : a ∈ fp := by
  cases hs with
  | leaf => cases ha
  | dummy => cases ha; exact List.mem_singleton_self _
  | node => cases ha; exact List.mem_cons_self

theorem Subtree.nodup {c q : Option Nat} {t : TrbtNode α} {fp : List Nat} (hs : Subtree h dc c q t fp) :
    fp.Nodup := by
  cases hs with
  | leaf => exact List.nodup_nil
  | dummy => simp
  | node _ _ _ _ _ _ hnd => exact hnd

/-- A pointer that leads to a subtree leads to a node, whose parent pointer
points back up. -/
theorem Subtree.exists_node {a : Nat} {q : Option Nat} {t : TrbtNode α} {fp : List Nat}
    (hs : Subtree h dc (some a) q t fp) : ∃ n, h.nodes a = some n ∧ n.parent = q := by
  cases hs with
  | dummy _ hn hq => exact ⟨_, hn, hq⟩
  | node _ hn hq => exact ⟨_, hn, hq⟩

theorem PathSeg.nil_inv {c₀ q₀ c q : Option Nat} {fp : List Nat} (hp : PathSeg h dc c₀ q₀ c q [] fp) :
    c = c₀ ∧ q = q₀ ∧ fp = [] := by
  cases hp with
  | nil => exact ⟨rfl, rfl, rfl⟩

/-- Below a node, a segment up to the root starts with that node. -/
theorem PathSeg.head_node {c₀ c : Option Nat} {b : Nat} {p : TrbtPath α} {fp : List Nat}
    (hp : PathSeg h dc c₀ none c (some b) p fp) : ∃ n, h.nodes b = some n ∧ b ∈ fp := by
  cases hp with
  | cons _ hn => exact ⟨_, hn, List.mem_cons_self⟩

theorem PathAt.root {c : Option Nat} (hroot : h.root = c) : PathAt h dc c none [] [] := by
  rw [PathAt, hroot]
  exact .nil

theorem PathSeg.nodup {c₀ q₀ c q : Option Nat} {p : TrbtPath α} {fp : List Nat}
    (hp : PathSeg h dc c₀ q₀ c q p fp) : fp.Nodup := by
  cases hp with
  | nil => exact List.nodup_nil
  | cons _ _ _ _ _ _ hnd => exact hnd

/-! ## Nodes and their children -/

namespace HeapNode

variable {n : HeapNode α} {side : Side} {c : Option Nat}

@[simp] theorem setChild_parent : (n.setChild side c).parent = n.parent := by cases side <;> rfl
@[simp] theorem setChild_rbColor : (n.setChild side c).rbColor = n.rbColor := by cases side <;> rfl
@[simp] theorem setChild_key32 : (n.setChild side c).key32 = n.key32 := by cases side <;> rfl
@[simp] theorem setChild_data : (n.setChild side c).data = n.data := by cases side <;> rfl
@[simp] theorem child_setChild : (n.setChild side c).child side = c := by cases side <;> rfl
@[simp] theorem other_setChild : (n.setChild side c).other side = n.other side := by cases side <;> rfl
@[simp] theorem setOther_parent : (n.setOther side c).parent = n.parent := by cases side <;> rfl
@[simp] theorem setOther_rbColor : (n.setOther side c).rbColor = n.rbColor := by cases side <;> rfl
@[simp] theorem setOther_key32 : (n.setOther side c).key32 = n.key32 := by cases side <;> rfl
@[simp] theorem setOther_data : (n.setOther side c).data = n.data := by cases side <;> rfl
@[simp] theorem child_opp : n.child side.opp = n.other side := by cases side <;> rfl
@[simp] theorem other_opp : n.other side.opp = n.child side := by cases side <;> rfl
@[simp] theorem other_setOther : (n.setOther side c).other side = c := by cases side <;> rfl
@[simp] theorem child_setOther : (n.setOther side c).child side = n.child side := by cases side <;> rfl
@[simp] theorem child_left : n.child .left = n.left := rfl
@[simp] theorem child_right : n.child .right = n.right := rfl
@[simp] theorem other_left : n.other .left = n.right := rfl
@[simp] theorem other_right : n.other .right = n.left := rfl

/-- The code tells a child's side by comparing it with the left pointer. -/
theorem left_eq_iff {x : Nat} (hc : n.child side = some x) (ho : n.other side ≠ some x) :
    n.left = some x ↔ side = .left := by
  cases side with
  | left => simpa using hc
  | right => simpa using ho

theorem side_eq {x : Nat} (hc : n.child side = some x) (ho : n.other side ≠ some x) :
    (if n.left = some x then Side.left else .right) = side := by
  by_cases hl : n.left = some x
  · rw [if_pos hl, ((left_eq_iff hc ho).mp hl)]
  · cases side with
    | left => exact absurd ((left_eq_iff hc ho).mpr rfl) hl
    | right => exact if_neg hl
@[simp] theorem withColor_parent {col : RbColor} : (n.withColor col).parent = n.parent := rfl
@[simp] theorem withColor_left {col : RbColor} : (n.withColor col).left = n.left := rfl
@[simp] theorem withColor_right {col : RbColor} : (n.withColor col).right = n.right := rfl
@[simp] theorem withColor_rbColor {col : RbColor} : (n.withColor col).rbColor = col := rfl
@[simp] theorem withColor_key32 {col : RbColor} : (n.withColor col).key32 = n.key32 := rfl
@[simp] theorem withColor_data {col : RbColor} : (n.withColor col).data = n.data := rfl
@[simp] theorem child_withColor {col : RbColor} : (n.withColor col).child side = n.child side := by
  cases side <;> rfl
@[simp] theorem other_withColor {col : RbColor} : (n.withColor col).other side = n.other side := by
  cases side <;> rfl
@[simp] theorem withParent_parent {q : Option Nat} : (n.withParent q).parent = q := rfl
@[simp] theorem withParent_rbColor {q : Option Nat} : (n.withParent q).rbColor = n.rbColor := rfl
@[simp] theorem withParent_key32 {q : Option Nat} : (n.withParent q).key32 = n.key32 := rfl
@[simp] theorem withParent_data {q : Option Nat} : (n.withParent q).data = n.data := rfl
@[simp] theorem child_withParent {q : Option Nat} : (n.withParent q).child side = n.child side := by
  cases side <;> rfl
@[simp] theorem other_withParent {q : Option Nat} : (n.withParent q).other side = n.other side := by
  cases side <;> rfl

end HeapNode

namespace TrbtHeap

variable {a w : Nat} {n : HeapNode α}

@[simp] theorem setNode_nodes_self : (h.setNode a n).nodes a = some n := Function.update_self ..
theorem setNode_nodes_of_ne (hw : w ≠ a) : (h.setNode a n).nodes w = h.nodes w := Function.update_of_ne hw ..
@[simp] theorem setNode_root : (h.setNode a n).root = h.root := rfl
@[simp] theorem setNode_next : (h.setNode a n).next = h.next := rfl
@[simp] theorem setNode_flags : (h.setNode a n).flags = h.flags := rfl
@[simp] theorem setNode_treeFreed : (h.setNode a n).treeFreed = h.treeFreed := rfl
@[simp] theorem setNode_useAfterFree : (h.setNode a n).useAfterFree = h.useAfterFree := rfl

end TrbtHeap

/-! ## Putting the tree together -/

/-- A node read over a subtree on one side and its sibling on the other: the
parent frame attached to the subtree. -/
theorem Subtree.attach (side : Side) {b : Nat} {n : HeapNode α} {q : Option Nat} {v : α}
    {t s : TrbtNode α} {ft fs : List Nat} (hb : dc ≠ some b) (hn : h.nodes b = some n) (hq : n.parent = q)
    (hv : n.data = some v) (ht : Subtree h dc (n.child side) (some b) t ft)
    (hs : Subtree h dc (n.other side) (some b) s fs) (hnd : (b :: (ft ++ fs)).Nodup) :
    ∃ fb, Subtree h dc (some b) q (RbFrame.attach ⟨side, n.rbColor, n.key32, v, s⟩ t) fb ∧
      fb.Perm (b :: (ft ++ fs)) := by
  cases side with
  | left => exact ⟨_, .node hb hn hq hv ht hs hnd, .refl _⟩
  | right =>
      exact ⟨_, .node hb hn hq hv hs ht ((List.perm_append_comm.cons b).nodup_iff.mpr hnd),
        List.perm_append_comm.cons b⟩

/-- A subtree read as a frame attached to a subtree: the frame's node over the
subtree on the frame's side and the sibling on the other. -/
theorem Subtree.attach_inv {c q : Option Nat} {f : RbFrame UInt32 α} {t : TrbtNode α} {fb : List Nat}
    (hs : Subtree h dc c q (f.attach t) fb) :
    ∃ b n ft fs, c = some b ∧ dc ≠ some b ∧ h.nodes b = some n ∧ n.parent = q ∧ n.rbColor = f.color ∧
      n.key32 = f.key ∧ n.data = some f.val ∧ Subtree h dc (n.child f.side) (some b) t ft ∧
      Subtree h dc (n.other f.side) (some b) f.sibling fs ∧ fb.Perm (b :: (ft ++ fs)) ∧
      (b :: (ft ++ fs)).Nodup := by
  obtain ⟨side, col, k, v, s⟩ := f
  cases side with
  | left =>
      obtain ⟨b, n, fl, fr, rfl, hb, hn, hq, hc, hk, hv, hl, hr, rfl, hnd⟩ := Subtree.node_inv hs
      exact ⟨b, n, fl, fr, rfl, hb, hn, hq, hc, hk, hv, hl, hr, .refl _, hnd⟩
  | right =>
      obtain ⟨b, n, fl, fr, rfl, hb, hn, hq, hc, hk, hv, hl, hr, rfl, hnd⟩ := Subtree.node_inv hs
      exact ⟨b, n, fr, fl, rfl, hb, hn, hq, hc, hk, hv, hr, hl, List.perm_append_comm.cons b,
        (List.perm_append_comm.cons b).nodup_iff.mp hnd⟩

/-- The first node of a path has `x` as its child on the frame's side, and not
as its other child, where the sibling hangs, away from `x`. -/
theorem PathSeg.head_side {c₀ q₀ : Option Nat} {x b : Nat} {nb : HeapNode α} {f : RbFrame UInt32 α}
    {p : TrbtPath α} {fp : List Nat} (hp : PathSeg h dc c₀ q₀ (some x) (some b) (f :: p) fp) (hx : x ∉ fp)
    (hnb : h.nodes b = some nb) : nb.child f.side = some x ∧ nb.other f.side ≠ some x := by
  cases hp with
  | @cons _ _ n side _ _ _ fs _ _ hn _ hc hs _ _ =>
      obtain rfl : n = nb := Option.some.inj (hn.symm.trans hnb)
      exact ⟨hc, fun ho => hx (List.mem_cons_of_mem _ (List.mem_append_left _ (hs.mem_of_eq_some ho)))⟩

/-- A subtree at the bottom of a segment, put back under the segment's frames. -/
theorem PathSeg.plug {c₀ q₀ c q : Option Nat} {p : TrbtPath α} {fp : List Nat}
    (hp : PathSeg h dc c₀ q₀ c q p fp) :
    ∀ {t : TrbtNode α} {ft : List Nat}, Subtree h dc c q t ft → (ft ++ fp).Nodup →
      ∃ fp', Subtree h dc c₀ q₀ (Lib.plug t p) fp' ∧ fp'.Perm (ft ++ fp) := by
  induction hp with
  | nil =>
      intro t ft ht _
      exact ⟨ft, ht, by simp⟩
  | @cons c b n side v s p fs fp hb hn hv hc hs _ hnd ih =>
      intro t ft ht hnd'
      have hperm : (ft ++ b :: (fs ++ fp)).Perm ((b :: (ft ++ fs)) ++ fp) := by
        rw [List.cons_append, List.append_assoc]
        exact List.perm_middle
      have hnd2 := hperm.nodup_iff.mp hnd'
      -- the frame's node over the subtree and its sibling, then the frames above
      obtain ⟨fb, hfb, hpb⟩ := Subtree.attach _ hb hn rfl hv (hc ▸ ht) hs
        (hnd2.sublist (List.sublist_append_left _ _))
      obtain ⟨fp', hroot, hperm'⟩ := ih hfb ((hpb.append_right fp).nodup_iff.mpr hnd2)
      exact ⟨fp', hroot, hperm'.trans ((hpb.append_right fp).trans hperm.symm)⟩

/-- A segment continued by the segment above its top. -/
theorem PathSeg.append {c₀ q₀ c₁ q₁ c q : Option Nat} {p₁ p₂ : TrbtPath α} {f₁ f₂ : List Nat}
    (h₁ : PathSeg h dc c₁ q₁ c q p₁ f₁) (h₂ : PathSeg h dc c₀ q₀ c₁ q₁ p₂ f₂) (hnd : (f₁ ++ f₂).Nodup) :
    PathSeg h dc c₀ q₀ c q (p₁ ++ p₂) (f₁ ++ f₂) := by
  induction h₁ with
  | nil => simpa using h₂
  | cons hb hn hv hc hs _ _ ih =>
      simp only [List.cons_append, List.append_assoc] at hnd ⊢
      exact .cons hb hn hv hc hs (ih ((List.nodup_cons.mp hnd).2.sublist (List.sublist_append_right _ _))) hnd

theorem Zipper.plug {c q : Option Nat} {t : TrbtNode α} {p : TrbtPath α} {fz : List Nat}
    (hz : Zipper h dc c q t p fz) : TreeOn h dc (Lib.plug t p) fz := by
  obtain ⟨ft, fp, ht, hp, hperm, hnd⟩ := hz
  obtain ⟨fp', hroot, hperm'⟩ := PathSeg.plug hp ht (hperm.nodup_iff.mpr hnd)
  exact ⟨fp', hroot, hperm'.trans hperm, hnd⟩

theorem Zipper.perm {c q : Option Nat} {t : TrbtNode α} {p : TrbtPath α} {fz fz' : List Nat}
    (hz : Zipper h dc c q t p fz) (hperm : fz.Perm fz') : Zipper h dc c q t p fz' := by
  obtain ⟨ft, fp, ht, hp, hperm', hnd⟩ := hz
  exact ⟨ft, fp, ht, hp, hperm'.trans hperm, hperm.nodup_iff.mp hnd⟩

/-- A tree read from the root is a zipper with the empty path. -/
theorem TreeOn.zipper {t : TrbtNode α} {fz : List Nat} (ht : TreeOn h dc t fz) :
    Zipper h dc h.root none t [] fz := by
  obtain ⟨ft, hs, hperm, hnd⟩ := ht
  exact ⟨ft, [], hs, .root rfl, by simpa using hperm, hnd⟩

/-- Every node of a subtree under a segment is the focus of a subtree under a
longer segment, with the same tree above. -/
theorem Subtree.focus {c q : Option Nat} {T : TrbtNode α} {fT : List Nat} (hT : Subtree h dc c q T fT) :
    ∀ {c₀ q₀ : Option Nat} {P : TrbtPath α} {fP : List Nat}, PathSeg h dc c₀ q₀ c q P fP →
      (fT ++ fP).Nodup → ∀ x ∈ fT, ∃ q' t p ft fp, Subtree h dc (some x) q' t ft ∧
        PathSeg h dc c₀ q₀ (some x) q' p fp ∧ (ft ++ fp).Perm (fT ++ fP) ∧ Lib.plug t p = Lib.plug T P := by
  induction hT with
  | leaf q => intro _ _ _ _ _ _ x hx; cases hx
  | @dummy d n q hd hn hq hl hr hc =>
      intro _ _ P fP hP _ x hx
      obtain rfl := List.mem_singleton.mp hx
      exact ⟨q, _, P, _, fP, .dummy hd hn hq hl hr hc, hP, .refl _, rfl⟩
  | @node a n q v l r fl fr ha hn hq hv hl hr hnd ihl ihr =>
      intro _ _ P fP hP hnd' x hx
      rcases List.mem_cons.mp hx with rfl | hx
      · exact ⟨q, _, P, _, fP, .node ha hn hq hv hl hr hnd, hP, .refl _, rfl⟩
      -- below the node, its frame joins the segment
      subst hq
      rw [List.cons_append, List.append_assoc] at hnd'
      rcases List.mem_append.mp hx with hx | hx
      · have hP' : PathSeg h dc _ _ n.left (some a) (⟨.left, n.rbColor, n.key32, v, r⟩ :: P) (a :: (fr ++ fP)) :=
          .cons ha hn hv rfl hr hP
            (hnd'.sublist (List.cons_sublist_cons.mpr (List.sublist_append_right _ _)))
        have hperm : (fl ++ a :: (fr ++ fP)).Perm (a :: (fl ++ (fr ++ fP))) := List.perm_middle
        obtain ⟨q', t, p, ft, fp, ht, hp, hperm', hplug⟩ := ihl hP' (hperm.nodup_iff.mpr hnd') x hx
        exact ⟨q', t, p, ft, fp, ht, hp, hperm'.trans (hperm.trans (by simp)), hplug⟩
      · have hP' : PathSeg h dc _ _ n.right (some a) (⟨.right, n.rbColor, n.key32, v, l⟩ :: P) (a :: (fl ++ fP)) :=
          .cons ha hn hv rfl hl hP (hnd'.sublist (List.cons_sublist_cons.mpr
            ((List.Sublist.refl fl).append (List.sublist_append_right _ _))))
        have hperm : (fr ++ a :: (fl ++ fP)).Perm (a :: (fl ++ (fr ++ fP))) := by
          refine List.perm_middle.trans (List.Perm.cons a ?_)
          rw [← List.append_assoc, ← List.append_assoc]
          exact List.perm_append_comm.append_right fP
        obtain ⟨q', t, p, ft, fp, ht, hp, hperm', hplug⟩ := ihr hP' (hperm.nodup_iff.mpr hnd') x hx
        exact ⟨q', t, p, ft, fp, ht, hp, hperm'.trans (hperm.trans (by simp)), hplug⟩

/-- Every node of a tree read from the root is the focus of a zipper of that
tree. -/
theorem TreeOn.focus {T : TrbtNode α} {fz : List Nat} (hT : TreeOn h dc T fz) :
    ∀ x ∈ fz, ∃ q t p, Zipper h dc (some x) q t p fz ∧ Lib.plug t p = T := by
  obtain ⟨fT, hs, hperm, hnd⟩ := hT
  intro x hx
  obtain ⟨q, t, p, ft, fp, ht, hp, hperm', hplug⟩ :=
    hs.focus (PathAt.root rfl) (by simpa using hperm.nodup_iff.mpr hnd) x (hperm.mem_iff.mpr hx)
  exact ⟨q, t, p, ⟨ft, fp, ht, hp, hperm'.trans (by simpa using hperm), hnd⟩, hplug⟩

/-! ## Moving the focus -/

/-- The focus moves up to its parent, which takes the frame's place. -/
theorem Zipper.up {c q : Option Nat} {t : TrbtNode α} {f : RbFrame UInt32 α} {p : TrbtPath α}
    {fz : List Nat} (hz : Zipper h dc c q t (f :: p) fz) :
    ∃ b n, q = some b ∧ h.nodes b = some n ∧ n.child f.side = c ∧
      Zipper h dc (some b) n.parent (f.attach t) p fz := by
  obtain ⟨ft, fp, ht, hp, hperm, hnd⟩ := hz
  cases hp with
  | @cons _ b n side v s _ fs fp hb hn hv hc hs hp hnd' =>
      have hperm' : (ft ++ b :: (fs ++ fp)).Perm ((b :: (ft ++ fs)) ++ fp) := by
        rw [List.cons_append, List.append_assoc]
        exact List.perm_middle
      have hnd2 := hperm'.nodup_iff.mp (hperm.nodup_iff.mpr hnd)
      obtain ⟨fb, hfb, hpb⟩ := Subtree.attach _ hb hn rfl hv (hc ▸ ht) hs
        (hnd2.sublist (List.sublist_append_left _ _))
      exact ⟨b, n, rfl, hn, hc, fb, fp, hfb, hp, (hpb.append_right fp).trans (hperm'.symm.trans hperm), hnd⟩

/-- The focus moves down to either child of its node, the node becoming the
first frame. -/
theorem Zipper.down {a : Nat} {q : Option Nat} {col : RbColor} {l r : TrbtNode α} {k : UInt32} {v : α}
    {p : TrbtPath α} {fz : List Nat} (hz : Zipper h dc (some a) q (.node col l k v r) p fz) :
    ∃ n, h.nodes a = some n ∧ dc ≠ some a ∧ n.parent = q ∧ n.rbColor = col ∧ n.key32 = k ∧
      n.data = some v ∧ Zipper h dc n.left (some a) l (⟨.left, col, k, v, r⟩ :: p) fz ∧
      Zipper h dc n.right (some a) r (⟨.right, col, k, v, l⟩ :: p) fz := by
  obtain ⟨ft, fp, ht, hp, hperm, hnd⟩ := hz
  cases ht with
  | @node _ n _ _ _ _ fl fr ha hn hq hv hl hr _ =>
      subst hq
      have hnd' : (a :: (fl ++ (fr ++ fp))).Nodup := by
        simpa using hperm.nodup_iff.mpr hnd
      refine ⟨n, hn, ha, rfl, rfl, rfl, hv, ⟨fl, a :: (fr ++ fp), hl, ?_, ?_, hnd⟩,
        ⟨fr, a :: (fl ++ fp), hr, ?_, ?_, hnd⟩⟩
      · exact .cons ha hn hv rfl hr hp
          (hnd'.sublist (List.cons_sublist_cons.mpr (List.sublist_append_right _ _)))
      · exact List.perm_middle.trans ((List.Perm.refl _).trans (by simpa using hperm))
      · exact .cons ha hn hv rfl hl hp (hnd'.sublist (List.cons_sublist_cons.mpr
          ((List.Sublist.refl fl).append (List.sublist_append_right _ _))))
      · refine List.perm_middle.trans (List.Perm.trans ?_ (by simpa using hperm))
        refine List.Perm.cons a ?_
        rw [← List.append_assoc, ← List.append_assoc]
        exact List.perm_append_comm.append_right fp

/-! ## Changing one node -/

/-- The root of a subtree with its colour, key or data changed and its pointers
kept. -/
theorem Subtree.modify_root {a : Nat} {n n' : HeapNode α} {q : Option Nat} {c : RbColor} {l r : TrbtNode α}
    {k : UInt32} {v v' : α} {ft : List Nat} (hs : Subtree h dc (some a) q (.node c l k v r) ft)
    (hn : h.nodes a = some n) (hq : n'.parent = n.parent) (hl : n'.left = n.left) (hr : n'.right = n.right)
    (hv : n'.data = some v') :
    Subtree (h.setNode a n') dc (some a) q (.node n'.rbColor l n'.key32 v' r) ft := by
  cases hs with
  | @node _ m _ _ _ _ fl fr ha hm hq' _ hsl hsr hnd =>
      obtain rfl : m = n := Option.some.inj (hm.symm.trans hn)
      have hagree : ∀ x ∈ fl ++ fr, (h.setNode a n').nodes x = h.nodes x := fun x hx =>
        TrbtHeap.setNode_nodes_of_ne fun hxa : x = a => (List.nodup_cons.mp hnd).1 (hxa ▸ hx)
      refine .node ha TrbtHeap.setNode_nodes_self (hq.trans hq') hv ?_ ?_ hnd
      · rw [hl]
        exact hsl.frame fun x hx => hagree x (List.mem_append_left _ hx)
      · rw [hr]
        exact hsr.frame fun x hx => hagree x (List.mem_append_right _ hx)

/-- The first node of a segment recoloured. -/
theorem PathSeg.recolor_head {c₀ q₀ c : Option Nat} {b : Nat} {n : HeapNode α} {f : RbFrame UInt32 α}
    {p : TrbtPath α} {fp : List Nat} (hp : PathSeg h dc c₀ q₀ c (some b) (f :: p) fp)
    (hn : h.nodes b = some n) (col : RbColor) :
    PathSeg (h.setNode b (n.withColor col)) dc c₀ q₀ c (some b) ({ f with color := col } :: p) fp := by
  cases hp with
  | @cons _ _ m side _ s _ fs fp hb hm hv hc hs hp hnd =>
      obtain rfl : m = n := Option.some.inj (hm.symm.trans hn)
      have hagree : ∀ x ∈ fs ++ fp, (h.setNode b (m.withColor col)).nodes x = h.nodes x :=
        fun x hx => TrbtHeap.setNode_nodes_of_ne fun hxb : x = b => (List.nodup_cons.mp hnd).1 (hxb ▸ hx)
      refine .cons (n := m.withColor col) hb TrbtHeap.setNode_nodes_self hv (by simpa using hc) ?_ ?_ hnd
      · simpa using hs.frame fun x hx => hagree x (List.mem_append_left _ hx)
      · exact hp.frame fun x hx => hagree x (List.mem_append_right _ hx)

/-! ## Writes within a footprint -/

/-- `h'` differs from `h` at most at the nodes `fw` and in the root pointer. -/
structure WritesWithin (fw : List Nat) (h h' : TrbtHeap α) : Prop where
  nodes : ∀ x, x ∉ fw → h'.nodes x = h.nodes x
  next : h'.next = h.next
  flags : h'.flags = h.flags
  treeFreed : h'.treeFreed = h.treeFreed
  useAfterFree : h'.useAfterFree = h.useAfterFree

theorem WritesWithin.refl (fw : List Nat) (h : TrbtHeap α) : WritesWithin fw h h :=
  ⟨fun _ _ => rfl, rfl, rfl, rfl, rfl⟩

theorem WritesWithin.trans {fw : List Nat} {h'' : TrbtHeap α} (h₁ : WritesWithin fw h h')
    (h₂ : WritesWithin fw h' h'') : WritesWithin fw h h'' :=
  ⟨fun x hx => (h₂.nodes x hx).trans (h₁.nodes x hx), h₂.next.trans h₁.next, h₂.flags.trans h₁.flags,
    h₂.treeFreed.trans h₁.treeFreed, h₂.useAfterFree.trans h₁.useAfterFree⟩

theorem WritesWithin.mono {fw fw' : List Nat} (hw : WritesWithin fw h h') (hsub : ∀ x ∈ fw, x ∈ fw') :
    WritesWithin fw' h h' :=
  ⟨fun x hx => hw.nodes x fun hx' => hx (hsub x hx'), hw.next, hw.flags, hw.treeFreed, hw.useAfterFree⟩

/-- Writing one node of the footprint. -/
theorem WritesWithin.setNode {fw : List Nat} {a : Nat} (ha : a ∈ fw) (n : HeapNode α) :
    WritesWithin fw h (h.setNode a n) :=
  ⟨fun _ hx => TrbtHeap.setNode_nodes_of_ne fun hxa => hx (hxa ▸ ha), rfl, rfl, rfl, rfl⟩

/-! ## The dummy -/

/-- A reading depends on the dummy only at its own addresses. -/
theorem Subtree.change_dc {dc' c q : Option Nat} {t : TrbtNode α} {ft : List Nat}
    (hs : Subtree h dc c q t ft) (hdc : ∀ d ∈ ft, dc = some d ↔ dc' = some d) : Subtree h dc' c q t ft := by
  induction hs with
  | leaf q => exact .leaf q
  | dummy hd hn hq hl hr hc =>
      exact .dummy ((hdc _ (List.mem_singleton_self _)).mp hd) hn hq hl hr hc
  | node ha hn hq hv _ _ hnd ihl ihr =>
      refine .node (fun h' => ha ((hdc _ List.mem_cons_self).mpr h')) hn hq hv
        (ihl fun d hd => hdc d ?_) (ihr fun d hd => hdc d ?_) hnd
      · exact List.mem_cons_of_mem _ (List.mem_append_left _ hd)
      · exact List.mem_cons_of_mem _ (List.mem_append_right _ hd)

theorem PathSeg.change_dc {dc' c₀ q₀ c q : Option Nat} {p : TrbtPath α} {fp : List Nat}
    (hp : PathSeg h dc c₀ q₀ c q p fp) (hdc : ∀ d ∈ fp, dc = some d ↔ dc' = some d) :
    PathSeg h dc' c₀ q₀ c q p fp := by
  induction hp with
  | nil => exact .nil
  | cons hb hn hv hc hs _ hnd ih =>
      refine .cons (fun h' => hb ((hdc _ List.mem_cons_self).mpr h')) hn hv hc
        (hs.change_dc fun d hd => hdc d ?_) (ih fun d hd => hdc d ?_) hnd
      · exact List.mem_cons_of_mem _ (List.mem_append_left _ hd)
      · exact List.mem_cons_of_mem _ (List.mem_append_right _ hd)

theorem Zipper.change_dc {dc' c q : Option Nat} {t : TrbtNode α} {p : TrbtPath α} {fz : List Nat}
    (hz : Zipper h dc c q t p fz) (hdc : ∀ d ∈ fz, dc = some d ↔ dc' = some d) : Zipper h dc' c q t p fz := by
  obtain ⟨ft, fp, ht, hp, hperm, hnd⟩ := hz
  refine ⟨ft, fp, ht.change_dc fun d hd => hdc d ?_, hp.change_dc fun d hd => hdc d ?_, hperm, hnd⟩
  · exact hperm.subset (List.mem_append_left _ hd)
  · exact hperm.subset (List.mem_append_right _ hd)

theorem TreeOn.change_dc {dc' : Option Nat} {t : TrbtNode α} {fz : List Nat} (ht : TreeOn h dc t fz)
    (hdc : ∀ d ∈ fz, dc = some d ↔ dc' = some d) : TreeOn h dc' t fz := by
  obtain ⟨ft, hs, hperm, hnd⟩ := ht
  exact ⟨ft, hs.change_dc fun d hd => hdc d (hperm.subset hd), hperm, hnd⟩

/-! ## Changing one pointer -/

/-- A path whose first node now points on the frame's side to `c'`, or whose
root pointer is now `c'`, reads the same from `c'`. -/
theorem PathAt.retarget {c c' q : Option Nat} {p : TrbtPath α} {fp : List Nat} (hp : PathAt h dc c q p fp)
    (hagree : ∀ x ∈ fp, q ≠ some x → h'.nodes x = h.nodes x)
    (hnode : ∀ b n f p', q = some b → p = f :: p' → h.nodes b = some n →
      h'.nodes b = some (n.setChild f.side c'))
    (hroot : h'.root = if q.isNone then c' else h.root) : PathAt h' dc c' q p fp := by
  cases hp with
  | nil => exact PathAt.root (by rw [hroot]; rfl)
  | @cons _ b n side v s p fs fp hb hn hv hc hs hp hnd =>
      have hb' := hnode b n _ p rfl rfl hn
      have hs' : Subtree h' dc (n.other side) (some b) s fs := by
        refine hs.frame fun x hx => hagree x (List.mem_cons_of_mem _ (List.mem_append_left _ hx)) ?_
        rintro ⟨rfl⟩
        exact (List.nodup_cons.mp hnd).1 (List.mem_append_left _ hx)
      have hp' : PathAt h' dc (some b) n.parent p fp := by
        refine PathAt.frame hp (fun x hx => hagree x (List.mem_cons_of_mem _ (List.mem_append_right _ hx)) ?_)
          (by simpa using hroot)
        rintro ⟨rfl⟩
        exact (List.nodup_cons.mp hnd).1 (List.mem_append_right _ hx)
      -- the node keeps its colour, key and data, and its other child
      cases side with
      | left => exact .cons (n := { n with left := c' }) hb hb' hv rfl hs' hp' hnd
      | right => exact .cons (n := { n with right := c' }) hb hb' hv rfl hs' hp' hnd

/-- A subtree whose root's parent pointer now points to `q'` reads the same
below `q'`. -/
theorem Subtree.reparent {c q q' : Option Nat} {t : TrbtNode α} {fp : List Nat} (hs : Subtree h dc c q t fp)
    (hagree : ∀ x ∈ fp, c ≠ some x → h'.nodes x = h.nodes x)
    (hnode : ∀ a n, c = some a → h.nodes a = some n → h'.nodes a = some { n with parent := q' }) :
    Subtree h' dc c q' t fp := by
  cases hs with
  | leaf q => exact .leaf q'
  | dummy hd hn hq hl hr hc => exact .dummy hd (hnode _ _ rfl hn) rfl hl hr hc
  | @node a n q v l r fl fr ha hn hq hv hl hr hnd =>
      have hn' := hnode a n rfl hn
      have hl' : Subtree h' dc n.left (some a) l fl :=
        hl.frame fun x hx => hagree x (List.mem_cons_of_mem _ (List.mem_append_left _ hx))
          (by rintro ⟨rfl⟩; exact (List.nodup_cons.mp hnd).1 (List.mem_append_left _ hx))
      have hr' : Subtree h' dc n.right (some a) r fr :=
        hr.frame fun x hx => hagree x (List.mem_cons_of_mem _ (List.mem_append_right _ hx))
          (by rintro ⟨rfl⟩; exact (List.nodup_cons.mp hnd).1 (List.mem_append_right _ hx))
      exact .node (n := { n with parent := q' }) ha hn' rfl hv hl' hr' hnd

end Ctdb.Heap

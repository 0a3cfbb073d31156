import Ctdb.Proofs.RbHeapShape

/-!
# The steps of the fix-ups, on the pointer tree

The fix-up cases of `rb_tree.c` are made of a few steps: reading a colour,
setting one, finding a node's sibling, uncle or grandparent through the
parent pointers, and rotating. Each step is a lemma here about a zipper the
heap reads as: the step reads what the tree says, or writes what the step of
`RbTree/Tree.lean` does to the tree, and writes nothing outside the tree's
addresses.

* **Colours.** `trbt_get_color` and its variants for a child read the colour
  of a subtree, and `trbt_set_color` recolours one: the focus, the node of
  the first frame or the root of its sibling (`Zipper.recolor`,
  `Zipper.recolor_parent`, `Zipper.recolor_sibling`), writing only there.
* **Relatives.** `trbt_sibling`, `trbt_uncle` and `trbt_grandparent` find the
  sibling subtree of the first or the second frame, and the node of the second.
* **Rotations.** What `trbt_rotate_left` and `trbt_rotate_right` write is one
  statement about the six pointers they move (`Rotated`), proved by running
  each path through the code; a rotation at the focus then turns the focus
  subtree as the functional rotation does (`Zipper.runsTo_rotate`), for
  either side at once.
-/

namespace Ctdb.Heap

open Lib

variable {α : Type} {h h' : TrbtHeap α} {dc : Option Nat}

/-! ## Running the primitives -/

theorem runsTo_modifyNode {a : Nat} {n : HeapNode α} {f : HeapNode α → HeapNode α}
    {P : Unit → TrbtHeap α → Prop} (hn : h.nodes a = some n) :
    RunsTo (modifyNode (some a) f) h P ↔ P () (h.setNode a (f n)) :=
  runsTo_of_run (by simp [modifyNode, getNode, hn]; rfl)

theorem runsTo_setRoot {v : Option Nat} {P : Unit → TrbtHeap α → Prop} (hf : h.treeFreed = false) :
    RunsTo (setRoot v) h P ↔ P () { h with root := v } :=
  runsTo_of_run (by simp [setRoot, treeAccess, hf]; rfl)

theorem runsTo_getRoot {P : Option Nat → TrbtHeap α → Prop} (hf : h.treeFreed = false) :
    RunsTo getRoot h P ↔ P h.root h :=
  runsTo_of_run (getRoot_run hf)

theorem runsTo_nodeTree {a : Nat} {n : HeapNode α} {P : Unit → TrbtHeap α → Prop}
    (hn : h.nodes a = some n) : RunsTo (nodeTree (some a)) h P ↔ P () h :=
  runsTo_of_run (nodeTree_run hn)

/-! ## Colours -/

section Colours

variable {c q : Option Nat} {t : TrbtNode α} {ft : List Nat}

theorem Subtree.runsTo_trbtGetColor {P : RbColor → TrbtHeap α → Prop} (hs : Subtree h dc c q t ft) :
    RunsTo (trbtGetColor c) h P ↔ P t.color h := by
  cases hs with
  | leaf => simp [trbtGetColor, RbNode.color]
  | dummy _ hn _ _ _ hc => simp [trbtGetColor, runsTo_getNode hn, hc, RbNode.color]
  | node _ hn => simp [trbtGetColor, runsTo_getNode hn, RbNode.color]

theorem Subtree.runsTo_trbtGetColorLeft {P : RbColor → TrbtHeap α → Prop} (hs : Subtree h dc c q t ft) :
    RunsTo (trbtGetColorLeft c) h P ↔ P t.leftColor h := by
  cases hs with
  | leaf => simp [trbtGetColorLeft, RbNode.leftColor]
  | dummy _ hn _ hl => simp [trbtGetColorLeft, runsTo_getNode hn, hl, trbtGetColor, RbNode.leftColor]
  | node _ hn _ _ hl => simp [trbtGetColorLeft, runsTo_getNode hn, hl.runsTo_trbtGetColor, RbNode.leftColor]

theorem Subtree.runsTo_trbtGetColorRight {P : RbColor → TrbtHeap α → Prop} (hs : Subtree h dc c q t ft) :
    RunsTo (trbtGetColorRight c) h P ↔ P t.rightColor h := by
  cases hs with
  | leaf => simp [trbtGetColorRight, RbNode.rightColor]
  | dummy _ hn _ _ hr => simp [trbtGetColorRight, runsTo_getNode hn, hr, trbtGetColor, RbNode.rightColor]
  | node _ hn _ _ _ hr => simp [trbtGetColorRight, runsTo_getNode hn, hr.runsTo_trbtGetColor, RbNode.rightColor]

theorem runsTo_setColor {a : Nat} {n : HeapNode α} {col : RbColor} {P : Unit → TrbtHeap α → Prop}
    (hn : h.nodes a = some n) :
    RunsTo (setColor (some a) col) h P ↔ P () (h.setNode a (n.withColor col)) :=
  runsTo_modifyNode hn

theorem runsTo_trbtSetColor_some {a : Nat} {n : HeapNode α} {col : RbColor} {P : Unit → TrbtHeap α → Prop}
    (hn : h.nodes a = some n) :
    RunsTo (trbtSetColor (some a) col) h P ↔ P () (h.setNode a (n.withColor col)) := by
  rw [trbtSetColor, if_neg (by simp)]
  exact runsTo_setColor hn

/-- Recolouring the node a subtree starts at: a node takes any colour, the
black dummy black. -/
theorem Subtree.recolor {a : Nat} {n : HeapNode α} (hs : Subtree h dc (some a) q t ft)
    (hn : h.nodes a = some n) (col : RbColor) (hcol : t ≠ .leaf ∨ col = .black) :
    Subtree (h.setNode a (n.withColor col)) dc (some a) q (t.setColor col) ft := by
  cases hs with
  | dummy hd hn' hq hl hr hc =>
      obtain rfl : col = .black := hcol.resolve_left fun h => h rfl
      obtain rfl := Option.some.inj (hn.symm.trans hn')
      exact .dummy hd TrbtHeap.setNode_nodes_self hq hl hr rfl
  | node ha hn' hq hv hl hr hnd =>
      obtain rfl := Option.some.inj (hn.symm.trans hn')
      exact (Subtree.node ha hn hq hv hl hr hnd).modify_root hn rfl rfl rfl hv

end Colours

/-! ## Recolouring inside a zipper -/

section Zipper

variable {c q : Option Nat} {t : TrbtNode α} {p : TrbtPath α} {fz : List Nat}

/-- Recolouring the focus. -/
theorem Zipper.recolor {a : Nat} {n : HeapNode α} (hz : Zipper h dc (some a) q t p fz)
    (hn : h.nodes a = some n) (col : RbColor) (hcol : t ≠ .leaf ∨ col = .black) :
    Zipper (h.setNode a (n.withColor col)) dc (some a) q (t.setColor col) p fz ∧
      WritesWithin fz h (h.setNode a (n.withColor col)) := by
  obtain ⟨ft, fp, ht, hp, hperm, hnd⟩ := hz
  have hnd' := hperm.nodup_iff.mpr hnd
  have ha := ht.mem_of_eq_some rfl
  refine ⟨⟨ft, fp, ht.recolor hn col hcol, PathAt.frame hp (fun x hx => TrbtHeap.setNode_nodes_of_ne ?_) rfl,
    hperm, hnd⟩, .setNode (hperm.subset (List.mem_append_left _ ha)) _⟩
  rintro rfl
  exact List.disjoint_of_nodup_append hnd' ha hx

/-- Recolouring the first frame's node. -/
theorem Zipper.recolor_parent {b : Nat} {n : HeapNode α} {f : RbFrame UInt32 α}
    (hz : Zipper h dc c (some b) t (f :: p) fz) (hn : h.nodes b = some n) (col : RbColor) :
    Zipper (h.setNode b (n.withColor col)) dc c (some b) t ({ f with color := col } :: p) fz ∧
      WritesWithin fz h (h.setNode b (n.withColor col)) := by
  obtain ⟨ft, fp, ht, hp, hperm, hnd⟩ := hz
  have hnd' := hperm.nodup_iff.mpr hnd
  obtain ⟨-, -, hbfp⟩ := PathSeg.head_node hp
  refine ⟨⟨ft, fp, ht.frame fun x hx => TrbtHeap.setNode_nodes_of_ne ?_, hp.recolor_head hn col, hperm, hnd⟩,
    .setNode (hperm.subset (List.mem_append_right _ hbfp)) _⟩
  rintro rfl
  exact List.disjoint_of_nodup_append hnd' hx hbfp

/-- Recolouring the node the first frame's sibling starts at. -/
theorem Zipper.recolor_sibling {b a : Nat} {nb n : HeapNode α} {f : RbFrame UInt32 α}
    (hz : Zipper h dc c (some b) t (f :: p) fz) (hnb : h.nodes b = some nb) (ha : nb.other f.side = some a)
    (hn : h.nodes a = some n) (col : RbColor) (hcol : f.sibling ≠ .leaf ∨ col = .black) :
    Zipper (h.setNode a (n.withColor col)) dc c (some b) t ({ f with sibling := f.sibling.setColor col } :: p) fz ∧
      WritesWithin fz h (h.setNode a (n.withColor col)) := by
  obtain ⟨ft, fp, ht, hp, hperm, hnd⟩ := hz
  have hnd' := hperm.nodup_iff.mpr hnd
  cases hp with
  | @cons _ _ m side v s p fs fp hb hm hv hc hs hp hnd2 =>
      obtain rfl := Option.some.inj (hnb.symm.trans hm)
      rw [ha] at hs
      have has := hs.mem_of_eq_some rfl
      -- the sibling's root is apart from the focus, the node and the frames above
      have haft : ∀ x ∈ ft, x ≠ a := by
        rintro x hx rfl
        exact List.disjoint_of_nodup_append hnd' hx (List.mem_cons_of_mem _ (List.mem_append_left _ has))
      have hafp : ∀ x ∈ fp, x ≠ a := by
        rintro x hx rfl
        exact List.disjoint_of_nodup_append (List.nodup_cons.mp hnd2).2 has hx
      have hab : b ≠ a := by
        rintro rfl
        exact (List.nodup_cons.mp hnd2).1 (List.mem_append_left _ has)
      refine ⟨⟨ft, b :: (fs ++ fp), ht.frame fun x hx => TrbtHeap.setNode_nodes_of_ne (haft x hx),
        .cons hb ((TrbtHeap.setNode_nodes_of_ne hab).trans hnb) hv hc (ha ▸ hs.recolor hn col hcol)
          (PathAt.frame hp (fun x hx => TrbtHeap.setNode_nodes_of_ne (hafp x hx)) rfl) hnd2, hperm, hnd⟩,
        .setNode (hperm.subset (List.mem_append_right _ (List.mem_cons_of_mem _ (List.mem_append_left _ has)))) _⟩

end Zipper

/-! ## Relatives -/

section Relatives

variable {x b : Nat} {nb : HeapNode α} {f : RbFrame UInt32 α} {t : TrbtNode α} {p : TrbtPath α}
  {fz : List Nat}

/-- The focus at `x` under its parent `b`: the node at `x`, another address,
points up to `b`, and the frame's side is the child pointer of `b` that leads
to `x`. -/
theorem Zipper.head {q : Option Nat} (hz : Zipper h dc (some x) q t (f :: p) fz) (hq : q = some b)
    (hnb : h.nodes b = some nb) :
    ∃ nx, h.nodes x = some nx ∧ nx.parent = some b ∧ x ≠ b ∧ nb.child f.side = some x ∧
      nb.other f.side ≠ some x := by
  subst hq
  obtain ⟨ft, fp, ht, hp, hperm, hnd⟩ := hz
  obtain ⟨nx, hnx, hqx⟩ := ht.exists_node
  have hxfp := List.disjoint_of_nodup_append (hperm.nodup_iff.mpr hnd) (ht.mem_of_eq_some rfl)
  obtain ⟨-, -, hbfp⟩ := PathSeg.head_node hp
  exact ⟨nx, hnx, hqx, fun e => hxfp (e ▸ hbfp), hp.head_side hxfp hnb⟩

/-- `trbt_sibling`: the other child of the first frame's node. -/
theorem Zipper.runsTo_trbtSibling {P : Option Nat → TrbtHeap α → Prop}
    (hz : Zipper h dc (some x) (some b) t (f :: p) fz) (hnb : h.nodes b = some nb) :
    RunsTo (trbtSibling (some x)) h P ↔ P (nb.other f.side) h := by
  obtain ⟨nx, hnx, hqx, -, hc, ho⟩ := hz.head rfl hnb
  simp only [trbtSibling, runsTo_bind, runsTo_getNode hnx, hqx, runsTo_getNode hnb, Option.isNone_some,
    Bool.false_eq_true, if_false]
  cases hs : f.side with
  | left =>
      simp only [hs, HeapNode.child_left] at hc
      simp [hc, runsTo_getNode hnb]
  | right =>
      simp only [hs, HeapNode.other_right] at ho
      simp [Ne.symm ho, runsTo_getNode hnb]

/-- `trbt_grandparent`: the parent of the first frame's node. -/
theorem Zipper.runsTo_trbtGrandparent {P : Option Nat → TrbtHeap α → Prop}
    (hz : Zipper h dc (some x) (some b) t (f :: p) fz) (hnb : h.nodes b = some nb) :
    RunsTo (trbtGrandparent (some x)) h P ↔ P nb.parent h := by
  obtain ⟨nx, hnx, hqx, -, -⟩ := hz.head rfl hnb
  simp [trbtGrandparent, runsTo_getNode hnx, hqx, runsTo_getNode hnb]

/-- `trbt_uncle` under a grandparent: the other child of the second frame's
node. -/
theorem Zipper.runsTo_trbtUncle {g : Nat} {ng : HeapNode α} {f' : RbFrame UInt32 α}
    {P : Option Nat → TrbtHeap α → Prop} (hz : Zipper h dc (some x) (some b) t (f :: f' :: p) fz)
    (hnb : h.nodes b = some nb) (hg : nb.parent = some g) (hng : h.nodes g = some ng) :
    RunsTo (trbtUncle (some x)) h P ↔ P (ng.other f'.side) h := by
  obtain ⟨nx, hnx, hqx, -, -⟩ := hz.head rfl hnb
  obtain ⟨b', nb', hb', hnb', -, hz'⟩ := hz.up
  cases hb'
  obtain rfl : nb' = nb := Option.some.inj (hnb'.symm.trans hnb)
  obtain ⟨-, -, -, -, hc, ho⟩ := hz'.head hg hng
  simp only [trbtUncle, runsTo_bind, runsTo_getNode hnx, hqx, runsTo_getNode hnb, hg, runsTo_getNode hng,
    Option.isNone_some, Bool.false_eq_true, if_false]
  cases hs : f'.side with
  | left =>
      simp only [hs, HeapNode.child_left] at hc
      simp [hc, runsTo_getNode hng]
  | right =>
      simp only [hs, HeapNode.other_right] at ho
      simp [Ne.symm ho, runsTo_getNode hng]

/-- `trbt_uncle` at the root's child: there is no uncle. -/
theorem Zipper.runsTo_trbtUncle_root {P : Option Nat → TrbtHeap α → Prop}
    (hz : Zipper h dc (some x) (some b) t [f] fz) (hnb : h.nodes b = some nb) :
    RunsTo (trbtUncle (some x)) h P ↔ P none h := by
  obtain ⟨nx, hnx, hqx, -, -⟩ := hz.head rfl hnb
  obtain ⟨b', nb', hb', hnb', -, hz'⟩ := hz.up
  cases hb'
  obtain rfl : nb' = nb := Option.some.inj (hnb'.symm.trans hnb)
  obtain ⟨ft, fp, -, hp, -, -⟩ := hz'
  obtain ⟨-, hg, -⟩ := hp.nil_inv
  simp [trbtUncle, runsTo_getNode hnx, hqx, runsTo_getNode hnb, hg]

end Relatives

/-! ## Rotations -/

/-- What a rotation at `x` whose child `y` on side `s` moves up writes: `y`
takes `x`'s place below `x`'s parent, or at the root, with `x` as its child on
the other side, and `x` takes over `y`'s child on that side as its child on
side `s`. Every other node is as it was. -/
structure Rotated (s : Side) (x y : Nat) (nx ny : HeapNode α) (h h' : TrbtHeap α) : Prop where
  node_x : h'.nodes x = some ((nx.setChild s (ny.other s)).withParent (some y))
  node_y : h'.nodes y = some ((ny.setOther s (some x)).withParent nx.parent)
  inner : ∀ z nz, ny.other s = some z → h.nodes z = some nz → h'.nodes z = some (nz.withParent (some x))
  parent : ∀ b nb, nx.parent = some b → h.nodes b = some nb →
    h'.nodes b = some (nb.setChild (if nb.left = some x then .left else .right) (some y))
  root : h'.root = if nx.parent.isNone then some y else h.root
  rest : ∀ w, w ≠ x → w ≠ y → some w ≠ ny.other s → some w ≠ nx.parent → h'.nodes w = h.nodes w
  next : h'.next = h.next
  flags : h'.flags = h.flags
  treeFreed : h'.treeFreed = h.treeFreed
  useAfterFree : h'.useAfterFree = h.useAfterFree

section Rotate

variable {x y : Nat} {nx ny : HeapNode α}

/-- `trbt_rotate_left`, run along each of its paths: with and without a parent,
on either side of it, and with and without an inner child to hand over. -/
theorem trbtRotateLeft_rotated (hx : h.nodes x = some nx) (hy : h.nodes y = some ny)
    (hxy : nx.right = some y) (hyx : y ≠ x)
    (hpar : ∀ b, nx.parent = some b → (h.nodes b).isSome ∧ b ≠ x ∧ b ≠ y)
    (hin : ∀ z, ny.left = some z → (h.nodes z).isSome ∧ z ≠ x ∧ z ≠ y ∧ nx.parent ≠ some z)
    (hf : h.treeFreed = false) :
    RunsTo (trbtRotateLeft (some x)) h fun _ h' => Rotated .right x y nx ny h h' := by
  have hxy' := hyx.symm
  rcases hp : nx.parent with _ | b <;> rcases hl : ny.left with _ | z
  case' none.some =>
    obtain ⟨hz, hzx, hzy, -⟩ := hin z hl
    obtain ⟨nz, hnz⟩ := Option.isSome_iff_exists.mp hz
    have hxz := hzx.symm
    have hyz := hzy.symm
  case' some.none =>
    obtain ⟨hb, hbx, hby⟩ := hpar b hp
    obtain ⟨nb, hnb⟩ := Option.isSome_iff_exists.mp hb
    have hxb := hbx.symm
    have hyb := hby.symm
    by_cases hbl : nb.left = some x
  case' some.some =>
    obtain ⟨hb, hbx, hby⟩ := hpar b hp
    obtain ⟨nb, hnb⟩ := Option.isSome_iff_exists.mp hb
    obtain ⟨hz, hzx, hzy, hzb⟩ := hin z hl
    obtain ⟨nz, hnz⟩ := Option.isSome_iff_exists.mp hz
    have hbz : b ≠ z := fun e => hzb (by rw [hp, e])
    have hxb := hbx.symm
    have hyb := hby.symm
    have hxz := hzx.symm
    have hyz := hzy.symm
    have hzb' := hbz.symm
    by_cases hbl : nb.left = some x
  -- each path is run through, and its writes read back
  all_goals
    clear hpar hin
    simp [trbtRotateLeft, RunsTo, nodeTree, getNode, modifyNode, setLeft, setRight, setParent, setRoot,
      treeAccess, *]
    simp only [pure, Except.pure]
    refine ⟨?_, ?_, fun z nz hz hnz => ?_, fun b nb hb hnb => ?_, ?_, fun w hwx hwy hwz hwb => ?_,
      rfl, rfl, ?_, ?_⟩ <;>
      simp_all [Function.update_apply, HeapNode.setChild, HeapNode.setOther, HeapNode.other, HeapNode.withParent]

/-- `trbt_rotate_right`, the mirror image. -/
theorem trbtRotateRight_rotated (hx : h.nodes x = some nx) (hy : h.nodes y = some ny)
    (hxy : nx.left = some y) (hyx : y ≠ x)
    (hpar : ∀ b, nx.parent = some b → (h.nodes b).isSome ∧ b ≠ x ∧ b ≠ y)
    (hin : ∀ z, ny.right = some z → (h.nodes z).isSome ∧ z ≠ x ∧ z ≠ y ∧ nx.parent ≠ some z)
    (hf : h.treeFreed = false) :
    RunsTo (trbtRotateRight (some x)) h fun _ h' => Rotated .left x y nx ny h h' := by
  have hxy' := hyx.symm
  rcases hp : nx.parent with _ | b <;> rcases hl : ny.right with _ | z
  case' none.some =>
    obtain ⟨hz, hzx, hzy, -⟩ := hin z hl
    obtain ⟨nz, hnz⟩ := Option.isSome_iff_exists.mp hz
    have hxz := hzx.symm
    have hyz := hzy.symm
  case' some.none =>
    obtain ⟨hb, hbx, hby⟩ := hpar b hp
    obtain ⟨nb, hnb⟩ := Option.isSome_iff_exists.mp hb
    have hxb := hbx.symm
    have hyb := hby.symm
    by_cases hbl : nb.left = some x
  case' some.some =>
    obtain ⟨hb, hbx, hby⟩ := hpar b hp
    obtain ⟨nb, hnb⟩ := Option.isSome_iff_exists.mp hb
    obtain ⟨hz, hzx, hzy, hzb⟩ := hin z hl
    obtain ⟨nz, hnz⟩ := Option.isSome_iff_exists.mp hz
    have hbz : b ≠ z := fun e => hzb (by rw [hp, e])
    have hxb := hbx.symm
    have hyb := hby.symm
    have hxz := hzx.symm
    have hyz := hzy.symm
    have hzb' := hbz.symm
    by_cases hbl : nb.left = some x
  -- each path is run through, and its writes read back
  all_goals
    clear hpar hin
    simp [trbtRotateRight, RunsTo, nodeTree, getNode, modifyNode, setLeft, setRight, setParent, setRoot,
      treeAccess, *]
    simp only [pure, Except.pure]
    refine ⟨?_, ?_, fun z nz hz hnz => ?_, fun b nb hb hnb => ?_, ?_, fun w hwx hwy hwz hwb => ?_,
      rfl, rfl, ?_, ?_⟩ <;>
      simp_all [Function.update_apply, HeapNode.setChild, HeapNode.setOther, HeapNode.other, HeapNode.withParent]

/-- A rotation at the focus `x`, whose child `y` on side `s` moves up, given by
what it writes: the focus subtree turns as the functional rotation turns it,
and `y` is the new focus. -/
theorem Zipper.runsTo_rotate {s : Side} {q : Option Nat} {cx cy : RbColor} {kx ky : UInt32} {vx vy : α}
    {A B D : TrbtNode α} {p : TrbtPath α} {fz : List Nat} {m : TrbtM α Unit}
    (hz : Zipper h dc (some x) q (RbFrame.attach ⟨s, cx, kx, vx, A⟩ (RbFrame.attach ⟨s, cy, ky, vy, B⟩ D)) p fz)
    (hx : h.nodes x = some nx) (hy : h.nodes y = some ny) (hxy : nx.child s = some y)
    (hm : y ≠ x → (∀ b, nx.parent = some b → (h.nodes b).isSome ∧ b ≠ x ∧ b ≠ y) →
      (∀ z, ny.other s = some z → (h.nodes z).isSome ∧ z ≠ x ∧ z ≠ y ∧ nx.parent ≠ some z) →
      RunsTo m h fun _ h' => Rotated s x y nx ny h h') :
    RunsTo m h fun _ h' => Rotated s x y nx ny h h' ∧
      Zipper h' dc (some y) q (RbFrame.attach ⟨s.opp, cy, ky, vy, D⟩ (RbFrame.attach ⟨s, cx, kx, vx, A⟩ B)) p fz ∧
      WritesWithin fz h h' := by
  obtain ⟨ft, fp, ht, hp, hperm, hnd⟩ := hz
  have hnd' := hperm.nodup_iff.mpr hnd
  -- the focus: `x` over `y` on side `s` and `A`, `y` over `D` on side `s` and `B`
  obtain ⟨x', nx', fY, fA, hx', hdx, hnx', hqx, hcx, hkx, hvx, hY, hA, hpermx, -⟩ := ht.attach_inv
  cases hx'
  obtain rfl : nx = nx' := Option.some.inj (hx.symm.trans hnx')
  rw [hxy] at hY
  obtain ⟨y', ny', fD, fB, hy', hdy, hny', hqy, hcy, hky, hvy, hD, hB, hpermy, -⟩ := hY.attach_inv
  cases hy'
  obtain rfl : ny = ny' := Option.some.inj (hy.symm.trans hny')
  have hpermt : ft.Perm (x :: ((y :: (fD ++ fB)) ++ fA)) := hpermx.trans (List.Perm.cons x (hpermy.append_right fA))
  have hall := (hpermt.append_right fp).nodup_iff.mp hnd'
  have hndt : (x :: ((y :: (fD ++ fB)) ++ fA)).Nodup := hall.sublist (List.sublist_append_left _ _)
  have hmem : ∀ w, w ∈ x :: ((y :: (fD ++ fB)) ++ fA) ++ fp → w ∈ fz := fun w hw =>
    hperm.subset ((hpermt.append_right fp).symm.subset hw)
  simp only [List.nodup_append, List.nodup_cons, List.cons_append, List.mem_append, List.mem_cons] at hall
  -- the parent is in the frames above, the inner child `B` hangs from in `fB`
  have hqfp : ∀ b, q = some b → b ∈ fp ∧ (h.nodes b).isSome := by
    rintro b rfl
    obtain ⟨nb, hnb, hb⟩ := PathSeg.head_node hp
    exact ⟨hb, by simp [hnb]⟩
  have hzfB : ∀ z, ny.other s = some z → z ∈ fB ∧ (h.nodes z).isSome := fun z hz =>
    ⟨hB.mem_of_eq_some hz, by obtain ⟨nz, hnz, -⟩ := (hz ▸ hB).exists_node; simp [hnz]⟩
  have hyx : y ≠ x := by grind
  refine (hm hyx (fun b hb => ?_) (fun z hz => ?_)).mono fun _ h' hrot => ⟨hrot, ?_⟩
  · obtain ⟨hbfp, hbn⟩ := hqfp b (hqx ▸ hb)
    exact ⟨hbn, by grind, by grind⟩
  · obtain ⟨hzfB, hzn⟩ := hzfB z hz
    refine ⟨hzn, by grind, by grind, fun hzq => ?_⟩
    obtain ⟨hzfp, -⟩ := hqfp z (hqx ▸ hzq)
    grind
  -- the nodes not written keep their values
  have hkeep : ∀ w, w ≠ x → w ≠ y → w ∉ fp → some w ≠ ny.other s → h'.nodes w = h.nodes w :=
    fun w hwx hwy hwp hwz => hrot.rest w hwx hwy hwz fun hwq => hwp (hqfp w (hqx ▸ hwq.symm)).1
  have hnotB : ∀ w, w ∉ fB → some w ≠ ny.other s := fun w hw hwz => hw (hzfB w hwz.symm).1
  -- `x` over `B` and `A`, below `y`
  obtain ⟨fX, hX, hpermX⟩ := Subtree.attach s (v := vx)
    (n := (nx.setChild s (ny.other s)).withParent (some y)) hdx hrot.node_x rfl (by simpa using hvx)
    (by
      simp only [HeapNode.child_withParent, HeapNode.child_setChild]
      exact hB.reparent (fun w hw hwz => hkeep w (by grind) (by grind) (by grind) (Ne.symm hwz)) hrot.inner)
    (by
      simp only [HeapNode.other_withParent, HeapNode.other_setChild]
      exact hA.frame fun w hw => hkeep w (by grind) (by grind) (by grind) (hnotB w (by grind)))
    (by grind)
  simp only [HeapNode.withParent_rbColor, HeapNode.withParent_key32, HeapNode.setChild_rbColor,
    HeapNode.setChild_key32] at hX
  -- `y` over `x` on the other side and `D`, below `x`'s parent
  obtain ⟨fY', hY', hpermY'⟩ := Subtree.attach s.opp (v := vy)
    (n := (ny.setOther s (some x)).withParent nx.parent) hdy hrot.node_y hqx (by simpa using hvy)
    (by simpa [hcx, hkx] using hX)
    (by simpa using hD.frame fun w hw => hkeep w (by grind) (by grind) (by grind) (hnotB w (by grind)))
    (by
      have hpermR : (y :: ((x :: (fB ++ fA)) ++ fD)).Perm (x :: ((y :: (fD ++ fB)) ++ fA)) :=
        List.perm_iff_count.mpr fun a => by simp only [List.count_cons, List.count_append]; omega
      exact (List.Perm.cons y (hpermX.append_right fD)).nodup_iff.mpr (hpermR.nodup_iff.mpr hndt))
  simp only [HeapNode.withParent_rbColor, HeapNode.withParent_key32, HeapNode.setOther_rbColor,
    HeapNode.setOther_key32, hcy, hky] at hY'
  -- the parent, or the root, now points to `y`
  have hp' : PathAt h' dc (some y) q p fp := by
    refine hp.retarget (fun w hw hwq => hrot.rest w (by grind) (by grind) (hnotB w (by grind))
      (by rw [hqx]; exact Ne.symm hwq)) ?_ (by rw [hrot.root, hqx])
    rintro b nb f p' rfl rfl hnb
    obtain ⟨hc, ho⟩ := hp.head_side (by grind) hnb
    rw [hrot.parent b nb hqx hnb, HeapNode.side_eq hc ho]
  refine ⟨⟨fY', fp, hY', hp', ?_, hnd⟩, ⟨fun w hw => ?_, hrot.next, hrot.flags, hrot.treeFreed,
    hrot.useAfterFree⟩⟩
  · have hpermR : (y :: ((x :: (fB ++ fA)) ++ fD)).Perm (x :: ((y :: (fD ++ fB)) ++ fA)) :=
      List.perm_iff_count.mpr fun a => by simp only [List.count_cons, List.count_append]; omega
    refine List.Perm.trans ?_ ((hpermt.append_right fp).symm.trans hperm)
    exact ((hpermY'.trans (List.Perm.cons y (hpermX.append_right fD))).trans hpermR).append_right fp
  · have hwx : w ≠ x := fun e => hw (hmem w (by simp [e]))
    have hwy : w ≠ y := fun e => hw (hmem w (by simp [e]))
    refine hrot.rest w hwx hwy (fun hwz => hw (hmem w ?_)) (fun hwq => hw (hmem w ?_))
    · simp [(hzfB w hwz.symm).1]
    · simp [(hqfp w (hqx ▸ hwq.symm)).1]

/-- `trbt_rotate_left` at the focus: the right child moves up. -/
theorem Zipper.runsTo_trbtRotateLeft {q : Option Nat} {c c' : RbColor} {k k' : UInt32} {v v' : α}
    {A B D : TrbtNode α} {p : TrbtPath α} {fz : List Nat}
    (hz : Zipper h dc (some x) q (.node c A k v (.node c' B k' v' D)) p fz)
    (hx : h.nodes x = some nx) (hy : h.nodes y = some ny) (hxy : nx.right = some y)
    (hf : h.treeFreed = false) :
    RunsTo (trbtRotateLeft (some x)) h fun _ h' => Rotated .right x y nx ny h h' ∧
      Zipper h' dc (some y) q (.node c' (.node c A k v B) k' v' D) p fz ∧ WritesWithin fz h h' :=
  Zipper.runsTo_rotate (s := .right) hz hx hy hxy fun hyx hpar hin =>
    trbtRotateLeft_rotated hx hy hxy hyx hpar hin hf

/-- `trbt_rotate_right` at the focus: the left child moves up. -/
theorem Zipper.runsTo_trbtRotateRight {q : Option Nat} {c c' : RbColor} {k k' : UInt32} {v v' : α}
    {A B D : TrbtNode α} {p : TrbtPath α} {fz : List Nat}
    (hz : Zipper h dc (some x) q (.node c (.node c' D k' v' B) k v A) p fz)
    (hx : h.nodes x = some nx) (hy : h.nodes y = some ny) (hxy : nx.left = some y)
    (hf : h.treeFreed = false) :
    RunsTo (trbtRotateRight (some x)) h fun _ h' => Rotated .left x y nx ny h h' ∧
      Zipper h' dc (some y) q (.node c' D k' v' (.node c B k v A)) p fz ∧ WritesWithin fz h h' :=
  Zipper.runsTo_rotate (s := .left) hz hx hy hxy fun hyx hpar hin =>
    trbtRotateRight_rotated hx hy hxy hyx hpar hin hf

end Rotate

end Ctdb.Heap

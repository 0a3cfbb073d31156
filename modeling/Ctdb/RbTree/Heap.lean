import Ctdb.RbTree.Tree

/-!
# `rb_tree.c` through its pointers

`RbTree/Tree.lean` follows the algorithm of `rb_tree.c` on trees and paths; it
cannot say what the code does when it writes through a pointer that no longer
points where the algorithm expects. Here a tree is memory: `trbt_node_t`
records at addresses, with the `parent`, `left` and `right` pointers the code
reads and writes, the `root` of the `trbt_tree_t`, and the next address that
`talloc` or a stack frame hands out. Every C function of the file that the
deletion and traversal paths reach is a function here under its own name,
statement by statement, and a pointer is read again each time the C code reads
it, so that the model does what the code does also when pointers are stale.

Reading or writing through `NULL`, or through an address that holds no node
(a node that was freed, or the dummy `dc` of a `delete_node` call that has
returned), is a fault, as is running out of the fuel that bounds each loop
and recursion: the depth of a tree in the heap is below `next`, and the calls
of `delete_node` nest at most three deep. The one exception is a node's
`tree` pointer. The model keeps no `tree` field, since every node of the heap
belongs to its one tree, and so it knows what a freed node still holds there:
reading `node->tree` through a freed node goes on with that value, as the code
does, and the heap records the use after free. `delete_node` does so at its
end when it was not called from the destructor: the `TRBT_AUTOFREE` test reads
`node->tree` after `talloc_free(node)` has released the node. A tree created
with `TRBT_AUTOFREE` (the array trees' subtrees are) is freed by that test
with its last node; any later access to it is a use after free too.

`talloc_free` of a node runs its destructor `node_destructor`, that is
`delete_node(node, true)`, and then releases it. Ownership is not modelled:
`talloc_steal` only says which data a node hangs off, and `talloc_free` of a
value is `talloc_free` of the node that holds it, which is the node whose
`data` it was read from.
-/

namespace Ctdb.Heap

open Lib

/-- `struct trbt_node`: addresses for pointers, `none` for `NULL`. -/
structure HeapNode (α : Type) where
  parent : Option Nat
  left : Option Nat
  right : Option Nat
  rbColor : RbColor
  key32 : UInt32
  data : Option α
  deriving DecidableEq

/-- What goes wrong with memory, and running out of fuel. -/
inductive TrbtFault
  /-- a `NULL` pointer is dereferenced -/
  | nullDeref
  /-- an address holding no node is dereferenced for anything but its `tree`
  pointer: a freed node, or the `dc` of a `delete_node` call that has returned -/
  | danglingDeref
  | outOfFuel
  deriving DecidableEq, Repr

/-- `TRBT_AUTOFREE`: the tree is freed with its last node. -/
def trbtAutofree : UInt32 := 0x00000001

/-- The nodes at their addresses, the tree's `root` and `flags`, and the next
address; whether `talloc_free` has freed the `trbt_tree_t`, and whether the
code has gone on reading memory it had freed. -/
structure TrbtHeap (α : Type) where
  nodes : Nat → Option (HeapNode α)
  root : Option Nat
  next : Nat
  flags : UInt32
  treeFreed : Bool
  useAfterFree : Bool

abbrev TrbtM (α : Type) := StateT (TrbtHeap α) (Except TrbtFault)

variable {α : Type}

/-! ## Memory -/

def getNode (p : Option Nat) : TrbtM α (HeapNode α) := do
  match p with
  | none => throw .nullDeref
  | some a =>
      match (← get).nodes a with
      | none => throw .danglingDeref
      | some n => pure n

def modifyNode (p : Option Nat) (f : HeapNode α → HeapNode α) : TrbtM α Unit :=
  match p with
  | none => throw .nullDeref
  | some a => do
      let n ← getNode (some a)
      modify fun h => { h with nodes := Function.update h.nodes a (some (f n)) }

def setParent (p v : Option Nat) : TrbtM α Unit := modifyNode p fun n => { n with parent := v }

def setLeft (p v : Option Nat) : TrbtM α Unit := modifyNode p fun n => { n with left := v }

def setRight (p v : Option Nat) : TrbtM α Unit := modifyNode p fun n => { n with right := v }

def setColor (p : Option Nat) (c : RbColor) : TrbtM α Unit := modifyNode p fun n => { n with rbColor := c }

def setKey (p : Option Nat) (k : UInt32) : TrbtM α Unit := modifyNode p fun n => { n with key32 := k }

def setData (p : Option Nat) (d : Option α) : TrbtM α Unit := modifyNode p fun n => { n with data := d }

/-- An access to the `trbt_tree_t` itself, a use after free once it is freed. -/
def treeAccess : TrbtM α Unit :=
  modify fun h => if h.treeFreed then { h with useAfterFree := true } else h

def getRoot : TrbtM α (Option Nat) := do
  treeAccess
  return (← get).root

def setRoot (v : Option Nat) : TrbtM α Unit := do
  treeAccess
  modify fun h => { h with root := v }

def getFlags : TrbtM α UInt32 := do
  treeAccess
  return (← get).flags

/-- `node->tree`: what a freed node still holds there is the tree, so reading
it through one goes on, a use after free. -/
def nodeTree (p : Option Nat) : TrbtM α Unit := do
  match p with
  | none => throw .nullDeref
  | some a =>
      let h ← get
      match h.nodes a with
      | some _ => pure ()
      | none => if a < h.next then set { h with useAfterFree := true } else throw .danglingDeref

/-- A node at the next address: `talloc_zero`, or a node on the stack. -/
def allocNode (n : HeapNode α) : TrbtM α Nat := do
  let h ← get
  set { h with nodes := Function.update h.nodes h.next (some n), next := h.next + 1 }
  return h.next

def releaseNode (a : Nat) : TrbtM α Unit :=
  modify fun h => { h with nodes := Function.update h.nodes a none }

/-- C's `&&`: the right operand is evaluated only when the left one holds. -/
def cAnd (a b : TrbtM α Bool) : TrbtM α Bool := do
  if ← a then b else pure false

/-! ## Colours and relatives -/

/-- `trbt_get_color`: `NULL` nodes are black. -/
def trbtGetColor (node : Option Nat) : TrbtM α RbColor :=
  match node with
  | none => pure .black
  | some _ => return (← getNode node).rbColor

def trbtGetColorLeft (node : Option Nat) : TrbtM α RbColor :=
  match node with
  | none => pure .black
  | some _ => do trbtGetColor (← getNode node).left

def trbtGetColorRight (node : Option Nat) : TrbtM α RbColor :=
  match node with
  | none => pure .black
  | some _ => do trbtGetColor (← getNode node).right

/-- `trbt_set_color`: setting a `NULL` node black is a no-op, red a `NULL`
dereference. -/
def trbtSetColor (node : Option Nat) (color : RbColor) : TrbtM α Unit :=
  if node.isNone && color == .black then pure () else setColor node color

def trbtSetColorLeft (node : Option Nat) (color : RbColor) : TrbtM α Unit := do
  let noChild ← match node with
    | none => pure true
    | some _ => do pure (← getNode node).left.isNone
  if noChild && color == .black then pure () else setColor (← getNode node).left color

def trbtSetColorRight (node : Option Nat) (color : RbColor) : TrbtM α Unit := do
  let noChild ← match node with
    | none => pure true
    | some _ => do pure (← getNode node).right.isNone
  if noChild && color == .black then pure () else setColor (← getNode node).right color

def trbtGrandparent (node : Option Nat) : TrbtM α (Option Nat) := do
  let parent := (← getNode node).parent
  if parent.isSome then return (← getNode parent).parent
  return none

def trbtUncle (node : Option Nat) : TrbtM α (Option Nat) := do
  let parent := (← getNode node).parent
  if parent.isNone then return none
  let grandparent := (← getNode parent).parent
  if grandparent.isNone then return none
  if parent == (← getNode grandparent).left then return (← getNode grandparent).right
  return (← getNode grandparent).left

def trbtSibling (node : Option Nat) : TrbtM α (Option Nat) := do
  let parent := (← getNode node).parent
  if parent.isNone then return none
  if node == (← getNode parent).left then return (← getNode parent).right
  return (← getNode parent).left

/-! ## Rotations -/

def trbtRotateLeft (node : Option Nat) : TrbtM α Unit := do
  nodeTree node
  if (← getNode node).parent.isSome then
    if (← getNode (← getNode node).parent).left == node then
      setLeft (← getNode node).parent (← getNode node).right
    else
      setRight (← getNode node).parent (← getNode node).right
  else
    setRoot (← getNode node).right
  setParent (← getNode node).right (← getNode node).parent
  setParent node (← getNode node).right
  setRight node (← getNode (← getNode node).right).left
  if (← getNode node).right.isSome then
    setParent (← getNode node).right node
  setLeft (← getNode node).parent node

def trbtRotateRight (node : Option Nat) : TrbtM α Unit := do
  nodeTree node
  if (← getNode node).parent.isSome then
    if (← getNode (← getNode node).parent).left == node then
      setLeft (← getNode node).parent (← getNode node).left
    else
      setRight (← getNode node).parent (← getNode node).left
  else
    setRoot (← getNode node).left
  setParent (← getNode node).left (← getNode node).parent
  setParent node (← getNode node).left
  setLeft node (← getNode (← getNode node).left).right
  if (← getNode node).left.isSome then
    setParent (← getNode node).left node
  setRight (← getNode node).parent node

/-! ## Inserting -/

def trbtInsertCase5 (node : Option Nat) : TrbtM α Unit := do
  let parent := (← getNode node).parent
  let grandparent := (← getNode parent).parent
  setColor parent .black
  setColor grandparent .red
  if ← cAnd (do pure (node == (← getNode parent).left))
      (do pure (parent == (← getNode grandparent).left)) then
    trbtRotateRight grandparent
  else
    trbtRotateLeft grandparent

def trbtInsertCase4 (node : Option Nat) : TrbtM α Unit := do
  let parent := (← getNode node).parent
  let grandparent := (← getNode parent).parent
  if grandparent.isNone then return
  let node ←
    if ← cAnd (do pure (node == (← getNode parent).right))
        (do pure (parent == (← getNode grandparent).left)) then do
      trbtRotateLeft parent
      pure (← getNode node).left
    else if ← cAnd (do pure (node == (← getNode parent).left))
        (do pure (parent == (← getNode grandparent).right)) then do
      trbtRotateRight parent
      pure (← getNode node).right
    else pure node
  trbtInsertCase5 node

/-- `trbt_insert_case3`, with the call back to `trbt_insert_case1` as a parameter. -/
def trbtInsertCase3 (trbtInsertCase1 : Option Nat → TrbtM α Unit) (node : Option Nat) :
    TrbtM α Unit := do
  let uncle ← trbtUncle node
  if ← cAnd (do pure (uncle.isSome)) (do pure ((← getNode uncle).rbColor == .red)) then
    let parent := (← getNode node).parent
    setColor parent .black
    setColor uncle .black
    let grandparent ← trbtGrandparent node
    setColor grandparent .red
    trbtInsertCase1 grandparent
  else
    trbtInsertCase4 node

def trbtInsertCase2 (trbtInsertCase1 : Option Nat → TrbtM α Unit) (node : Option Nat) :
    TrbtM α Unit := do
  let parent := (← getNode node).parent
  if (← getNode parent).rbColor == .black then return
  trbtInsertCase3 trbtInsertCase1 node

def trbtInsertCase1 : Nat → Option Nat → TrbtM α Unit
  | 0, _ => throw .outOfFuel
  | fuel + 1, node => do
      if (← getNode node).parent.isNone then
        setColor node .black
        return
      trbtInsertCase2 (trbtInsertCase1 fuel) node

def trbtCreateNode (parent : Option Nat) (key : UInt32) (data : α) : TrbtM α Nat :=
  allocNode ⟨parent, none, none, .black, key, some data⟩

/-- The walk that `trbt_insert32` and `trbt_insert32_callback` share, from
`node`: at the key, the node takes the data `cb` makes of what it holds, and
that is returned (`inl`); else a new node holding what `cb` makes of `NULL`
hangs below the node the walk fell off at (`inr`). -/
def trbtInsert32Walk (key : UInt32) (cb : Option α → α) : Nat → Option Nat → TrbtM α (Option α ⊕ Nat)
  | 0, _ => throw .outOfFuel
  | fuel + 1, node => do
      if key == (← getNode node).key32 then
        let oldData := (← getNode node).data
        setData node (some (cb oldData))
        return .inl oldData
      if key < (← getNode node).key32 then
        if (← getNode node).left.isNone then
          let newNode ← trbtCreateNode node key (cb none)
          setLeft node (some newNode)
          return .inr newNode
        trbtInsert32Walk key cb fuel (← getNode node).left
      else
        if (← getNode node).right.isNone then
          let newNode ← trbtCreateNode node key (cb none)
          setRight node (some newNode)
          return .inr newNode
        trbtInsert32Walk key cb fuel (← getNode node).right

/-- The body `trbt_insert32` and `trbt_insert32_callback` share: the data the
key held, if it was there. -/
def trbtInsertWith (key : UInt32) (cb : Option α → α) : TrbtM α (Option α) := do
  let fuel := (← get).next + 1
  match ← getRoot with
  | none =>
      let node ← trbtCreateNode none key (cb none)
      setRoot (some node)
      return none
  | some root =>
      match ← trbtInsert32Walk key cb fuel (some root) with
      | .inl oldData => return oldData
      | .inr node =>
          setColor (some node) .red
          trbtInsertCase1 fuel (some node)
          return none

def trbtInsert32 (key : UInt32) (data : α) : TrbtM α (Option α) :=
  trbtInsertWith key fun _ => data

/-- `trbt_insert32_callback`, for a callback that makes the data to store from
what the key holds, `NULL` when it is not there. -/
def trbtInsert32Callback (key : UInt32) (cb : Option α → α) : TrbtM α Unit := do
  let _ ← trbtInsertWith key cb

/-- The walk of `trbt_lookup32` from `node`, to the node holding `key`. -/
def trbtLookup32Walk (key : UInt32) : Nat → Option Nat → TrbtM α (Option Nat)
  | 0, _ => throw .outOfFuel
  | fuel + 1, node =>
      match node with
      | none => pure none
      | some a => do
          if key == (← getNode node).key32 then return some a
          if key < (← getNode node).key32 then
            trbtLookup32Walk key fuel (← getNode node).left
          else
            trbtLookup32Walk key fuel (← getNode node).right

def trbtLookup32 (key : UInt32) : TrbtM α (Option α) := do
  match ← trbtLookup32Walk key ((← get).next + 1) (← getRoot) with
  | none => return none
  | some a => return (← getNode (some a)).data

/-- `trbt_create(memctx, flags)`: no nodes yet. -/
def trbtCreate (flags : UInt32) : TrbtHeap α :=
  ⟨fun _ => none, none, 0, flags, false, false⟩

/-- `trbt_insert32` of each pair in turn, the old data dropped. -/
def trbtInsertAll (kvs : List (UInt32 × α)) : TrbtM α Unit :=
  kvs.forM fun kv => do
    let _ ← trbtInsert32 kv.1 kv.2

/-- The heap that inserting `kvs` into an empty tree with flags 0, as the
server creates them, leaves, or the empty heap when an insert faults. -/
def insertedHeap (kvs : List (UInt32 × α)) : TrbtHeap α :=
  match (trbtInsertAll kvs).run (trbtCreate 0) with
  | .ok ((), h) => h
  | .error _ => trbtCreate 0

/-! ## Deleting -/

def trbtDeleteCase6 (node : Option Nat) : TrbtM α Unit := do
  let sibling ← trbtSibling node
  let parent := (← getNode node).parent
  trbtSetColor sibling (← getNode parent).rbColor
  trbtSetColor parent .black
  if node == (← getNode parent).left then
    trbtSetColorRight sibling .black
    trbtRotateLeft parent
  else
    trbtSetColorLeft sibling .black
    trbtRotateRight parent

def trbtDeleteCase5 (node : Option Nat) : TrbtM α Unit := do
  let parent := (← getNode node).parent
  let sibling ← trbtSibling node
  if ← cAnd (do pure (node == (← getNode parent).left))
      (cAnd (do pure ((← trbtGetColor sibling) == .black))
        (cAnd (do pure ((← trbtGetColorLeft sibling) == .red))
          (do pure ((← trbtGetColorRight sibling) == .black)))) then
    trbtSetColor sibling .red
    trbtSetColorLeft sibling .black
    trbtRotateRight sibling
    trbtDeleteCase6 node
    return
  if ← cAnd (do pure (node == (← getNode parent).right))
      (cAnd (do pure ((← trbtGetColor sibling) == .black))
        (cAnd (do pure ((← trbtGetColorRight sibling) == .red))
          (do pure ((← trbtGetColorLeft sibling) == .black)))) then
    trbtSetColor sibling .red
    trbtSetColorRight sibling .black
    trbtRotateLeft sibling
    trbtDeleteCase6 node
    return
  trbtDeleteCase6 node

def trbtDeleteCase4 (node : Option Nat) : TrbtM α Unit := do
  let sibling ← trbtSibling node
  if ← cAnd (do pure ((← trbtGetColor (← getNode node).parent) == .red))
      (cAnd (do pure ((← trbtGetColor sibling) == .black))
        (cAnd (do pure ((← trbtGetColorLeft sibling) == .black))
          (do pure ((← trbtGetColorRight sibling) == .black)))) then
    trbtSetColor sibling .red
    trbtSetColor (← getNode node).parent .black
  else
    trbtDeleteCase5 node

/-- `trbt_delete_case3`, with the call back to `trbt_delete_case1` as a parameter. -/
def trbtDeleteCase3 (trbtDeleteCase1 : Option Nat → TrbtM α Unit) (node : Option Nat) :
    TrbtM α Unit := do
  let sibling ← trbtSibling node
  if ← cAnd (do pure ((← trbtGetColor (← getNode node).parent) == .black))
      (cAnd (do pure ((← trbtGetColor sibling) == .black))
        (cAnd (do pure ((← trbtGetColorLeft sibling) == .black))
          (do pure ((← trbtGetColorRight sibling) == .black)))) then
    trbtSetColor sibling .red
    trbtDeleteCase1 (← getNode node).parent
  else
    trbtDeleteCase4 node

def trbtDeleteCase2 (trbtDeleteCase1 : Option Nat → TrbtM α Unit) (node : Option Nat) :
    TrbtM α Unit := do
  let sibling ← trbtSibling node
  if (← trbtGetColor sibling) == .red then
    trbtSetColor (← getNode node).parent .red
    trbtSetColor sibling .black
    if node == (← getNode (← getNode node).parent).left then
      trbtRotateLeft (← getNode node).parent
    else
      trbtRotateRight (← getNode node).parent
  trbtDeleteCase3 trbtDeleteCase1 node

def trbtDeleteCase1 : Nat → Option Nat → TrbtM α Unit
  | 0, _ => throw .outOfFuel
  | fuel + 1, node => do
      if (← getNode node).parent.isNone then return
      trbtDeleteCase2 (trbtDeleteCase1 fuel) node

/-- `while (temp->right != NULL) temp = temp->right;` -/
def trbtRightmost : Nat → Nat → TrbtM α Nat
  | 0, _ => throw .outOfFuel
  | fuel + 1, temp => do
      match (← getNode (some temp)).right with
      | some r => trbtRightmost fuel r
      | none => return temp

/-- The part of `delete_node` for a node with at most one child, up to
`finished:`. The node is replaced by its child, or by a black dummy `dc` that
is unlinked again afterwards; the dummy's address is returned, for the end of
the call to release. -/
def deleteNodeUnlink (fuel node : Nat) : TrbtM α (Option Nat) := do
  let mut dc : Option Nat := none
  let child ← match (← getNode (some node)).right, (← getNode (some node)).left with
    | some r, _ => pure r
    | none, some l => pure l
    | none, none => do
        nodeTree (some node)
        let d ← allocNode ⟨none, none, none, .black, 0, none⟩
        dc := some d
        pure d
  -- replace node with child
  let parent := (← getNode (some node)).parent
  if parent.isSome then
    if (← getNode parent).left == some node then setLeft parent (some child)
    else setRight parent (some child)
  else
    nodeTree (some node)
    setRoot (some child)
  setParent (some child) (← getNode (some node)).parent
  if (← getNode (some node)).rbColor == .black then
    if (← trbtGetColor (some child)) == .red then setColor (some child) .black
    else trbtDeleteCase1 fuel (some child)
  if dc.isSome then
    -- unlink the dummy again
    let childParent := (← getNode (some child)).parent
    if childParent.isNone then
      nodeTree (some node)
      setRoot none
    else if some child == (← getNode childParent).left then setLeft childParent none
    else setRight childParent none
  return dc

/-- The end of `delete_node(node, true)` after a node swap: the predecessor's
struct `temp` takes the place of `node`, which is about to be freed. -/
def deleteNodeRelink (node temp : Nat) : TrbtM α Unit := do
  setKey (some temp) (← getNode (some node)).key32
  setColor (some temp) (← getNode (some node)).rbColor
  setData (some temp) (← getNode (some node)).data
  setParent (some temp) (← getNode (some node)).parent
  if (← getNode (some temp)).parent.isSome then
    if (← getNode (← getNode (some temp)).parent).left == some node then
      setLeft (← getNode (some temp)).parent (some temp)
    else
      setRight (← getNode (some temp)).parent (some temp)
  setLeft (some temp) (← getNode (some node)).left
  if (← getNode (some temp)).left.isSome then
    setParent (← getNode (some temp)).left (some temp)
  setRight (some temp) (← getNode (some node)).right
  if (← getNode (some temp)).right.isSome then
    setParent (← getNode (some temp)).right (some temp)
  nodeTree (some temp)
  if (← getRoot) == some node then
    nodeTree (some temp)
    setRoot (some temp)

/-- `talloc_free(node->tree)` where the root is `NULL`: `tree_destructor`
reads the root and has nothing to free, and the tree is freed. -/
def tallocFreeTree : TrbtM α Unit := do
  let _ ← getRoot
  modify fun h => { h with treeFreed := true }

/-- The test that ends `delete_node`: a `TRBT_AUTOFREE` tree whose root has
gone is freed. It reads `node->tree` through `node`. -/
def deleteNodeAutofree (node : Nat) : TrbtM α Unit := do
  if ← cAnd (do nodeTree (some node); pure ((← getFlags) &&& trbtAutofree != 0))
      (do nodeTree (some node); pure (← getRoot).isNone) then
    nodeTree (some node)
    tallocFreeTree

/-- `delete_node(node, from_destructor)`. Its `talloc_free(node)` is the
destructor, `delete_node(node, true)`, and then the release of the node. The
dummy `dc` lives until the call returns. -/
def deleteNode : Nat → Nat → Bool → TrbtM α Unit
  | 0, _, _ => throw .outOfFuel
  | fuel + 1, node, fromDestructor => do
      let mut temp : Option Nat := none
      let mut dc : Option Nat := none
      match (← getNode (some node)).left, (← getNode (some node)).right with
      | some l, some _ =>
          -- two children: take over the predecessor's key and data, delete the predecessor
          let t ← trbtRightmost fuel l
          setKey (some node) (← getNode (some t)).key32
          setData (some node) (← getNode (some t)).data
          setData (some t) none
          setKey (some t) 0xFFFFFFFF
          deleteNode fuel t fromDestructor
          temp := some t
      | _, _ =>
          dc ← deleteNodeUnlink fuel node
      -- finished:
      if !fromDestructor then
        deleteNode fuel node true
        releaseNode node
      if fromDestructor then
        if let some t := temp then deleteNodeRelink node t
      -- unless the call came from the destructor, `node` has been freed by now
      deleteNodeAutofree node
      if let some d := dc then releaseNode d

/-- The fuel a `delete_node` call is given: the depth of the tree, and the
three calls it can nest. -/
def deleteFuel : TrbtM α Nat :=
  return (← get).next + 4

/-- `talloc_free` of a node: its destructor runs, then it is released. -/
def tallocFreeNode (node : Nat) : TrbtM α Unit := do
  deleteNode (← deleteFuel) node true
  releaseNode node

/-- The walk of `trbt_delete32` from `node`. -/
def trbtDelete32Walk (key : UInt32) : Nat → Option Nat → TrbtM α Unit
  | 0, _ => throw .outOfFuel
  | fuel + 1, node =>
      match node with
      | none => pure ()
      | some a => do
          if key == (← getNode node).key32 then
            deleteNode (← deleteFuel) a false
            return
          if key < (← getNode node).key32 then
            trbtDelete32Walk key fuel (← getNode node).left
          else
            trbtDelete32Walk key fuel (← getNode node).right

def trbtDelete32 (key : UInt32) : TrbtM α Unit := do
  trbtDelete32Walk key ((← get).next + 1) (← getRoot)

/-! ## Traversing -/

/-- `trbt_traversearray32_node` for a key of one word: the callback is given
each node's data and says whether it frees it and what it returns. The
result lists what the callback was given, in order, with the return code. -/
def trbtTraversearray32Node (callback : Option α → Bool × Int) :
    Nat → Nat → TrbtM α (List (Option α) × Int)
  | 0, _ => throw .outOfFuel
  | fuel + 1, node => do
      let left := (← getNode (some node)).left
      let right := (← getNode (some node)).right
      let mut given : List (Option α) := []
      if let some l := left then
        let (g, ret) ← trbtTraversearray32Node callback fuel l
        given := g
        if ret ≠ 0 then return (given, ret)
      let data := (← getNode (some node)).data
      let (free, ret) := callback data
      given := given ++ [data]
      if free then
        -- `talloc_free(data)` frees the node hanging off the data
        tallocFreeNode node
      if ret ≠ 0 then return (given, ret)
      if let some r := right then
        let (g, ret) ← trbtTraversearray32Node callback fuel r
        given := given ++ g
        if ret ≠ 0 then return (given, ret)
      return (given, 0)

def trbtTraversearray32 (callback : Option α → Bool × Int) : TrbtM α (List (Option α) × Int) := do
  match ← getRoot with
  | none => return ([], 0)
  | some root => trbtTraversearray32Node callback ((← get).next + 1) root

/-! ## Runs -/

/-- `talloc_free` of the data stored under `key`: the data owns the node that
holds it, whose destructor removes it from the tree. -/
def trbtFreeData (key : UInt32) : TrbtM α Unit := do
  match ← trbtLookup32Walk key ((← get).next + 1) (← getRoot) with
  | none => pure ()
  | some a => tallocFreeNode a

def trbtHeapStep : TrbtEvent α → TrbtM α Unit
  | .insert32 key data => do let _ ← trbtInsert32 key data
  | .insert32Callback key cb => trbtInsert32Callback key cb
  | .free key => trbtFreeData key

/-- The events in turn, on the tree `trbt_create` made. -/
def trbtHeapRun (events : List (TrbtEvent α)) : TrbtM α Unit :=
  events.forM trbtHeapStep

end Ctdb.Heap

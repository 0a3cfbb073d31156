import Ctdb.Lib.RbZipper

/-!
# The red-black tree of `common/rb_tree.c`

A `trbt_tree_t` is its root, and a node is a colour, a left and a right child,
a 32-bit key and the data stored under it. The code walks and rewires nodes
through their `parent` pointers; here a node's parents are the frames of a
zipper path above it (`Lib.plug` puts the tree back together), so every
fix-up case is a function of the node it is called on and of that path, and a
rotation is a function of the subtree it turns.

Inserting walks down to the key. A key already there gets its new data; a new
key hangs a red node where the walk fell off the tree and runs
`trbt_insert_case1` on it, whose cases 1 to 3 walk up recolouring and whose
cases 4 and 5 end with one or two rotations. The first node of a tree is
made black and needs no fix-up.

A node is removed when its data is freed: the data owns the node, and the
node's destructor calls `delete_node(node, true)`. A node with two children
takes the key and data of its predecessor, the rightmost node of its left
subtree, and the predecessor is removed instead. A node with at most one
child is replaced by that child, or by the black dummy `dc` when it has none;
removing a black node leaves one side short of a black node, which
`trbt_delete_case1` to `trbt_delete_case6` repair. The dummy is a leaf here,
and unlinking it afterwards is what plugging a leaf does. When the node with
two children is the one being freed, the predecessor's struct is moved into
its place at the end (`temp` takes over the node's key, colour, data, parent
and children); the tree of keys, data and colours does not change by it.

`trbt_set_color` on `NULL` is a no-op for black and a `NULL` dereference for
red, and the rotations dereference the child that moves up. The fix-ups never
reach either on a red-black tree: the sibling of a node short of a black node
has black height at least one. Here a red `NULL` stays a leaf and a rotation
without that child leaves the subtree as it is.
-/

namespace Ctdb

open Lib

/-- `trbt_node_t`, without its `parent` and `tree` pointers. -/
abbrev TrbtNode (α : Type) := RbNode UInt32 α

/-- The parents of a node, nearest first. -/
abbrev TrbtPath (α : Type) := List (RbFrame UInt32 α)

variable {α : Type}

/-- `trbt_rotate_left` of the subtree at `node`: its right child takes its place. -/
def trbtRotateLeft : TrbtNode α → TrbtNode α
  | .node c a k v (.node c' b k' v' d) => .node c' (.node c a k v b) k' v' d
  | t => t

/-- `trbt_rotate_right` of the subtree at `node`: its left child takes its place. -/
def trbtRotateRight : TrbtNode α → TrbtNode α
  | .node c (.node c' a k' v' b) k v d => .node c' a k' v' (.node c b k v d)
  | t => t

/-! ## Insertion -/

/-- `trbt_insert_case5` for node `t` under parent `f` and grandparent `g`: the
parent turns black, the grandparent red, and the grandparent is rotated so
that the parent takes its place. -/
def trbtInsertCase5 (t : TrbtNode α) (f g : RbFrame UInt32 α) (p : TrbtPath α) : TrbtNode α :=
  let sub := { g with color := .red }.attach ({ f with color := .black }.attach t)
  if f.side = .left ∧ g.side = .left then plug (trbtRotateRight sub) p
  else plug (trbtRotateLeft sub) p

/-- `trbt_insert_case4`: a node on the inner side of its grandparent is
rotated above its parent, and case 5 goes on from the parent. -/
def trbtInsertCase4 (t : TrbtNode α) (f : RbFrame UInt32 α) : TrbtPath α → TrbtNode α
  | [] => plug t [f]
  | g :: p =>
      match t, f.side, g.side with
      -- `trbt_rotate_left(parent)`, then `node = node->left`
      | .node tc tl tk tv tr, .right, .left =>
          trbtInsertCase5 (.node f.color f.sibling f.key f.val tl) ⟨.left, tc, tk, tv, tr⟩ g p
      -- `trbt_rotate_right(parent)`, then `node = node->right`
      | .node tc tl tk tv tr, .left, .right =>
          trbtInsertCase5 (.node f.color tr f.key f.val f.sibling) ⟨.right, tc, tk, tv, tl⟩ g p
      | _, _, _ => trbtInsertCase5 t f g p

/-- `trbt_insert_case1` for the red node `t` under `p`, with the cases 2 and 3
it goes on to. -/
def trbtInsertCase1 (t : TrbtNode α) : TrbtPath α → TrbtNode α
  | [] => t.setColor .black
  -- case 2 stops at a black parent; without a grandparent there is no uncle
  | [f] => if f.color = .black then plug t [f] else trbtInsertCase4 t f []
  | f :: g :: p =>
      if f.color = .black then plug t (f :: g :: p)
      -- case 3: a red uncle; the grandparent turns red and is fixed up in turn
      else if g.sibling.color = .red then
        trbtInsertCase1
          ({ g with color := .red, sibling := g.sibling.setColor .black }.attach
            ({ f with color := .black }.attach t)) p
      else trbtInsertCase4 t f (g :: p)

/-- The walk of `trbt_insert32` from `t` towards `key`, with `p` the path
walked so far: the node holding `key`, or the empty place where a node for it
hangs, and the path above it. -/
def trbtFind (key : UInt32) : TrbtNode α → TrbtPath α → TrbtNode α × TrbtPath α
  | .leaf, p => (.leaf, p)
  | .node c l k v r, p =>
      if key = k then (.node c l k v r, p)
      else if key < k then trbtFind key l (⟨.left, c, k, v, r⟩ :: p)
      -- `key > node->key32`, the only case left
      else trbtFind key r (⟨.right, c, k, v, l⟩ :: p)

/-- The body `trbt_insert32` and `trbt_insert32_callback` share: `cb` makes the
data to store from the data the key holds, if any. The old data is returned. -/
def trbtInsertWith (t : TrbtNode α) (key : UInt32) (cb : Option α → α) : TrbtNode α × Option α :=
  match t with
  | .leaf => (.node .black .leaf key (cb none) .leaf, none)
  | .node c l k v r =>
      match trbtFind key (.node c l k v r) [] with
      | (.node c' l' k' v' r', p) => (plug (.node c' l' k' (cb (some v')) r') p, some v')
      | (.leaf, p) => (trbtInsertCase1 (.node .red .leaf key (cb none) .leaf) p, none)

/-- `trbt_insert32`: the tree and the data the key held before. -/
def trbtInsert32 (t : TrbtNode α) (key : UInt32) (data : α) : TrbtNode α × Option α :=
  trbtInsertWith t key fun _ => data

/-- `trbt_insert32_callback`. -/
def trbtInsert32Callback (t : TrbtNode α) (key : UInt32) (cb : Option α → α) : TrbtNode α :=
  (trbtInsertWith t key cb).1

/-- `trbt_lookup32`. -/
def trbtLookup32 (t : TrbtNode α) (key : UInt32) : Option α :=
  match t with
  | .leaf => none
  | .node _ l k v r =>
      if key = k then some v
      else if key < k then trbtLookup32 l key
      else trbtLookup32 r key

/-! ## Deletion -/

/-- `trbt_delete_case2` for a node under parent `f`: a red sibling is rotated
above the parent, which turns red. The node's parent frame and the path above
it afterwards. -/
def trbtDeleteCase2 (f : RbFrame UInt32 α) (p : TrbtPath α) : RbFrame UInt32 α × TrbtPath α :=
  match f.sibling, f.side with
  | .node .red sl sk sv sr, .left =>
      (⟨.left, .red, f.key, f.val, sl⟩, ⟨.left, .black, sk, sv, sr⟩ :: p)
  | .node .red sl sk sv sr, .right =>
      (⟨.right, .red, f.key, f.val, sr⟩, ⟨.right, .black, sk, sv, sl⟩ :: p)
  | _, _ => (f, p)

/-- After case 2 the parent is black only where case 2 did nothing. -/
theorem trbtDeleteCase2_snd_of_black {f : RbFrame UInt32 α} {p : TrbtPath α}
    (h : (trbtDeleteCase2 f p).1.color = .black) : (trbtDeleteCase2 f p).2 = p := by
  unfold trbtDeleteCase2 at h ⊢
  split <;> simp_all

/-- `trbt_delete_case6`: the sibling takes the parent's colour, the parent
turns black, and the parent is rotated so that the sibling takes its place. -/
def trbtDeleteCase6 (t : TrbtNode α) (f : RbFrame UInt32 α) (p : TrbtPath α) : TrbtNode α :=
  let s := f.sibling.setColor f.color
  match f.side with
  | .left =>
      plug (trbtRotateLeft ({ f with color := .black, sibling := s.setRightColor .black }.attach t)) p
  | .right =>
      plug (trbtRotateRight ({ f with color := .black, sibling := s.setLeftColor .black }.attach t)) p

/-- `trbt_delete_case5`: a sibling whose red child is on the node's side is
rotated first, so that its red child is on the far side. -/
def trbtDeleteCase5 (t : TrbtNode α) (f : RbFrame UInt32 α) (p : TrbtPath α) : TrbtNode α :=
  let s := f.sibling
  if f.side = .left ∧ s.color = .black ∧ s.leftColor = .red ∧ s.rightColor = .black then
    trbtDeleteCase6 t { f with sibling := trbtRotateRight ((s.setColor .red).setLeftColor .black) } p
  else if f.side = .right ∧ s.color = .black ∧ s.rightColor = .red ∧ s.leftColor = .black then
    trbtDeleteCase6 t { f with sibling := trbtRotateLeft ((s.setColor .red).setRightColor .black) } p
  else trbtDeleteCase6 t f p

/-- `trbt_delete_case4`: a red parent over a black sibling with black
children trades colours with the sibling. -/
def trbtDeleteCase4 (t : TrbtNode α) (f : RbFrame UInt32 α) (p : TrbtPath α) : TrbtNode α :=
  let s := f.sibling
  if f.color = .red ∧ s.color = .black ∧ s.leftColor = .black ∧ s.rightColor = .black then
    plug ({ f with color := .black, sibling := s.setColor .red }.attach t) p
  else trbtDeleteCase5 t f p

/-- `trbt_delete_case1` for a node `t` under `p` whose side is one black node
short, with the cases 2 and 3 it goes on to. -/
def trbtDeleteCase1 (t : TrbtNode α) (p : TrbtPath α) : TrbtNode α :=
  match p with
  | [] => t
  | f :: rest =>
      match _hcase2 : trbtDeleteCase2 f rest with
      | (f', p') =>
          -- case 3: all black around the node; the sibling turns red and the
          -- parent is one black node short in turn
          if _hcase3 : f'.color = .black ∧ f'.sibling.color = .black ∧
              f'.sibling.leftColor = .black ∧ f'.sibling.rightColor = .black then
            trbtDeleteCase1 ({ f' with sibling := f'.sibling.setColor .red }.attach t) p'
          else trbtDeleteCase4 t f' p'
termination_by p.length
decreasing_by
  have hp' : p' = rest := by
    have := @trbtDeleteCase2_snd_of_black _ f rest (by rw [_hcase2]; exact _hcase3.1)
    rwa [_hcase2] at this
  simp [hp']

theorem trbtDeleteCase1_cons {t : TrbtNode α} {f f' : RbFrame UInt32 α} {rest p' : TrbtPath α}
    (h : trbtDeleteCase2 f rest = (f', p')) :
    trbtDeleteCase1 t (f :: rest) =
      if f'.color = .black ∧ f'.sibling.color = .black ∧
          f'.sibling.leftColor = .black ∧ f'.sibling.rightColor = .black then
        trbtDeleteCase1 ({ f' with sibling := f'.sibling.setColor .red }.attach t) p'
      else trbtDeleteCase4 t f' p' := by
  rw [trbtDeleteCase1]
  split
  rename_i f'' p'' h''
  rw [h] at h''
  obtain ⟨rfl, rfl⟩ := Prod.mk.inj h''
  exact dite_eq_ite

/-- The end of `delete_node` for a node of colour `c` with at most one child:
`child`, a leaf for the dummy, takes its place under `p`. -/
def trbtDeleteReplace (c : RbColor) (child : TrbtNode α) (p : TrbtPath α) : TrbtNode α :=
  if c = .black then
    if child.color = .red then plug (child.setColor .black) p
    else trbtDeleteCase1 child p
  else plug child p

/-- The loop of `delete_node` to the predecessor: the rightmost node of `t`
and the frames from it up to `t`, in front of `p`. -/
def trbtMaxPath : TrbtNode α → TrbtPath α → TrbtNode α × TrbtPath α
  | .node c l k v (.node rc rl rk rv rr), p =>
      trbtMaxPath (.node rc rl rk rv rr) (⟨.right, c, k, v, l⟩ :: p)
  | t, p => (t, p)

/-- `delete_node(node, true)` for the node `t` under `p`. -/
def deleteNode (t : TrbtNode α) (p : TrbtPath α) : TrbtNode α :=
  match t with
  | .leaf => plug .leaf p
  | .node c l k v r =>
      match l, r with
      | .node lc ll lk lv lr, .node .. =>
          -- the predecessor's key and data move up and the predecessor goes
          match trbtMaxPath (.node lc ll lk lv lr) [] with
          | (.node tc tl tk tv _, q) => trbtDeleteReplace tc tl (q ++ ⟨.left, c, tk, tv, r⟩ :: p)
          | (.leaf, _) => plug (.node c l k v r) p
      | _, .node .. => trbtDeleteReplace c r p
      | _, _ => trbtDeleteReplace c l p

/-- `node_destructor` of the node holding `key`, run when its data is freed. -/
def trbtNodeDestructor (t : TrbtNode α) (key : UInt32) : TrbtNode α :=
  match trbtFind key t [] with
  | (.node c l k v r, p) => deleteNode (.node c l k v r) p
  | (.leaf, _) => t

/-! ## Runs -/

/-- What can happen to a tree made by `trbt_create`. -/
inductive TrbtEvent (α : Type)
  | insert32 (key : UInt32) (data : α)
  | insert32Callback (key : UInt32) (cb : Option α → α)
  /-- `talloc_free` of the data stored under `key`. -/
  | free (key : UInt32)

def trbtStep (t : TrbtNode α) : TrbtEvent α → TrbtNode α
  | .insert32 key data => (trbtInsert32 t key data).1
  | .insert32Callback key cb => trbtInsert32Callback t key cb
  | .free key => trbtNodeDestructor t key

/-- The tree after `events`, from the empty tree `trbt_create` makes. -/
def trbtRun (events : List (TrbtEvent α)) : TrbtNode α :=
  events.foldl trbtStep .leaf

end Ctdb

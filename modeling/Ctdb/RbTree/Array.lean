import Mathlib.Data.Vector.Defs
import Ctdb.RbTree.Tree

/-!
# Trees keyed by arrays of words (`common/rb_tree.c`)

A key of `n + 1` 32-bit words is stored one word per level: the top tree is
keyed by the first word, and below the last level the data of a node is the
tree for the next word. `ArrayTree α (n + 1)` is such a tree; its level-zero
data are the values stored.

`trbt_insertarray32_callback` inserts the first word with
`array_insert_callback` as its callback, which, one level above the last,
hands the user's callback the data it finds, and above that creates the
subtree for the next word when there is none and goes on into it. A subtree
is created with `TRBT_AUTOFREE`: when its last node goes it frees itself, and
the node holding it hangs off it, so that node is destroyed too, one level up.
Freeing a stored value thus removes its key and every subtree left empty on
the way up; the top tree, made by the user with flags 0, stays.

`trbt_traversearray32` walks each tree in order and every subtree at its
node, handing the callback the values, and stops at the first non-zero
answer. `trbt_findfirstarray32` goes down the leftmost nodes.

A subtree changes in place: the node holding it keeps its place and colour,
and here its data is the changed subtree. The callbacks are functions of
their argument; a traversal callback also threads its `param` as a state and
changes no tree.

The functions take the key's length as an argument and nothing in a node says
whether its data is a value or a subtree, so one tree can hold keys of
different lengths, as the daemon's trees do. `KeyTree` is the top tree of such
a tree: its data carries the number of levels below it, and an operation whose
key would read that data at another depth fails, where the code would take a
value for a tree or hand a subtree to the user's callback.
-/

namespace Ctdb

open Lib

variable {α : Type}

/-- A tree keyed by the first of `n` words, with `α` below the last. -/
abbrev ArrayTree (α : Type) : Nat → Type
  | 0 => α
  | n + 1 => TrbtNode (ArrayTree α n)

/-- The data under `key`, changed in place. -/
def trbtUpdate32 {β : Type} (t : TrbtNode β) (key : UInt32) (data : β) : TrbtNode β :=
  match trbtFind key t [] with
  | (.node c l k _ r, p) => plug (.node c l k data r) p
  | (.leaf, _) => t

/-- `trbt_insertarray32_callback(tree, n + 1, key, cb, param)`. -/
def trbtInsertarray32Callback (cb : Option α → α) :
    (n : Nat) → ArrayTree α (n + 1) → List UInt32 → ArrayTree α (n + 1)
  | _, t, [] => t
  | 0, t, k :: _ => trbtInsert32Callback t k cb
  -- `array_insert_callback`: a new subtree if there is none, then into it
  | n + 1, t, k :: ks =>
      trbtInsert32Callback t k fun data => trbtInsertarray32Callback cb n (data.getD .leaf) ks

/-- `trbt_lookuparray32(tree, n + 1, key)`. -/
def trbtLookuparray32 : (n : Nat) → ArrayTree α (n + 1) → List UInt32 → Option α
  | _, _, [] => none
  | 0, t, k :: _ => trbtLookup32 t k
  | n + 1, t, k :: ks => (trbtLookup32 t k).bind fun sub => trbtLookuparray32 n sub ks

/-- `talloc_free` of the value stored under `key`: its node is destroyed, and
a subtree that this leaves empty frees itself and the node holding it. -/
def trbtFreearray32 : (n : Nat) → ArrayTree α (n + 1) → List UInt32 → ArrayTree α (n + 1)
  | _, t, [] => t
  | 0, t, k :: _ => trbtNodeDestructor t k
  | n + 1, t, k :: ks =>
      match trbtLookup32 t k with
      | none => t
      | some sub =>
          match sub, trbtFreearray32 n sub ks with
          -- the subtree's last node went: `TRBT_AUTOFREE`
          | .node .., .leaf => trbtNodeDestructor t k
          | _, .node c l k' v r => trbtUpdate32 t k (.node c l k' v r)
          | .leaf, .leaf => t

/-- `trbt_traversearray32_node` over a tree whose node data `visit` handles:
the left subtree, the node, the right subtree, up to the first non-zero answer. -/
def trbtTraversearray32Node {β σ : Type} (visit : σ → β → Int × σ) : TrbtNode β → σ → Int × σ
  | .leaf, s => (0, s)
  | .node _ l _ v r, s =>
      let (ret, s) := trbtTraversearray32Node visit l s
      if ret ≠ 0 then (ret, s)
      else
        let (ret, s) := visit s v
        if ret ≠ 0 then (ret, s) else trbtTraversearray32Node visit r s

/-- `trbt_traversearray32(tree, n + 1, callback, param)`. -/
def trbtTraversearray32 {σ : Type} (cb : σ → α → Int × σ) :
    (n : Nat) → ArrayTree α (n + 1) → σ → Int × σ
  | 0, t, s => trbtTraversearray32Node cb t s
  | n + 1, t, s => trbtTraversearray32Node (fun s sub => trbtTraversearray32 cb n sub s) t s

/-- The walk of `trbt_findfirstarray32` down the left children. -/
def trbtLeftmost {β : Type} : TrbtNode β → Option β
  | .leaf => none
  | .node _ .leaf _ v _ => some v
  | .node _ (.node c l k v r) _ _ _ => trbtLeftmost (.node c l k v r)

/-- `trbt_findfirstarray32(tree, n + 1)`. -/
def trbtFindfirstarray32 : (n : Nat) → ArrayTree α (n + 1) → Option α
  | 0, t => trbtLeftmost t
  | n + 1, t => (trbtLeftmost t).bind (trbtFindfirstarray32 n)

/-! ## Runs -/

/-- What can happen to an array-keyed tree of keys of `n + 1` words. -/
inductive ArrayEvent (α : Type) (n : Nat)
  | insert (key : List.Vector UInt32 (n + 1)) (cb : Option α → α)
  /-- `talloc_free` of the value stored under `key`. -/
  | free (key : List.Vector UInt32 (n + 1))

def arrayStep (n : Nat) (t : ArrayTree α (n + 1)) : ArrayEvent α n → ArrayTree α (n + 1)
  | .insert key cb => trbtInsertarray32Callback cb n t key.toList
  | .free key => trbtFreearray32 n t key.toList

/-- The tree after `events`, from the empty tree `trbt_create` makes. -/
def arrayRun (n : Nat) (events : List (ArrayEvent α n)) : ArrayTree α (n + 1) :=
  events.foldl (arrayStep n) .leaf

/-! ## Keys of many lengths -/

/-- The top tree of a tree holding keys of any length: under each word, the
value of a one-word key or the subtree for the rest of a longer key, with the
number of its levels. -/
abbrev KeyTree (α : Type) := TrbtNode (Σ n, ArrayTree α n)

/-- `array_insert_callback` with `n` words of the key still to place. -/
def arrayInsertCallback (cb : Option α → α) : (n : Nat) → Option (ArrayTree α n) → List UInt32 → ArrayTree α n
  | 0, data, _ => cb data
  | n + 1, data, ks => trbtInsertarray32Callback cb n (data.getD .leaf) ks

namespace KeyTree

/-- The data under `k` read as `n` more levels: `some none` when there is none,
`none` when it has another depth. -/
def subtree (t : KeyTree α) (k : UInt32) (n : Nat) : Option (Option (ArrayTree α n)) :=
  match trbtLookup32 t k with
  | none => some none
  | some ⟨m, sub⟩ => if h : m = n then some (some (h ▸ sub)) else none

/-- `trbt_insertarray32_callback(tree, keylen, key, cb, param)` on the top tree,
`keylen` being the length of `key`. What `trbt_insert32_callback` hands
`array_insert_callback` is the data under the first word, read here first for
its depth. -/
def trbtInsertarray32Callback (cb : Option α → α) (t : KeyTree α) : List UInt32 → Option (KeyTree α)
  | [] => none
  | k :: ks => (subtree t k ks.length).map fun data =>
      trbtInsert32Callback t k fun _ => ⟨ks.length, arrayInsertCallback cb ks.length data ks⟩

/-- The rest of `trbt_lookuparray32` once the first word has given data of `n`
more levels: the value itself, or the lookup in the subtree. -/
def lookupBelow : (n : Nat) → Option (ArrayTree α n) → List UInt32 → Option α
  | 0, data, _ => data
  | n + 1, data, ks => data.bind fun sub => Ctdb.trbtLookuparray32 n sub ks

/-- `trbt_lookuparray32(tree, keylen, key)` on the top tree, `keylen` being the
length of `key`. -/
def trbtLookuparray32 (t : KeyTree α) : List UInt32 → Option (Option α)
  | [] => none
  | k :: ks => (subtree t k ks.length).map fun data => lookupBelow ks.length data ks

/-- `trbt_insertarray32_callback` with a user callback that can `talloc_free`
the data it is handed, as the daemon's callbacks do with an entry they
replace: `cb` answers the data to file and whether it freed what it was
handed, which is what `trbt_lookuparray32` finds under the key. The data owns
the node that holds it (`talloc_steal(data, node)`), so the free runs
`node_destructor` on that node, and `trbt_insert32_callback` then stores the
answer through the freed node: a use after free, `none` here. -/
def trbtInsertarray32CallbackFreeing (cb : Option α → α × Bool) (t : KeyTree α) (ks : List UInt32) :
    Option (KeyTree α) := do
  let data ← trbtLookuparray32 t ks
  if (cb data).2 then none else trbtInsertarray32Callback (fun data => (cb data).1) t ks

/-- The top tree once the value below the word `k`, in data of `n` more levels,
is freed: a value's node goes, and so does a subtree's when it empties. -/
def freeBelow (t : KeyTree α) (k : UInt32) : (n : Nat) → Option (ArrayTree α n) → List UInt32 → KeyTree α
  | _, none, _ => t
  | 0, some _, _ => trbtNodeDestructor t k
  | n + 1, some sub, ks =>
      match sub, Ctdb.trbtFreearray32 n sub ks with
      | .node .., .leaf => trbtNodeDestructor t k
      | _, .node c l k' v r => trbtUpdate32 t k ⟨n + 1, .node c l k' v r⟩
      | .leaf, .leaf => t

/-- `talloc_free` of the value stored under `key`, a key of any length. -/
def trbtFreearray32 (t : KeyTree α) : List UInt32 → Option (KeyTree α)
  | [] => none
  | k :: ks => (subtree t k ks.length).map fun data => freeBelow t k ks.length data ks

end KeyTree

end Ctdb

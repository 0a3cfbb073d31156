import Ctdb.RbTree.Array

/-!
# The list of event scripts (`server/eventscript.c`)

`ctdb_get_script_list` reads the event script directory and keeps the
entries whose names look like `NN.name`: at least three bytes, not ending in
`~`, a `.` at index 2, a number that `sscanf(name, "%02u.", &num)` converts,
and no longer than `MAX_SCRIPT_NAME`. To order them by that number, and by
`readdir` order among equal numbers, it inserts each into a red-black tree
under the key `(num << 16) | count`, `count` counting the entries kept so
far, and then takes the leftmost item out `count` times, freeing each, which
runs the node destructor.

Names are their bytes, without the terminating NUL. Whether a script is
executable (`check_executable`) depends on the file system and is given with
each entry, as the `errno` it leaves or 0. Allocation does not fail.
-/

namespace Ctdb

/-- `MAX_SCRIPT_NAME`. -/
def MAX_SCRIPT_NAME : Nat := 31

/-- `isspace` in the C locale. -/
def isSpace (c : UInt8) : Bool :=
  c == 32 || (9 ≤ c && c ≤ 13)

def isDigit (c : UInt8) : Bool :=
  48 ≤ c && c ≤ 57

/-- The value of a string of decimal digits. -/
def digitsValue (ds : List UInt8) : Nat :=
  ds.foldl (fun acc d => acc * 10 + (d.toNat - 48)) 0

/-- `sscanf(s, "%02u.", &num) == 1`, and `num`: leading white space skipped,
then a field of at most two characters, an optional sign and digits; a
negative value is converted to `unsigned`. The `.` that follows is not
counted in the result. -/
def sscanfU2 (s : List UInt8) : Option UInt32 :=
  let (neg, rest, width) :=
    match s.dropWhile isSpace with
    | 45 :: r => (true, r, 1)
    | 43 :: r => (false, r, 1)
    | r => (false, r, 2)
  let ds := (rest.take width).takeWhile isDigit
  if ds = [] then none
  else
    let v := UInt32.ofNat (digitsValue ds)
    some (if neg then -v else v)

/-- The tests the `readdir` loop makes of a name, and the number it orders
the script by. -/
def scriptPrefix (name : List UInt8) : Option UInt32 :=
  if name.length < 3 then none
  -- "skip files emacs left behind"
  else if name.getLast? = some 126 then none
  else if name[2]? ≠ some 46 then none
  else
    match sscanfU2 name with
    | none => none
    | some num =>
        -- "Script name %s too long! %u chars max"
        if name.length > MAX_SCRIPT_NAME then none else some num

/-- A directory entry, with what `check_executable` leaves in `errno` (0 when
the script is executable). -/
structure ScriptEntry where
  name : List UInt8
  error : Int32
  deriving DecidableEq, Repr

/-- `struct ctdb_script_tree_item`. -/
structure ScriptTreeItem where
  name : List UInt8
  error : Int32
  deriving DecidableEq, Repr

/-- A `struct ctdb_script_wire` as the list fills it in. -/
structure CtdbScriptWire where
  name : List UInt8
  status : Int32
  deriving DecidableEq, Repr

/-- `(num << 16) | count`. -/
def scriptKey (num : UInt32) (count : Nat) : UInt32 :=
  (num <<< 16) ||| UInt32.ofNat count

/-- One round of the `readdir` loop: the tree and `count`. -/
def scriptTreeInsert (acc : TrbtNode ScriptTreeItem × Nat) (de : ScriptEntry) :
    TrbtNode ScriptTreeItem × Nat :=
  match scriptPrefix de.name with
  | none => acc
  | some num => ((trbtInsert32 acc.1 (scriptKey num acc.2) ⟨de.name, de.error⟩).1, acc.2 + 1)

/-- The node `trbt_findfirstarray32(tree, 1)` walks to: its key and data. -/
def trbtFirst {β : Type} : TrbtNode β → Option (UInt32 × β)
  | .leaf => none
  | .node _ .leaf k v _ => some (k, v)
  | .node _ (.node c l k v r) _ _ _ => trbtFirst (.node c l k v r)

/-- The extraction loop, `n` rounds: the leftmost item copied out and freed.
`none` when `trbt_findfirstarray32` returns `NULL`, whose `name` the loop
then reads. -/
def scriptListExtract : Nat → TrbtNode ScriptTreeItem → Option (List CtdbScriptWire)
  | 0, _ => some []
  | n + 1, t =>
      match trbtFirst t with
      | none => none
      | some (k, item) =>
          (scriptListExtract n (trbtNodeDestructor t k)).map (⟨item.name, -item.error⟩ :: ·)

/-- What `ctdb_get_script_list` comes to. -/
inductive ScriptListResult
  | ok (scripts : List CtdbScriptWire)
  /-- `NULL`: there is no event script directory, or it cannot be opened -/
  | noDir
  /-- the extraction loop dereferences a `NULL` item -/
  | nullDeref
  deriving DecidableEq, Repr

/-- `ctdb_get_script_list` on the directory's entries in `readdir` order,
`none` when `stat` or `opendir` fails. -/
def ctdbGetScriptList : Option (List ScriptEntry) → ScriptListResult
  | none => .noDir
  | some entries =>
      let (tree, count) := entries.foldl scriptTreeInsert (.leaf, 0)
      match scriptListExtract count tree with
      | none => .nullDeref
      | some scripts => .ok scripts

end Ctdb

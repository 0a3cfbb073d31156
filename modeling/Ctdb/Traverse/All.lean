import Ctdb.Recovery.Pull

/-!
# Cluster-wide traverse (`server/ctdb_traverse.c`)

`ctdb_daemon_traverse_all` walks a database across the cluster. The
originating node sends `CTDB_CONTROL_TRAVERSE_ALL` to the nodes that hold
the records: for a volatile database every node of the vnn map, for a
persistent one a single node. Each of them forks a child
(`ctdb_traverse_local`) that traverses its local tdb and sends every record
it is authoritative for back as a `CTDB_CONTROL_TRAVERSE_DATA`, then one
record with empty key and data to say it is done. The originator passes each
record to its callback (`ctdb_control_traverse_data`) and counts the empty
ones; for a volatile database the empty record is passed on only when the
count reaches `ctdb_get_num_active_nodes`, which ends the traverse.

A node's records reach the originator in the order it sent them; records of
different nodes interleave in any way, which `Lib.Interleaving` states.

The vnn map is the one recovery builds (`recoveryVnnMap`): the active nodes
that have the lmaster capability, or the recovery master alone when there
are none. The count of active nodes includes nodes without that capability.
-/

namespace Ctdb

open Lib

def CTDB_CAP_LMASTER : UInt32 := 0x00000002

/-- The vnn map `do_recovery` builds from the node map and the nodes'
capabilities. -/
def recoveryVnnMap (caps : UInt32 → UInt32) (recmaster : UInt32) (nodes : List ClusterNode) :
    List UInt32 :=
  let map := (nodes.filter fun n => n.active && caps n.pnn &&& CTDB_CAP_LMASTER != 0).map
    ClusterNode.pnn
  -- "No suitable lmasters found. Adding local node (recmaster) anyway."
  if map = [] then [recmaster] else map

/-- `ctdb_get_num_active_nodes`. -/
def ctdbGetNumActiveNodes (nodes : List ClusterNode) : Nat :=
  (nodes.filter ClusterNode.active).length

/-- The nodes `ctdb_daemon_traverse_all` sends the traverse to. -/
def traverseAllDestinations (persistent : Bool) (pnn : UInt32) (vnnMap : List UInt32) :
    List UInt32 :=
  if !persistent then vnnMap
  -- a persistent database is traversed on the local node if it is in the vnn map
  else if pnn ∈ vnnMap then [pnn]
  else vnnMap.take 1

/-- `ctdb_traverse_local_fn` on node `n`: the key and the tdb data (header and
data) it sends for one record, if it sends it. -/
def traverseLocalFn (n : ClusterNode) (persistent withEmptyRecords : Bool) (key : TdbData)
    (rec : LtdbHeader × TdbData) : Option (TdbData × TdbData) :=
  let data := rec.1.toBytes ++ rec.2
  if !persistent &&
      -- "filter out zero-length records", then "non-authoritative records"
      ((!withEmptyRecords && data.length ≤ ltdbHeaderSize) || rec.1.dmaster != n.pnn) then
    none
  else some (key, data)

/-- What the traverse child of `ctdb_traverse_local` sends, in order: the
records, then the empty record. -/
def ctdbTraverseLocal (n : ClusterNode) (persistent withEmptyRecords : Bool) :
    List (TdbData × TdbData) :=
  (tdbRecords n.ltdb).filterMap (fun r => traverseLocalFn n persistent withEmptyRecords r.1 r.2) ++
    [([], [])]

/-- What the originator receives from the destination `p`: nothing when no
node has that number. -/
def traverseStream (nodes : List ClusterNode) (persistent withEmptyRecords : Bool) (p : UInt32) :
    List (TdbData × TdbData) :=
  match nodes.find? (fun n => n.pnn == p) with
  | some n => ctdbTraverseLocal n persistent withEmptyRecords
  | none => []

/-- The streams of `CTDB_CONTROL_TRAVERSE_DATA` a traverse started on node
`pnn` gets back, one per destination. -/
def traverseAllStreams (nodes : List ClusterNode) (pnn : UInt32) (vnnMap : List UInt32)
    (persistent withEmptyRecords : Bool) : List (List (TdbData × TdbData)) :=
  (traverseAllDestinations persistent pnn vnnMap).map
    (traverseStream nodes persistent withEmptyRecords)

/-- `ctdb_control_traverse_data` on the originator: the new `null_count`, and
the record the traverse callback is called with, if it is. -/
def ctdbControlTraverseData (persistent : Bool) (numActive nullCount : Nat) (key data : TdbData) :
    Nat × Option (TdbData × TdbData) :=
  if key = [] ∧ data = [] then
    -- persistent databases are only scanned on one node
    if !persistent && nullCount + 1 != numActive then (nullCount + 1, none)
    else (nullCount + 1, some (key, data))
  else (nullCount, some (key, data))

/-- The callback's calls as the records arrive, from `null_count` on. -/
def traverseAllCallbacks (persistent : Bool) (numActive : Nat) :
    Nat → List (TdbData × TdbData) → List (TdbData × TdbData)
  | _, [] => []
  | nullCount, (key, data) :: arrived =>
      let r := ctdbControlTraverseData persistent numActive nullCount key data
      r.2.toList ++ traverseAllCallbacks persistent numActive r.1 arrived

end Ctdb

import Ctdb.Ltdb.StoreServer
import Ctdb.Marshall.Buffer

/-!
# Pulling a database into the recovery database (`server/ctdb_recover.c`,
`server/ctdb_recoverd.c`)

The first half of `recover_database`. The recovery master asks every active
node for its whole copy of the database (`CTDB_CONTROL_PULL_DB`); the node
answers with a marshall buffer holding each of its records, header and
data as stored (`traverse_pulldb`). The recovery master merges the answers,
in node map order, into a scratch tdb, the *recdb* (`pull_one_remote_database`):
a record replaces the one already there when its rsn is higher, or when the
rsns are equal and the one there does not name the recovery master as its
dmaster.

The recdb holds the records as bytes, the header's 24 bytes in front, the
way they arrived; the merge reads the two headers back out of the bytes.

The pulling node grows its reply by hand (`growAppend`): a reallocation
talloc refuses shuts the daemon down, and a record it refuses stops the
traverse, which the control does not notice.

A node is a `ClusterNode`: its number and flags from the node map, whether
it is frozen, the recovery transaction it has started, its vnn map and its
local database.
-/

namespace Ctdb

open Lib

def NODE_FLAGS_DISCONNECTED : UInt32 := 0x00000001
def NODE_FLAGS_BANNED : UInt32 := 0x00000008
def NODE_FLAGS_DELETED : UInt32 := 0x00000010
def NODE_FLAGS_STOPPED : UInt32 := 0x00000020

def NODE_FLAGS_INACTIVE : UInt32 :=
  NODE_FLAGS_DELETED ||| NODE_FLAGS_DISCONNECTED ||| NODE_FLAGS_BANNED ||| NODE_FLAGS_STOPPED

/-- What recovery reads and writes of one node, for the database being
recovered. -/
structure ClusterNode where
  pnn : UInt32
  /-- The node map's flags for the node. -/
  flags : UInt32
  /-- `freeze_mode[priority] == CTDB_FREEZE_FROZEN`. -/
  frozen : Bool
  /-- `freeze_transaction_id` once `freeze_transaction_started`. -/
  transactionId : Option UInt32
  vnnMap : Option (List UInt32)
  ltdb : Ltdb

/-- The node is not deleted, disconnected, banned or stopped. -/
def ClusterNode.active (n : ClusterNode) : Bool := n.flags &&& NODE_FLAGS_INACTIVE == 0

/-- The test of `pull_one_remote_database`: does the arriving header `hdr`
replace the `header` already in the recdb? -/
def pullReplaces (recoveryMaster : UInt32) (header hdr : LtdbHeader) : Bool :=
  header.rsn < hdr.rsn || (header.dmaster != recoveryMaster && header.rsn == hdr.rsn)

/-- The body of the loop of `pull_one_remote_database`, for one record. -/
def pullRecord (recoveryMaster : UInt32) (recdb : Tdb TdbData) (key data : TdbData) :
    Option (Tdb TdbData) :=
  -- "bad ltdb record"
  if data.length < ltdbHeaderSize then none
  else
    match tdbFetch recdb key with
    | none => some (tdbStore recdb key data)
    | some existing =>
        -- "Bad record size"
        if existing.length < ltdbHeaderSize then none
        else if pullReplaces recoveryMaster (LtdbHeader.ofBytes existing)
            (LtdbHeader.ofBytes data) then
          some (tdbStore recdb key data)
        else some recdb

/-- `pull_one_remote_database`, given what the pull control answered. -/
def pullOneRemoteDatabase (recoveryMaster : UInt32) (recdb : Tdb TdbData)
    (outdata : Option TdbData) : Option (Tdb TdbData) := do
  let outdata ← outdata
  if outdata.length < marshallBufferHeaderSize then none
  else
    let count ← readLE outdata 4 4
    marshallRecordLoop (pullRecord recoveryMaster) outdata count marshallBufferHeaderSize recdb

end Ctdb

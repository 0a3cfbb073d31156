import Ctdb.Ltdb.Access
import Ctdb.Marshall.Buffer

/-!
# Applying a batch of writes (`server/ctdb_update_record.c`)

`ctdb_persistent_store` is what a node runs, in a child, for
`CTDB_CONTROL_UPDATE_RECORD`: it opens a tdb transaction, walks the marshall
buffer with `ctdb_marshall_loop_next`, passing a header pointer, and stores
each record under its header — unless the local copy already has an rsn at
least as high and different data, in which case the whole transaction is
cancelled. A cancelled transaction leaves the database as it was, so the
function answers the new database or `none`.

The local copy is read with the daemon's `ctdb_ltdb_fetch`, which in a
persistent database stores an initial header for a missing record first.
For a volatile database the control sets `UPDATE_FLAGS_REPLACE_ONLY`, and
records the node does not have are skipped.
-/

namespace Ctdb

def UPDATE_FLAGS_REPLACE_ONLY : UInt32 := 1

/-- The body of the loop of `ctdb_persistent_store`, for one record. -/
def persistentStoreRecord (hash : TdbData → UInt32) (ctx : StoreCtx) (flags : UInt32)
    (ltdb : Ltdb) (item : MarshallItem) : Option Ltdb := do
  let header ← item.header
  -- "dont create/update records that does not exist locally"
  if flags &&& UPDATE_FLAGS_REPLACE_ONLY ≠ 0 ∧ tdbFetch ltdb item.key = none then some ltdb
  else
    let (ltdb, old) := ctdbLtdbFetch hash ctx ltdb item.key
    let (oldheader, olddata) ← old
    -- "existing header ... has larger RSN ... than new RSN"
    if oldheader.rsn ≥ header.rsn ∧ olddata ≠ item.data then none
    else
      let r := ctdbLtdbStore hash ctx ltdb item.key header item.data
      if r.ok then some r.ltdb else none

/-- `ctdb_persistent_store`: the database after the batch, or `none` when the
transaction is cancelled. -/
def ctdbPersistentStore (hash : TdbData → UInt32) (ctx : StoreCtx) (flags : UInt32)
    (ltdb : Ltdb) (m : TdbData) : Option Ltdb := do
  let count ← Lib.readLE m 4 4
  marshallLoopFold (persistentStoreRecord hash ctx flags) m true count none ltdb

end Ctdb

import Ctdb.Recovery.Pull

/-!
# Pushing the recovered database back out (`server/ctdb_recoverd.c`,
`server/ctdb_recover.c`, `server/ctdb_freeze.c`)

The second half of `recover_database`. Once every node's copy has been
merged into the recdb, the recovery master wipes the database on every
active node, then turns the recdb into one marshall buffer
(`traverse_recdb`) and has every active node store each of its records
(`CTDB_CONTROL_PUSH_DB`).

`traverse_recdb` leaves out the records of a volatile database whose data
is empty, and rewrites the header of each other record in place so that it
names the recovery master as dmaster and carries
`CTDB_REC_FLAG_MIGRATED_WITH_DATA`. `ctdb_control_push_db` strips the
read-only flags — a recovery revokes every delegation — and stores each
record through `ctdb_ltdb_store_server`, so that the one node that is now
the record's dmaster bumps its rsn.

A control sent to all active nodes with `ctdb_client_async_control` runs on
each of them; if one of them fails, so does the call and with it
`recover_database`. The model is of a volatile database, whose stores go
through `ctdb_ltdb_store_server`.
-/

namespace Ctdb

open Lib

/-- The body of the loop of `ctdb_control_push_db`, for one record. -/
def pushRecord (hash : TdbData → UInt32) (ctx : StoreCtx) (ltdb : Ltdb) (key data : TdbData) :
    Option Ltdb :=
  -- "bad ltdb record"
  if data.length < ltdbHeaderSize then none
  else
    let hdr := LtdbHeader.ofBytes data
    let hdr := { hdr with flags := hdr.flags &&& ~~~CTDB_REC_RO_FLAGS }
    let r := ctdbLtdbStoreServer hash ctx ltdb key hdr (data.drop ltdbHeaderSize)
    if r.ok then some r.ltdb else none

/-- `ctdb_control_push_db` on node `n`, refused unless the node is frozen. -/
def ctdbControlPushDb (hash : TdbData → UInt32) (indata : TdbData) (n : ClusterNode) :
    Option ClusterNode :=
  if indata.length < marshallBufferHeaderSize then none
  else if !n.frozen then none
  else do
    let count ← readLE indata 4 4
    let ltdb ← marshallRecordLoop (pushRecord hash ⟨n.pnn, false, n.vnnMap⟩) indata count
      marshallBufferHeaderSize n.ltdb
    pure { n with ltdb }

end Ctdb

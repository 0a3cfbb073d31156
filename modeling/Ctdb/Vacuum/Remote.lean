import Ctdb.Ltdb.Access
import Ctdb.Marshall.Buffer

/-!
# The remote side of a vacuum delete (`server/ctdb_recover.c`)

When the lmaster of a set of empty records wants to delete them for good it
asks every other active node twice, each time with a marshall buffer of the
records, empty, under the header the lmaster holds. With
`CTDB_CONTROL_RECEIVE_RECORDS` each node stores that copy in place of its
own (`store_tdb_record`); with `CTDB_CONTROL_TRY_DELETE_RECORDS` it deletes
its copy (`delete_tdb_record`). A node answers each control with a marshall
buffer of the records it could not handle, copied as they came.

Both functions refuse a record when this node is its lmaster or its
dmaster, when its own copy has the higher rsn, or when either copy carries
a read-only flag (`vacuumCopyRefused` is the part they share), and both
take their locks without blocking: a hash chain or the freelist that some
other process holds makes the record fail. `VacuumNode` is what a node
holds for this: its number and vnn map, the one database being vacuumed,
its records, and which of its locks are held elsewhere.

The two controls are one loop over the received buffer with a different
function at its heart, `vacuumRecordsControl`, written as the C code
steps through the buffer: from the first record on, each next one
`rec->length` bytes further, the count taken from the buffer's header.
-/

namespace Ctdb

open Lib

/-- What the vacuum controls read and write on a node. -/
structure VacuumNode where
  pnn : UInt32
  vnnMap : List UInt32
  /-- The id of the database being vacuumed, attached on the node. -/
  dbId : UInt32
  ltdb : Ltdb
  /-- Keys whose hash chain another process holds locked. -/
  lockedChains : List TdbData
  /-- Another process holds the freelist lock. -/
  freelistLocked : Bool

/-- The refusals `store_tdb_record` and `delete_tdb_record` share, given the
header that came in and the one stored on node `pnn`. -/
def vacuumCopyRefused (pnn : UInt32) (hdr hdr2 : LtdbHeader) : Bool :=
  hdr2.rsn > hdr.rsn || hdr.flags &&& CTDB_REC_RO_FLAGS != 0 ||
    hdr2.flags &&& CTDB_REC_RO_FLAGS != 0 || hdr2.dmaster == pnn

/-- `store_tdb_record`: the node's database once the lmaster's copy is
stored, or `none` for the -1 that leaves the record as it was. -/
def storeTdbRecord (hash : TdbData → UInt32) (n : VacuumNode) (key data : TdbData) :
    Option Ltdb :=
  if ctdbLmaster hash n.vnnMap key = n.pnn then none
  else if data.length ≠ ltdbHeaderSize then none
  -- `tdb_chainlock_nonblock`
  else if key ∈ n.lockedChains then none
  else
    let hdr := LtdbHeader.ofBytes data
    match tdbFetch n.ltdb key with
    | none => some (tdbStore n.ltdb key (hdr, []))
    | some (hdr2, _) =>
        if vacuumCopyRefused n.pnn hdr hdr2 then none
        else some (tdbStore n.ltdb key (hdr, []))

/-- `delete_tdb_record`: the node's database once its copy is gone, or
`none` for the -1 that leaves the record as it was. A record the node does
not have counts as deleted. -/
def deleteTdbRecord (hash : TdbData → UInt32) (n : VacuumNode) (key data : TdbData) :
    Option Ltdb :=
  if ctdbLmaster hash n.vnnMap key = n.pnn then none
  else if data.length ≠ ltdbHeaderSize then none
  -- `tdb_chainlock_nonblock`
  else if key ∈ n.lockedChains then none
  else
    match tdbFetch n.ltdb key with
    | none => some n.ltdb
    | some (hdr2, _) =>
        if vacuumCopyRefused n.pnn (LtdbHeader.ofBytes data) hdr2 then none
        -- `tdb_lock_nonblock` on the freelist
        else if n.freelistLocked then none
        else tdbDelete n.ltdb key

/-- One turn of the controls' loop: a record `op` fails on is copied into
the reply. -/
def vacuumRecordStep (op : VacuumNode → TdbData → TdbData → Option Ltdb)
    (s : VacuumNode × MarshallBuffer) (item : MarshallItem) : Option (VacuumNode × MarshallBuffer) :=
  -- "bad ltdb record in indata"
  if item.data.length < ltdbHeaderSize then none
  else
    match op s.1 item.key item.data with
    | some ltdb => some ({ s.1 with ltdb }, s.2)
    | none => some (s.1, marshallAppend s.2 (UInt32.ofNat item.reqid) item.key none item.data)

/-- The body the two controls share: the node afterwards and the reply, or
`none` for a control that returns -1. -/
def vacuumRecordsControl (op : VacuumNode → TdbData → TdbData → Option Ltdb)
    (indata : TdbData) (n : VacuumNode) : Option (VacuumNode × TdbData) :=
  if indata.length < marshallBufferHeaderSize then none
  else do
    let dbId ← readLE indata 0 4
    -- `find_ctdb_db`: "Unknown db"
    if dbId ≠ n.dbId.toNat then none
    else
      let count ← readLE indata 4 4
      let (n, reply) ← marshallLoopFold (vacuumRecordStep op) indata false count none
        (n, MarshallBuffer.empty n.dbId)
      pure (n, ctdbMarshallFinish reply)

/-- `ctdb_control_receive_records`. -/
def ctdbControlReceiveRecords (hash : TdbData → UInt32) (indata : TdbData) (n : VacuumNode) :
    Option (VacuumNode × TdbData) :=
  vacuumRecordsControl (storeTdbRecord hash) indata n

/-- `ctdb_control_try_delete_records`. -/
def ctdbControlTryDeleteRecords (hash : TdbData → UInt32) (indata : TdbData) (n : VacuumNode) :
    Option (VacuumNode × TdbData) :=
  vacuumRecordsControl (deleteTdbRecord hash) indata n

end Ctdb

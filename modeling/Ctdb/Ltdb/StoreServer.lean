import Ctdb.Ltdb.Tdb

/-!
# Storing a record on a node (`server/ctdb_ltdb_server.c`)

Every write to a volatile database in the daemon goes through
`ctdb_ltdb_store_server`, and it decides more than it is asked to. It first
decides whether the record is kept at all: an empty record that was never
migrated with data, written on a node that is neither its lmaster nor its
dmaster, is deleted instead of stored, and so is an empty record the
lmaster got back through a vacuum migration. It then bumps the record
sequence number when the node storing the record is the record's dmaster
and no read-only flag is set — the only place volatile rsns grow — and it
strips the two flags that only steer this decision. Last it tells the
vacuuming code whether to schedule the record for deletion or to take it off
the delete queue.

`storeKeep` is the chain of `else if`s, `storeBump` the increment test, and
`ctdbLtdbStoreServer` the whole function with the tdb update and the two
delete-queue requests it returns. A client-side context, which has no vnn
map, always stores and bumps nothing.
-/

namespace Ctdb

open Lib

/-- The node state `ctdb_ltdb_store_server` reads besides the record. -/
structure StoreCtx where
  pnn : UInt32
  persistent : Bool
  /-- `ctdb->vnn_map`, `none` for `NULL`. -/
  vnnMap : Option (List UInt32)

/-- What the call leaves: the database, `ret == 0`, the header as the caller
sees it afterwards, and the two requests to the delete queue. -/
structure StoreResult where
  ltdb : Ltdb
  ok : Bool
  header : LtdbHeader
  scheduleForDeletion : Bool
  removeFromDeleteQueue : Bool

/-- The `keep` chain, with the `schedule_for_deletion` its `AUTOMATIC`
branch sets. -/
def storeKeep (pnn lmaster : UInt32) (persistent : Bool) (header : LtdbHeader)
    (data : TdbData) : Bool × Bool :=
  if data ≠ [] then (true, false)
  else if header.flags &&& CTDB_REC_RO_FLAGS ≠ 0 then (true, false)
  else if persistent then (true, false)
  else if header.flags &&& CTDB_REC_FLAG_AUTOMATIC ≠ 0 then (true, true)
  else if header.flags &&& CTDB_REC_FLAG_MIGRATED_WITH_DATA ≠ 0 then (true, false)
  else if pnn = lmaster then
    -- the lmaster drops an empty record only when a vacuum migration
    -- brought it back to the lmaster as dmaster
    if header.flags &&& CTDB_REC_FLAG_VACUUM_MIGRATED = 0 then (true, false)
    else if pnn ≠ header.dmaster then (true, false)
    else (false, false)
  else if pnn = header.dmaster then (true, false)
  else (false, false)

/-- The rsn increment: the node stores as the record's dmaster, outside a
persistent database and outside a read-only delegation. -/
def storeBump (pnn : UInt32) (persistent : Bool) (header : LtdbHeader) : Bool :=
  !persistent && pnn == header.dmaster && header.flags &&& CTDB_REC_RO_FLAGS == 0

/-- The header after the `keep` branch's increment. -/
def bumpedHeader (pnn : UInt32) (persistent : Bool) (header : LtdbHeader) : LtdbHeader :=
  if storeBump pnn persistent header then { header with rsn := header.rsn + 1 } else header

/-- The two flags the decision reads and the database never holds. -/
def clearStoreFlags (header : LtdbHeader) : LtdbHeader :=
  { header with
    flags := header.flags &&& ~~~CTDB_REC_FLAG_VACUUM_MIGRATED &&& ~~~CTDB_REC_FLAG_AUTOMATIC }

/-- `ctdb_ltdb_store_server`. -/
def ctdbLtdbStoreServer (hash : TdbData → UInt32) (ctx : StoreCtx) (ltdb : Ltdb)
    (key : TdbData) (header : LtdbHeader) (data : TdbData) : StoreResult :=
  -- (keep, schedule_for_deletion, remove_from_delete_queue, header)
  let decided : Bool × Bool × Bool × LtdbHeader :=
    match ctx.vnnMap with
    | none => (true, false, false, header)
    | some vnnMap =>
        let (keep, sched) :=
          storeKeep ctx.pnn (ctdbLmaster hash vnnMap key) ctx.persistent header data
        if keep then
          let sched := sched || (storeBump ctx.pnn ctx.persistent header && data == [])
          (true, sched, !sched, bumpedHeader ctx.pnn ctx.persistent header)
        else (false, sched, false, header)
  let header := clearStoreFlags decided.2.2.2
  if decided.1 then
    ⟨tdbStore ltdb key (header, data), true, header, decided.2.1, decided.2.2.1⟩
  else
    match tdbDelete ltdb key with
    | some ltdb => ⟨ltdb, true, header, decided.2.1, decided.2.2.1⟩
    -- a failed delete cancels both delete-queue requests
    | none => ⟨ltdb, false, header, false, false⟩

/-! ## Records with data -/

section WithData

variable (hash : TdbData → UInt32) (ctx : StoreCtx) (ltdb : Ltdb) (key : TdbData)
  (header : LtdbHeader) {data : TdbData}

end WithData

end Ctdb

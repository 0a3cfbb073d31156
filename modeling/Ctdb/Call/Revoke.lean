import Ctdb.Ltdb.Access

/-!
# Revoking read-only delegations (`server/ctdb_call.c`, `common/ctdb_ltdb.c`)

The dmaster of a record may hand out read-only copies. It marks the record
`CTDB_REC_RO_HAVE_DELEGATIONS` and notes each node it gives a copy to in the
tracking database, one bit per pnn (`ctdb_trackingdb_add_pnn`). A call that
wants to change the record first has every copy revoked:
`ctdb_request_call` marks the record `CTDB_REC_RO_REVOKING_READONLY`, forks a
revoke child (`ctdb_start_revoke_ro_record`) and defers the call on the
child's handle. While the mark is on, every call for the record is deferred
on that handle (`ctdb_add_revoke_deferred_call`), and the daemon gives up
with `ctdb_fatal` when there is no handle to defer on.

The child sends `CTDB_CONTROL_UPDATE_RECORD` to each node of the tracking
record (`ctdb_trackingdb_traverse`) and waits for the replies or five
seconds. When all of them succeed it stores the record with
`CTDB_REC_RO_REVOKE_COMPLETE` added and its rsn raised by one, which the next
call clears; otherwise it stores nothing. Either way the parent's
`revokechild_handler` frees the handle, and the handle's deferred calls are
sent back to be processed again (`deferred_call_destructor`).

Only the read-only part of `ctdb_request_call` is embedded: what follows it
(running the call or migrating the record) is `processed`, and the record's
lock is taken at once. The database is not sticky. The child's replies are an
outcome per pnn; the child's store goes into the same tdb file as the
parent's. `ctdb_fatal` is an error carrying its message.
-/

namespace Ctdb

open Lib

def CTDB_WANT_READONLY : UInt32 := 0x00000004
def CTDB_FETCH_WITH_HEADER_FUNC : UInt32 := 0xFF000003

/-! ## The tracking database -/

/-- `ctdb_trackingdb_add_pnn`: the bit of `pnn`, the bitmap first grown with
zero bytes to hold it. -/
def ctdbTrackingdbAddPnn (data : TdbData) (pnn : Nat) : TdbData :=
  let bytePos := pnn / 8
  let data := if bytePos + 1 > data.length then data ++ List.replicate (bytePos + 1 - data.length) 0
    else data
  data.modify bytePos fun b => b ||| (1 <<< (pnn % 8)).toUInt8

/-- `ctdb_trackingdb_traverse`: the pnn of each set bit, byte by byte and bit
by bit. -/
def ctdbTrackingdbTraverse (data : TdbData) : List Nat :=
  (List.range data.length).flatMap fun i =>
    ((List.range 8).filter fun j => data.getD i 0 &&& (1 <<< j).toUInt8 ≠ 0).map (i * 8 + ·)

/-! ## The revoke child -/

/-- What `ctdb_request_call` reads of a `struct ctdb_req_call`. -/
structure ReqCall where
  key : TdbData
  flags : UInt32
  callid : UInt32
  srcnode : Nat
  deriving DecidableEq, Repr

/-- `struct revokechild_handle`: the key, the tracking record and the header
and data the child sends, and the calls deferred on it, oldest first. -/
structure RevokechildHandle where
  key : TdbData
  tdata : TdbData
  header : LtdbHeader
  data : TdbData
  deferred : List ReqCall
  deriving DecidableEq

/-- The part of `struct ctdb_db_context` revocation uses: the records, the
tracking records, `revokechild_active`, and the calls the destructors of
deferred calls have sent back, oldest first. -/
structure RevokeDb where
  ltdb : Ltdb
  rottdb : Tdb TdbData
  revokechildActive : List RevokechildHandle
  requeued : List ReqCall

/-- How `ctdb_start_revoke_ro_record` gets its child going. -/
inductive RevokeStart
  | ok
  | pipeFails
  | forkFails
  /-- `event_add_fd` fails: the handle is freed, but the function returns 0. -/
  | fdEventFails
  deriving DecidableEq, Repr

/-- How the revoke child's exchange with one delegated node ends. -/
inductive UpdateRecordOutcome
  /-- `ctdb_ctrl_updaterecord_send` returns `NULL`. -/
  | sendFails
  /-- `ctdb_control_recv` fails, or the node answers non-zero. -/
  | replyFails
  /-- No reply before the five-second timeout. -/
  | noReply
  | acked
  deriving DecidableEq, Repr

section Node

variable (hash : TdbData → UInt32) (ctx : StoreCtx)

/-- `ctdb_add_revoke_deferred_call`: the call waits on the first active handle
for its key, where a handle with an empty key matches nothing; `none` for -1. -/
def ctdbAddRevokeDeferredCall (db : RevokeDb) (c : ReqCall) : Option RevokeDb :=
  match db.revokechildActive.findIdx? fun rc => rc.key != [] && rc.key == c.key with
  | none => none
  | some i => some { db with
      revokechildActive := db.revokechildActive.modify i fun rc => { rc with deferred := rc.deferred ++ [c] } }

/-- `ctdb_start_revoke_ro_record`: the header it leaves to its caller and hands
the child, and the database with the child's handle, or `none` for -1. -/
def ctdbStartRevokeRoRecord (db : RevokeDb) (key : TdbData) (header : LtdbHeader) (data : TdbData)
    (start : RevokeStart) : LtdbHeader × Option RevokeDb :=
  let header := { header with
    flags := header.flags &&& ~~~(CTDB_REC_RO_REVOKING_READONLY ||| CTDB_REC_RO_HAVE_DELEGATIONS |||
      CTDB_REC_RO_HAVE_READONLY) ||| CTDB_REC_FLAG_MIGRATED_WITH_DATA
    rsn := header.rsn - 1 }
  let rc : RevokechildHandle := ⟨key, (tdbFetch db.rottdb key).getD [], header, data, []⟩
  match start with
  | .pipeFails | .forkFails => (header, none)
  | .fdEventFails => (header, some db)
  | .ok => (header, some { db with revokechildActive := db.revokechildActive ++ [rc] })

/-- `ctdb_revoke_all_delegations` in the child: its status and the records it
leaves. The wait ends with the last reply, or else with the timeout, which
fails the revoke; so it succeeds only when some node was sent the update and
every node acknowledged it. -/
def ctdbRevokeAllDelegations (ltdb : Ltdb) (tdata key : TdbData) (header : LtdbHeader)
    (outcome : Nat → UpdateRecordOutcome) : Int × Ltdb :=
  let pnns := ctdbTrackingdbTraverse tdata
  if ¬ (pnns ≠ [] ∧ ∀ pnn ∈ pnns, outcome pnn = .acked) then (-1, ltdb)
  else
    match (ctdbLtdbFetch hash ctx ltdb key).2 with
    | none => (-1, ltdb)
    | some (newHeader, newData) =>
        let header := { header with rsn := header.rsn + 1 }
        if newHeader.rsn > header.rsn then (-1, ltdb)
        else if newHeader.flags &&& (CTDB_REC_RO_REVOKING_READONLY ||| CTDB_REC_RO_HAVE_DELEGATIONS) ≠
            CTDB_REC_RO_REVOKING_READONLY ||| CTDB_REC_RO_HAVE_DELEGATIONS then (-1, ltdb)
        else
          let newHeader := { newHeader with
            rsn := newHeader.rsn + 1
            flags := newHeader.flags ||| CTDB_REC_RO_REVOKE_COMPLETE }
          let r := ctdbLtdbStore hash ctx ltdb key newHeader newData
          if r.ok then (0, r.ltdb) else (-1, ltdb)

/-- The revoke child for `key` exits and `revokechild_handler` runs: the
records as the child left them (a child that fails to switch to a client
does nothing), and the handle freed, its deferred calls sent back. Whatever
the child's status, the handler frees the handle. -/
def revokechildExit (db : RevokeDb) (key : TdbData) (switchOk : Bool)
    (outcome : Nat → UpdateRecordOutcome) : RevokeDb :=
  match db.revokechildActive.find? fun rc => rc.key == key with
  | none => db
  | some rc =>
      let ltdb := if switchOk then (ctdbRevokeAllDelegations hash ctx db.ltdb rc.tdata rc.key rc.header outcome).2
        else db.ltdb
      { db with
        ltdb
        revokechildActive := db.revokechildActive.erase rc
        requeued := db.requeued ++ rc.deferred }

/-! ## Calls for the record -/

/-- How `ctdb_request_call` leaves a call, as far as read-only records go. -/
inductive CallOutcome
  /-- `ctdb_send_error` for a failed fetch. -/
  | fetchFailed
  /-- Deferred on the revoke child's handle. -/
  | deferred
  | redirected
  /-- Answered with a read-only copy under this header. -/
  | delegated (header : LtdbHeader)
  /-- On to the rest of the function. -/
  | processed
  deriving DecidableEq, Repr

/-- `ctdb_request_call` up to its read-only part: the outcome and the
database, or `ctdb_fatal`'s message. `readonly` says whether the database has
a tracking database, and `start` how a revoke child it starts would go. -/
def ctdbRequestCall (readonly : Bool) (start : RevokeStart) (db : RevokeDb) (c : ReqCall) :
    Except String (CallOutcome × RevokeDb) := do
  let (ltdb, rec) := ctdbLtdbFetch hash ctx db.ltdb c.key
  let db := { db with ltdb }
  let some (header, data) := rec | pure (.fetchFailed, db)
  -- "Dont do READONLY if we dont have a tracking database"
  let wantReadonly := c.flags &&& CTDB_WANT_READONLY ≠ 0 && readonly
  let (db, header) ←
    if header.flags &&& CTDB_REC_RO_REVOKE_COMPLETE ≠ 0 then do
      let r := ctdbLtdbStore hash ctx db.ltdb c.key { header with flags := header.flags &&& ~~~CTDB_REC_RO_FLAGS } data
      if !r.ok then throw "Failed to write header with cleared REVOKE flag"
      -- a failed delete of the tracking record is only logged
      pure ({ db with ltdb := r.ltdb, rottdb := (tdbDelete db.rottdb c.key).getD db.rottdb }, r.header)
    else pure (db, header)
  if header.flags &&& CTDB_REC_RO_REVOKING_READONLY ≠ 0 then
    match ctdbAddRevokeDeferredCall db c with
    | none => throw "Failed to add deferred call for revoke child"
    | some db => return (.deferred, db)
  if header.dmaster ≠ ctx.pnn ∧ header.flags &&& CTDB_REC_RO_HAVE_DELEGATIONS = 0 then
    return (.redirected, db)
  if !wantReadonly ∧ header.flags &&& (CTDB_REC_RO_HAVE_DELEGATIONS ||| CTDB_REC_RO_HAVE_READONLY) ≠ 0 then
    let r := ctdbLtdbStore hash ctx db.ltdb c.key
      { header with flags := header.flags ||| CTDB_REC_RO_REVOKING_READONLY } data
    if !r.ok then throw "Failed to store record with HAVE_DELEGATIONS set"
    match (ctdbStartRevokeRoRecord { db with ltdb := r.ltdb } c.key r.header data start).2 with
    | none => throw "Failed to start record revoke"
    | some db =>
        match ctdbAddRevokeDeferredCall db c with
        | none => throw "Failed to add deferred call for revoke child"
        | some db => return (.deferred, db)
  -- the first request for a delegation bumps the rsn and marks the record
  let (db, header) ←
    if wantReadonly ∧ c.callid = CTDB_FETCH_WITH_HEADER_FUNC ∧
        header.flags &&& CTDB_REC_RO_HAVE_DELEGATIONS = 0 then do
      let r := ctdbLtdbStore hash ctx db.ltdb c.key
        { header with rsn := header.rsn + 3, flags := header.flags ||| CTDB_REC_RO_HAVE_DELEGATIONS } data
      if !r.ok then throw "Failed to store record with HAVE_DELEGATIONS set"
      pure ({ db with ltdb := r.ltdb }, r.header)
    else pure (db, header)
  if wantReadonly ∧ c.callid = CTDB_FETCH_WITH_HEADER_FUNC then
    let tdata := ctdbTrackingdbAddPnn ((tdbFetch db.rottdb c.key).getD []) c.srcnode
    let copy := { header with
      rsn := header.rsn - 2
      flags := (header.flags ||| CTDB_REC_RO_HAVE_READONLY) &&& ~~~CTDB_REC_RO_HAVE_DELEGATIONS }
    return (.delegated copy, { db with rottdb := tdbStore db.rottdb c.key tdata })
  return (.processed, db)

/-! ## Runs -/

/-- What happens to the record's node: a call arrives, a revoke child exits,
or the oldest call sent back by a deferred call's destructor is processed
again. -/
inductive RevokeEvent
  | call (c : ReqCall) (start : RevokeStart)
  | revokechildExit (key : TdbData) (switchOk : Bool) (outcome : Nat → UpdateRecordOutcome)
  | requeue (start : RevokeStart)

/-- One event, with the outcome of the call it processes, if any. -/
def revokeStep (readonly : Bool) (db : RevokeDb) : RevokeEvent →
    Except String (Option CallOutcome × RevokeDb)
  | .call c start => do
      let (o, db) ← ctdbRequestCall hash ctx readonly start db c
      pure (some o, db)
  | .revokechildExit key switchOk outcome => pure (none, revokechildExit hash ctx db key switchOk outcome)
  | .requeue start =>
      match db.requeued with
      | [] => pure (none, db)
      | c :: rest => do
          let (o, db) ← ctdbRequestCall hash ctx readonly start { db with requeued := rest } c
          pure (some o, db)

/-- The outcomes of a run and the database it leaves, or the message of the
`ctdb_fatal` that ends it. -/
def revokeRun (readonly : Bool) : RevokeDb → List RevokeEvent →
    Except String (List (Option CallOutcome) × RevokeDb)
  | db, [] => pure ([], db)
  | db, e :: es => do
      let (o, db) ← revokeStep hash ctx readonly db e
      let (os, db) ← revokeRun readonly db es
      pure (o :: os, db)

end Node

end Ctdb

import Ctdb.Call.Revoke
import Ctdb.Persistent.Trans3

/-!
# Migrating records between daemons (`server/ctdb_call.c`, `server/ctdb_daemon.c`,
`client/ctdb_client.c`)

A record of a volatile database lives on one node at a time, its *dmaster*,
and every node's copy names the node it believes to be the dmaster. The
record's *lmaster*, fixed by the vnn map, keeps track of it: when the record
leaves a node the lmaster is told first, so that a request sent to the
lmaster can always be passed on.

A client asks its daemon for a call on a record
(`daemon_request_call_from_client`). The daemon answers it at once when its
copy names itself dmaster, and otherwise sends a `CTDB_REQ_CALL` to the node
its copy names. A daemon that gets the request and is not the dmaster sends
it on (`ctdb_call_send_redirect`): to the lmaster, or, on the lmaster, to the
node the lmaster's copy names. The dmaster answers a call from itself
locally, and otherwise hands the record to the caller
(`ctdb_call_send_dmaster`): it stores its copy naming the caller and sends
the record in a `CTDB_REQ_DMASTER` to the lmaster, which stores its own copy
naming the caller and sends the record on in a `CTDB_REPLY_DMASTER`
(`ctdb_request_dmaster`, `ctdb_send_dmaster_reply`). The caller stores the
record naming itself and runs the call on it (`ctdb_reply_dmaster`,
`ctdb_become_dmaster`). On the lmaster the middle hop is skipped. The record
sequence number grows only inside `ctdb_ltdb_store_server`, when the node
that stores the record is its dmaster.

A client whose daemon is the dmaster may write the record itself, under the
chain lock, with the header it read (`ctdb_fetch_lock`, `ctdb_record_store`
or a local `ctdb_call`); in a client `ctdb_ltdb_store` has no store function
and writes the header as it is.

The database is volatile, not sticky and has no tracking database, so no
call wants a read-only copy; the branches of `ctdb_request_call` and
`daemon_request_call_from_client` for records with read-only flags belong to
Call/Revoke.lean, and here they only consume the request. The vnn map is
fixed and every node is active, so no packet is dropped for its generation
or a banned node, and no call is resent. The daemon's call table holds the
three calls `ctdb_attach` registers, none of which fails or sets `new_data`.
Replies to the caller (`CTDB_REPLY_CALL`, `CTDB_REPLY_ERROR`), statistics,
hot keys and the fetch-collapse deferral (Call/Deferral.lean) are not
modelled; `ctdb_reqid_new` may return any id. A packet waits in the network
until it is delivered, in any order, and a request that finds the chain lock
held is the same as one delivered later. `ctdb_fatal` ends the run with its
message.
-/

namespace Ctdb.Migration

open Lib

def CTDB_NULL_FUNC : UInt32 := 0xFF000001
def CTDB_FETCH_FUNC : UInt32 := 0xFF000002
def CTDB_CALL_FLAG_VACUUM_MIGRATION : UInt32 := 0x00000002

/-- `struct ctdb_req_header`: the fields the call protocol reads. -/
structure ReqHeader where
  srcnode : UInt32
  destnode : UInt32
  reqid : UInt32
  deriving DecidableEq, Repr

/-- `struct ctdb_req_call`; the call data goes to a call that never reads it. -/
structure ReqCallPkt where
  hdr : ReqHeader
  flags : UInt32
  callid : UInt32
  hopcount : UInt32
  key : TdbData
  deriving DecidableEq, Repr

/-- `struct ctdb_req_dmaster`, its record flags always present. -/
structure ReqDmasterPkt where
  hdr : ReqHeader
  rsn : UInt64
  dmaster : UInt32
  key : TdbData
  data : TdbData
  recordFlags : UInt32
  deriving DecidableEq, Repr

/-- `struct ctdb_reply_dmaster`, its record flags always present. -/
structure ReplyDmasterPkt where
  hdr : ReqHeader
  rsn : UInt64
  key : TdbData
  data : TdbData
  recordFlags : UInt32
  deriving DecidableEq, Repr

/-- The packets of the call protocol. -/
inductive CallPkt
  | reqCall (c : ReqCallPkt)
  | reqDmaster (c : ReqDmasterPkt)
  | replyDmaster (c : ReplyDmasterPkt)
  deriving DecidableEq, Repr

def CallPkt.hdr : CallPkt → ReqHeader
  | .reqCall c => c.hdr
  | .reqDmaster c => c.hdr
  | .replyDmaster c => c.hdr

/-- `struct ctdb_call_state` of a call this daemon sent out. -/
structure CallState where
  reqid : UInt32
  key : TdbData
  callid : UInt32
  flags : UInt32
  deriving DecidableEq, Repr

/-- One daemon: its copy of the database, `pending_calls`, and `recovery_mode`. -/
structure CtdbDaemon where
  ltdb : Ltdb
  pendingCalls : List CallState
  recoveryMode : RecoveryMode

/-- The daemons by pnn, and the packets sent and not yet processed. -/
structure CtdbCluster where
  daemons : List CtdbDaemon
  inflight : List CallPkt

/-- A daemon that has just attached the database: a volatile database is opened
empty. -/
def CtdbDaemon.attached : CtdbDaemon := ⟨∅, [], .normal⟩

/-- A cluster of `n` daemons that have just attached the database. -/
def callStart (n : Nat) : CtdbCluster := ⟨List.replicate n CtdbDaemon.attached, []⟩

/-- The calls `ctdb_attach` registers in the daemon: `ctdb_null_func`,
`ctdb_fetch_func` and `ctdb_fetch_with_header_func`. -/
def builtinCall (callid : UInt32) : Bool :=
  callid == CTDB_NULL_FUNC || callid == CTDB_FETCH_FUNC || callid == CTDB_FETCH_WITH_HEADER_FUNC

section Daemon

variable (hash : TdbData → UInt32) (vnnMap : List UInt32) (pnn : UInt32)

/-- How the daemon of `pnn` reaches its volatile database. -/
def daemonCtx : StoreCtx := ⟨pnn, false, some vnnMap⟩

/-- `ctdb_call_local` with `updatetdb` set: an unknown call fails, and a known one
writes the record back as it read it, since no registered call sets
`new_data`. -/
def ctdbCallLocal (ltdb : Ltdb) (key : TdbData) (callid : UInt32) (header : LtdbHeader)
    (data : TdbData) : Ltdb :=
  if builtinCall callid then (ctdbLtdbStore hash (daemonCtx vnnMap pnn) ltdb key header data).ltdb
  else ltdb

/-- `ctdb_call_send_redirect`: the request goes to the lmaster, or, from the
lmaster, to the node its copy names. -/
def ctdbCallSendRedirect (c : ReqCallPkt) (header : LtdbHeader) : ReqCallPkt :=
  let lmaster := ctdbLmaster hash vnnMap c.key
  let destnode := if pnn = lmaster then header.dmaster else lmaster
  { c with hdr := { c.hdr with destnode }, hopcount := c.hopcount + 1 }

/-- `ctdb_send_dmaster_reply`: the lmaster stores its copy naming the new
dmaster and sends it the record, with the rsn and flags the store left. -/
def ctdbSendDmasterReply (ltdb : Ltdb) (header : LtdbHeader) (key data : TdbData)
    (newDmaster reqid : UInt32) : Except String (Ltdb × List CallPkt) :=
  if pnn ≠ ctdbLmaster hash vnnMap key then .ok (ltdb, [])
  else
    let r := ctdbLtdbStore hash (daemonCtx vnnMap pnn) ltdb key { header with dmaster := newDmaster } data
    if !r.ok then .error "ctdb_send_dmaster_reply unable to update dmaster"
    else .ok (r.ltdb, [.replyDmaster ⟨⟨pnn, newDmaster, reqid⟩, r.header.rsn, key, data, r.header.flags⟩])

/-- `ctdb_call_send_dmaster`: the dmaster gives the record to the caller. The
packet takes the rsn and flags before the store. -/
def ctdbCallSendDmaster (ltdb : Ltdb) (c : ReqCallPkt) (header : LtdbHeader) (data : TdbData) :
    Except String (Ltdb × List CallPkt) :=
  let lmaster := ctdbLmaster hash vnnMap c.key
  let header := if data ≠ [] then { header with flags := header.flags ||| CTDB_REC_FLAG_MIGRATED_WITH_DATA }
    else header
  if lmaster = pnn then ctdbSendDmasterReply hash vnnMap pnn ltdb header c.key data c.hdr.srcnode c.hdr.reqid
  else
    let r := ctdbLtdbStore hash (daemonCtx vnnMap pnn) ltdb c.key { header with dmaster := c.hdr.srcnode } data
    if !r.ok then .error "Failed to store record in ctdb_call_send_dmaster"
    else .ok (r.ltdb, [.reqDmaster ⟨⟨pnn, lmaster, c.hdr.reqid⟩, header.rsn, c.hdr.srcnode, c.key, data,
      header.flags⟩])

/-- `ctdb_become_dmaster`: the record is stored naming this daemon, and the call
that asked for it, found by its reqid and key, is run on it and done. -/
def ctdbBecomeDmaster (d : CtdbDaemon) (reqid : UInt32) (key data : TdbData) (rsn : UInt64)
    (recordFlags : UInt32) : Except String CtdbDaemon :=
  let state := d.pendingCalls.find? (·.reqid == reqid)
  let header : LtdbHeader := ⟨rsn, pnn, recordFlags⟩
  -- the flag only steers the store's decision whether to keep the record
  let header := match state with
    | some st => if st.flags &&& CTDB_CALL_FLAG_VACUUM_MIGRATION ≠ 0 then
        { header with flags := header.flags ||| CTDB_REC_FLAG_VACUUM_MIGRATED } else header
    | none => header
  let r := ctdbLtdbStore hash (daemonCtx vnnMap pnn) d.ltdb key header data
  if !r.ok then .error "ctdb_reply_dmaster store failed\n"
  else match state with
    | none => .ok { d with ltdb := r.ltdb }
    | some st =>
        if key ≠ st.key then .ok { d with ltdb := r.ltdb }
        else .ok { d with
          ltdb := ctdbCallLocal hash vnnMap pnn r.ltdb st.key st.callid r.header data
          pendingCalls := d.pendingCalls.erase st }

/-- `ctdb_request_dmaster`, on the lmaster. A request from a node its copy does
not name forces a recovery, unless the copy is one it has just made up. -/
def ctdbRequestDmaster (d : CtdbDaemon) (c : ReqDmasterPkt) :
    Except String (CtdbDaemon × List CallPkt) :=
  let (ltdb, rec) := ctdbLtdbFetch hash (daemonCtx vnnMap pnn) d.ltdb c.key
  let d := { d with ltdb }
  match rec with
  | none => .error "ctdb_req_dmaster failed to fetch record"
  | some (header, _) =>
      if ctdbLmaster hash vnnMap c.key ≠ pnn then .error "ctdb_req_dmaster to non-lmaster"
      else if header.dmaster ≠ c.hdr.srcnode ∧ (header.rsn ≠ 0 ∨ header.dmaster ≠ pnn) then
        .ok ({ d with recoveryMode := .active }, [])
      else
        let header := { header with rsn := c.rsn, flags := c.recordFlags }
        if c.dmaster = pnn then
          (ctdbBecomeDmaster hash vnnMap pnn d c.hdr.reqid c.key c.data c.rsn c.recordFlags).map (·, [])
        else
          (ctdbSendDmasterReply hash vnnMap pnn d.ltdb header c.key c.data c.dmaster c.hdr.reqid).map
            fun (ltdb, pkts) => ({ d with ltdb }, pkts)

/-- `ctdb_reply_dmaster`. -/
def ctdbReplyDmaster (d : CtdbDaemon) (c : ReplyDmasterPkt) : Except String CtdbDaemon :=
  ctdbBecomeDmaster hash vnnMap pnn d c.hdr.reqid c.key c.data c.rsn c.recordFlags

/-- `ctdb_request_call`: redirect the request, give the record to the caller, or
answer a call from this daemon itself. -/
def ctdbRequestCall (d : CtdbDaemon) (c : ReqCallPkt) : Except String (CtdbDaemon × List CallPkt) :=
  let (ltdb, rec) := ctdbLtdbFetch hash (daemonCtx vnnMap pnn) d.ltdb c.key
  let d := { d with ltdb }
  match rec with
  -- `ctdb_send_error`
  | none => .ok (d, [])
  | some (header, data) =>
      if header.flags &&& (CTDB_REC_RO_REVOKE_COMPLETE ||| CTDB_REC_RO_REVOKING_READONLY) ≠ 0 then .ok (d, [])
      else if header.dmaster ≠ pnn ∧ header.flags &&& CTDB_REC_RO_HAVE_DELEGATIONS = 0 then
        .ok (d, [.reqCall (ctdbCallSendRedirect hash vnnMap pnn c header)])
      else if header.flags &&& (CTDB_REC_RO_HAVE_DELEGATIONS ||| CTDB_REC_RO_HAVE_READONLY) ≠ 0 then
        .ok (d, [])
      else if c.hdr.srcnode ≠ pnn then
        (ctdbCallSendDmaster hash vnnMap pnn d.ltdb c header data).map fun (ltdb, pkts) => ({ d with ltdb }, pkts)
      else .ok ({ d with ltdb := ctdbCallLocal hash vnnMap pnn d.ltdb c.key c.callid header data }, [])

/-- `daemon_request_call_from_client`: answer the call when this daemon is the
dmaster (`ctdb_call_local_send`), and otherwise send it to the node the copy
names (`ctdb_daemon_call_send_remote`) and wait for it. -/
def daemonRequestCallFromClient (d : CtdbDaemon) (key : TdbData) (callid flags reqid : UInt32) :
    CtdbDaemon × List CallPkt :=
  let (ltdb, rec) := ctdbLtdbFetch hash (daemonCtx vnnMap pnn) d.ltdb key
  let d := { d with ltdb }
  -- "Dont do READONLY if we dont have a tracking database"
  let flags := flags &&& ~~~CTDB_WANT_READONLY
  match rec with
  | none => (d, [])
  | some (header, data) =>
      if header.flags &&& (CTDB_REC_RO_REVOKE_COMPLETE ||| CTDB_REC_RO_REVOKING_READONLY) ≠ 0 then (d, [])
      else if header.dmaster = pnn ∧
          header.flags &&& (CTDB_REC_RO_HAVE_DELEGATIONS ||| CTDB_REC_RO_HAVE_READONLY) ≠ 0 then (d, [])
      else if header.dmaster = pnn then
        ({ d with ltdb := ctdbCallLocal hash vnnMap pnn d.ltdb key callid header data }, [])
      else
        ({ d with pendingCalls := d.pendingCalls ++ [⟨reqid, key, callid, flags⟩] },
          [.reqCall ⟨⟨pnn, header.dmaster, reqid⟩, flags, callid, 0, key⟩])

/-- A client of this daemon that finds it the dmaster writes the record under
the header it read (`ctdb_fetch_lock` and `ctdb_record_store`, or a local
`ctdb_call`); the client's fetch of a missing record fails. -/
def ctdbRecordStore (d : CtdbDaemon) (key data : TdbData) : CtdbDaemon :=
  match (ctdbLtdbFetch hash ⟨pnn, false, none⟩ d.ltdb key).2 with
  | some (header, _) => if header.dmaster = pnn then { d with ltdb := tdbStore d.ltdb key (header, data) } else d
  | none => d

/-- `ctdb_input_pkt` for the packets of the call protocol. -/
def ctdbInputPkt (d : CtdbDaemon) : CallPkt → Except String (CtdbDaemon × List CallPkt)
  | .reqCall c => ctdbRequestCall hash vnnMap pnn d c
  | .reqDmaster c => ctdbRequestDmaster hash vnnMap pnn d c
  | .replyDmaster c => (ctdbReplyDmaster hash vnnMap pnn d c).map (·, [])

end Daemon

/-! ## Runs -/

/-- A client asks the daemon of `pnn` for a call, a client of `pnn` writes a
record, or a packet in the network is delivered. -/
inductive CallEvent
  | clientCall (pnn : UInt32) (key : TdbData) (callid flags reqid : UInt32)
  | recordStore (pnn : UInt32) (key data : TdbData)
  | deliver (pkt : CallPkt)

section Cluster

variable (hash : TdbData → UInt32) (vnnMap : List UInt32)

def callStep (s : CtdbCluster) : CallEvent → Except String CtdbCluster
  | .clientCall pnn key callid flags reqid =>
      match s.daemons[pnn.toNat]? with
      | none => .ok s
      | some d =>
          let (d, pkts) := daemonRequestCallFromClient hash vnnMap pnn d key callid flags reqid
          .ok ⟨s.daemons.set pnn.toNat d, s.inflight ++ pkts⟩
  | .recordStore pnn key data =>
      match s.daemons[pnn.toNat]? with
      | none => .ok s
      | some d => .ok { s with daemons := s.daemons.set pnn.toNat (ctdbRecordStore hash pnn d key data) }
  | .deliver pkt =>
      if pkt ∈ s.inflight then
        match s.daemons[pkt.hdr.destnode.toNat]? with
        | none => .ok s
        | some d =>
            (ctdbInputPkt hash vnnMap pkt.hdr.destnode d pkt).map fun (d, pkts) =>
              ⟨s.daemons.set pkt.hdr.destnode.toNat d, s.inflight.erase pkt ++ pkts⟩
      else .ok s

def callRun (s : CtdbCluster) (evs : List CallEvent) : Except String CtdbCluster :=
  evs.foldlM (callStep hash vnnMap) s

end Cluster

end Ctdb.Migration

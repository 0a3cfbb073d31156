import Ctdb.Ltdb.Access
import Ctdb.Marshall.Buffer

/-!
# Persistent-database transactions (`client/ctdb_client.c`)

A client changes a persistent database inside a transaction: it reads with
`ctdb_transaction_fetch` and writes with `ctdb_transaction_store`, and
nothing reaches the database until `ctdb_transaction_commit` sends the
collected writes, as one marshall buffer, in a `CTDB_CONTROL_TRANS3_COMMIT`.

The handle collects two buffers: every read and write (`m_all`) and the
writes alone, each with the header it is to be stored under (`m_write`).
Both the reads and the header of a write come from the node's local copy of
the database — a client has no vnn map, so a missing record reads as -1 —
and not from the writes collected so far. A write of the data the local
copy already holds, under a non-zero rsn, is dropped; any other write is
collected with the local rsn plus one and the client's node as dmaster.

The commit first writes the database's sequence number, kept in the record
`__db_sequence_number__` as 8 bytes, plus one, through the same store, and
then sends `m_write`. `ctdbTransactionCommit` answers what is sent: nothing
when no write was collected, and `none` when the sequence number record is
malformed or its store fails.

A buffer that would reach talloc's limit is not grown: the call returns -1
and leaves the buffer `NULL`. `runTransaction` is a client that stops at
such a call, as the test client does.
-/

namespace Ctdb

/-- `CTDB_DB_SEQNUM_KEY`, with its terminating NUL as the key includes it. -/
def ctdbDbSeqnumKey : TdbData :=
  "__db_sequence_number__".toList.map (fun c => c.toNat.toUInt8) ++ [0]

/-- The parts of `struct ctdb_transaction_handle` the operations use. -/
structure TransactionHandle where
  dbId : UInt32
  /-- `h->ctdb_db->ctdb->pnn`, the client's node. -/
  pnn : UInt32
  mAll : Option MarshallBuffer
  mWrite : Option MarshallBuffer

/-- A fresh handle, as `ctdb_transaction_start` returns it. -/
def TransactionHandle.start (dbId pnn : UInt32) : TransactionHandle := ⟨dbId, pnn, none, none⟩

/-- A client's context: no vnn map. -/
def clientCtx (pnn : UInt32) : StoreCtx := ⟨pnn, true, none⟩

/-- `ctdb_transaction_fetch`: the local data, or empty for a missing
record, recorded in `m_all` with request id 1; `none` when `m_all` cannot
grow, which leaves it `NULL`. -/
def ctdbTransactionFetch (hash : TdbData → UInt32) (h : TransactionHandle) (ltdb : Ltdb)
    (key : TdbData) : TransactionHandle × Option TdbData :=
  let data := match (ctdbLtdbFetch hash (clientCtx h.pnn) ltdb key).2 with
    | some r => r.2
    -- "record doesn't exist yet"
    | none => []
  match ctdbMarshallAdd h.mAll h.dbId.toUInt64 1 key none data with
  -- "Failed to add to marshalling record"
  | none => ({ h with mAll := none }, none)
  | some mAll => ({ h with mAll := some mAll }, some data)

/-- `ctdb_transaction_store`, with whether it returned 0. A failed
`ctdb_marshall_add` leaves the buffer it grew `NULL`. -/
def ctdbTransactionStore (hash : TdbData → UInt32) (h : TransactionHandle) (ltdb : Ltdb)
    (key data : TdbData) : TransactionHandle × Bool :=
  let (header, olddata) : LtdbHeader × TdbData :=
    match (ctdbLtdbFetch hash (clientCtx h.pnn) ltdb key).2 with
    | some r => r
    -- the record doesn't exist: a zero header
    | none => (⟨0, 0, 0⟩, [])
  -- "save writing the same data"
  if data = olddata ∧ header.rsn ≠ 0 then (h, true)
  else
    let header := { header with dmaster := h.pnn, rsn := header.rsn + 1 }
    match ctdbMarshallAdd h.mAll h.dbId.toUInt64 0 key none data with
    | none => ({ h with mAll := none }, false)
    | some mAll =>
        let mWrite := ctdbMarshallAdd h.mWrite h.dbId.toUInt64 0 key (some header) data
        ({ h with mAll := some mAll, mWrite := mWrite }, mWrite.isSome)

/-- `ctdb_fetch_db_seqnum`: 0 for a missing record, `none` for one whose
data is not 8 bytes. -/
def ctdbFetchDbSeqnum (hash : TdbData → UInt32) (pnn : UInt32) (ltdb : Ltdb) : Option UInt64 :=
  match (ctdbLtdbFetch hash (clientCtx pnn) ltdb ctdbDbSeqnumKey).2 with
  | none => some 0
  | some (_, data) =>
      if data.length ≠ 8 then none else some (UInt64.ofNat (Lib.leNat data))

/-- `ctdb_store_db_seqnum`. -/
def ctdbStoreDbSeqnum (hash : TdbData → UInt32) (h : TransactionHandle) (ltdb : Ltdb)
    (seqnum : UInt64) : TransactionHandle × Bool :=
  ctdbTransactionStore hash h ltdb ctdbDbSeqnumKey (Lib.leBytes 8 seqnum.toNat)

/-- The buffer `ctdb_transaction_commit` sends with `CTDB_CONTROL_TRANS3_COMMIT`:
`some none` when there is nothing to commit, `none` when the sequence number
cannot be read or stored. -/
def ctdbTransactionCommit (hash : TdbData → UInt32) (h : TransactionHandle) (ltdb : Ltdb) :
    Option (Option TdbData) :=
  match h.mWrite with
  -- "no changes were made"
  | none => some none
  | some _ => do
      let oldSeqnum ← ctdbFetchDbSeqnum hash h.pnn ltdb
      let (h, stored) := ctdbStoreDbSeqnum hash h ltdb (oldSeqnum + 1)
      -- "failed to store db sequence number"
      if stored then pure (h.mWrite.map ctdbMarshallFinish) else none

/-- A call a client makes inside a transaction. -/
inductive TransactionOp
  | fetch (key : TdbData)
  | store (key data : TdbData)
  deriving DecidableEq, Repr

/-- The handle after the calls, all against the same local database, for a
client that gives up at the first call that fails. -/
def runTransaction (hash : TdbData → UInt32) (ltdb : Ltdb) (h : TransactionHandle) :
    List TransactionOp → Option TransactionHandle
  | [] => some h
  | .fetch key :: ops =>
      match ctdbTransactionFetch hash h ltdb key with
      | (h, some _) => runTransaction hash ltdb h ops
      | (_, none) => none
  | .store key data :: ops =>
      match ctdbTransactionStore hash h ltdb key data with
      | (h, true) => runTransaction hash ltdb h ops
      | (_, false) => none

end Ctdb

import Ctdb.Client.Transaction
import Ctdb.Persistent.UpdateRecord
import Ctdb.Proofs.MarshallBuilders

/-!
# A transaction commits its writes

What `ctdb_transaction_commit` sends, and what `ctdb_persistent_store`
makes of it on a node holding the database the transaction read.

Every store of the transaction reads the local copy, never the writes
collected before it. So a store either is dropped, when the local copy has
the same data under a non-zero rsn, or collects the local header with the
rsn bumped (`storeHeader`); the write buffer is the records of the stores
that write, in order, then the sequence number record (`commit_eq`).

A call whose record would take a buffer to talloc's limit fails, and the
client gives up; `TransactionFits` keeps both buffers below it, through the
commit's own store of the sequence number.

Applying that buffer stores each record as long as its rsn is above the one
of the copy it replaces. For a record whose key no earlier record of the
buffer had, that copy is the local one, and the rsn is one above it. So
when every key is stored at most once, and no rsn is at its 64-bit limit,
every record is stored. Two stores of one key break this in two ways: both
carry the same rsn, and the second is refused — the whole batch with it —
unless its data is the first's; and a second store of the data the local
copy holds is dropped, so the first store's data is what the node keeps
(`transactionCommit_last_write_lost`).
-/

namespace Ctdb

open Lib

/-! ## The stores of a transaction -/

section Client

variable (hash : TdbData → UInt32)

theorem ctdbLtdbFetch_client (pnn : UInt32) (ltdb : Ltdb) (key : TdbData) :
    (ctdbLtdbFetch hash (clientCtx pnn) ltdb key).2 = tdbFetch ltdb key := by
  unfold ctdbLtdbFetch
  cases tdbFetch ltdb key <;> rfl

/-- The local copy as `ctdb_transaction_store` sees it: a zero header and no
data for a missing record. -/
def storeBase (ltdb : Ltdb) (key : TdbData) : LtdbHeader × TdbData :=
  (tdbFetch ltdb key).getD (⟨0, 0, 0⟩, [])

/-- A store collects a write unless the local copy has the same data under
a non-zero rsn. -/
def StoreWrites (ltdb : Ltdb) (key data : TdbData) : Prop :=
  ¬ (data = (storeBase ltdb key).2 ∧ (storeBase ltdb key).1.rsn ≠ 0)

instance (ltdb : Ltdb) (key data : TdbData) : Decidable (StoreWrites ltdb key data) :=
  inferInstanceAs (Decidable (¬ _))

/-- The header a collected write carries. -/
def storeHeader (ltdb : Ltdb) (pnn : UInt32) (key : TdbData) : LtdbHeader :=
  { (storeBase ltdb key).1 with dmaster := pnn, rsn := (storeBase ltdb key).1.rsn + 1 }

/-- The record a store adds to `m_write`, if it writes. -/
def writeRecord (ltdb : Ltdb) (pnn : UInt32) : TransactionOp → Option MarshallRecord
  | .fetch _ => none
  | .store key data =>
      if StoreWrites ltdb key data then some ⟨0, key, some (storeHeader ltdb pnn key), data⟩
      else none

/-- The records of `m_write` after the calls. -/
def writeRecords (ltdb : Ltdb) (pnn : UInt32) (ops : List TransactionOp) : List MarshallRecord :=
  ops.filterMap (writeRecord ltdb pnn)

/-- The record a call adds to `m_all`, if it adds one: a read under request
id 1, a write under 0. -/
def allRecord (ltdb : Ltdb) : TransactionOp → Option MarshallRecord
  | .fetch key => some ⟨1, key, none, (storeBase ltdb key).2⟩
  | .store key data => if StoreWrites ltdb key data then some ⟨0, key, none, data⟩ else none

/-- The records of `m_all` after the calls. -/
def allRecords (ltdb : Ltdb) (ops : List TransactionOp) : List MarshallRecord :=
  ops.filterMap (allRecord ltdb)

/-- A handle with room for the calls `ops`: each of its buffers, with the
records the calls add to it, stays below talloc's limit. -/
def TransactionHandle.Room (ltdb : Ltdb) (h : TransactionHandle) (ops : List TransactionOp) : Prop :=
  marshallBufferHeaderSize + (h.mAll.getD (MarshallBuffer.empty h.dbId)).data.length +
      (marshallBytes (allRecords ltdb ops)).length < maxTallocSize ∧
    marshallBufferHeaderSize + (h.mWrite.getD (MarshallBuffer.empty h.dbId)).data.length +
      (marshallBytes (writeRecords ltdb h.pnn ops)).length < maxTallocSize

instance (ltdb : Ltdb) (h : TransactionHandle) (ops : List TransactionOp) : Decidable (h.Room ltdb ops) :=
  inferInstanceAs (Decidable (_ ∧ _))

/-- `ctdb_marshall_add` on one of a handle's buffers, with room for the record. -/
theorem ctdbMarshallAdd_of_room {m : Option MarshallBuffer} {dbId reqid : UInt32} {key : TdbData}
    {header : Option LtdbHeader} {data : TdbData} {rest : List MarshallRecord}
    (hroom : marshallBufferHeaderSize + (m.getD (MarshallBuffer.empty dbId)).data.length +
      (marshallBytes (⟨reqid, key, header, data⟩ :: rest)).length < maxTallocSize) :
    ctdbMarshallAdd m dbId.toUInt64 reqid key header data =
        some (marshallAppend (m.getD (MarshallBuffer.empty dbId)) reqid key header data) ∧
      marshallBufferHeaderSize + (marshallAppend (m.getD (MarshallBuffer.empty dbId)) reqid key header data).data.length +
        (marshallBytes rest).length < maxTallocSize := by
  have hbytes := MarshallRecord.length_bytes ⟨reqid, key, header, data⟩
  simp only [MarshallRecord.bytes] at hbytes
  simp only [marshallBytes_cons, List.length_append, MarshallRecord.bytes, hbytes] at hroom
  refine ⟨?_, ?_⟩
  · rw [ctdbMarshallAdd_eq, UInt32.toUInt32_toUInt64, if_pos (by omega)]
  · simp only [marshallAppend, List.length_append, hbytes]
    omega

theorem ctdbTransactionFetch_eq (h : TransactionHandle) (ltdb : Ltdb) (key : TdbData) :
    ctdbTransactionFetch hash h ltdb key =
      match ctdbMarshallAdd h.mAll h.dbId.toUInt64 1 key none (storeBase ltdb key).2 with
      | none => ({ h with mAll := none }, none)
      | some mAll => ({ h with mAll := some mAll }, some (storeBase ltdb key).2) := by
  unfold ctdbTransactionFetch storeBase
  rw [ctdbLtdbFetch_client]
  cases tdbFetch ltdb key <;> rfl

theorem ctdbTransactionStore_eq (h : TransactionHandle) (ltdb : Ltdb) (key data : TdbData) :
    ctdbTransactionStore hash h ltdb key data =
      if StoreWrites ltdb key data then
        match ctdbMarshallAdd h.mAll h.dbId.toUInt64 0 key none data with
        | none => ({ h with mAll := none }, false)
        | some mAll =>
            ({ h with mAll := some mAll,
                      mWrite := ctdbMarshallAdd h.mWrite h.dbId.toUInt64 0 key
                        (some (storeHeader ltdb h.pnn key)) data },
              (ctdbMarshallAdd h.mWrite h.dbId.toUInt64 0 key
                (some (storeHeader ltdb h.pnn key)) data).isSome)
      else (h, true) := by
  unfold ctdbTransactionStore
  rw [ctdbLtdbFetch_client]
  by_cases hw : StoreWrites ltdb key data
  · rw [if_pos hw]
    unfold StoreWrites at hw
    unfold storeHeader
    cases hf : tdbFetch ltdb key with
    | none =>
        simp only [storeBase, hf, Option.getD_none] at hw ⊢
        exact if_neg hw
    | some r =>
        simp only [storeBase, hf, Option.getD_some] at hw ⊢
        exact if_neg hw
  · rw [if_neg hw]
    unfold StoreWrites at hw
    cases hf : tdbFetch ltdb key with
    | none =>
        simp only [storeBase, hf, Option.getD_none] at hw ⊢
        rw [if_pos (not_not.mp hw)]
    | some r =>
        simp only [storeBase, hf, Option.getD_some] at hw ⊢
        rw [if_pos (not_not.mp hw)]

/-- What the calls leave in a handle with room for them and for the calls
`rest` after them: the numbers as they were, and the records of the calls
appended to each buffer. -/
theorem runTransaction_eq (ltdb : Ltdb) (rest : List TransactionOp) :
    ∀ (ops : List TransactionOp) (h : TransactionHandle), h.Room ltdb (ops ++ rest) →
      ∃ h', runTransaction hash ltdb h ops = some h' ∧ h'.dbId = h.dbId ∧ h'.pnn = h.pnn ∧
        (h'.mWrite.isSome ↔ h.mWrite.isSome ∨ writeRecords ltdb h.pnn ops ≠ []) ∧
        h'.mAll.getD (MarshallBuffer.empty h.dbId) =
          marshallFill (h.mAll.getD (MarshallBuffer.empty h.dbId)) (allRecords ltdb ops) ∧
        h'.mWrite.getD (MarshallBuffer.empty h.dbId) =
          marshallFill (h.mWrite.getD (MarshallBuffer.empty h.dbId)) (writeRecords ltdb h.pnn ops) ∧
        h'.Room ltdb rest
  | [], h, hroom => ⟨h, rfl, rfl, rfl, by simp [writeRecords], rfl, rfl, hroom⟩
  | .fetch key :: ops, h, ⟨hall, hwrite⟩ => by
      -- the read goes to `m_all` alone
      rw [List.cons_append, allRecords, List.filterMap_cons, allRecord] at hall
      obtain ⟨hadd, hall'⟩ := ctdbMarshallAdd_of_room hall
      obtain ⟨h', hrun, hdb, hpnn, hsome, hfillAll, hfillWrite, hroom'⟩ :=
        runTransaction_eq ltdb rest ops
          { h with mAll := some (marshallAppend (h.mAll.getD (MarshallBuffer.empty h.dbId)) 1 key none
            (storeBase ltdb key).2) } ⟨hall', hwrite⟩
      refine ⟨h', ?_, hdb, hpnn, hsome, hfillAll, hfillWrite, hroom'⟩
      rw [runTransaction, ctdbTransactionFetch_eq, hadd]
      exact hrun
  | .store key data :: ops, h, ⟨hall, hwrite⟩ => by
      by_cases hw : StoreWrites ltdb key data
      · -- the write goes to both buffers
        rw [List.cons_append, allRecords, List.filterMap_cons, allRecord, if_pos hw] at hall
        rw [List.cons_append, writeRecords, List.filterMap_cons, writeRecord, if_pos hw] at hwrite
        obtain ⟨haddAll, hall'⟩ := ctdbMarshallAdd_of_room hall
        obtain ⟨haddWrite, hwrite'⟩ := ctdbMarshallAdd_of_room hwrite
        obtain ⟨h', hrun, hdb, hpnn, hsome, hfillAll, hfillWrite, hroom'⟩ :=
          runTransaction_eq ltdb rest ops
            { h with
              mAll := some (marshallAppend (h.mAll.getD (MarshallBuffer.empty h.dbId)) 0 key none data)
              mWrite := some (marshallAppend (h.mWrite.getD (MarshallBuffer.empty h.dbId)) 0 key
                (some (storeHeader ltdb h.pnn key)) data) } ⟨hall', hwrite'⟩
        refine ⟨h', ?_, hdb, hpnn, ?_, ?_, ?_, hroom'⟩
        · rw [runTransaction, ctdbTransactionStore_eq, if_pos hw, haddAll]
          simp only [haddWrite, Option.isSome_some]
          exact hrun
        · simp only [writeRecords, List.filterMap_cons, writeRecord, if_pos hw] at hsome ⊢
          simp [hsome]
        · simp only [allRecords, List.filterMap_cons, allRecord, if_pos hw] at hfillAll ⊢
          exact hfillAll
        · simp only [writeRecords, List.filterMap_cons, writeRecord, if_pos hw] at hfillWrite ⊢
          exact hfillWrite
      · -- a dropped store changes nothing
        rw [List.cons_append, allRecords, List.filterMap_cons, allRecord, if_neg hw] at hall
        rw [List.cons_append, writeRecords, List.filterMap_cons, writeRecord, if_neg hw] at hwrite
        obtain ⟨h', hrun, hdb, hpnn, hsome, hfillAll, hfillWrite, hroom'⟩ :=
          runTransaction_eq ltdb rest ops h ⟨hall, hwrite⟩
        refine ⟨h', ?_, hdb, hpnn, ?_, ?_, ?_, hroom'⟩
        · rw [runTransaction, ctdbTransactionStore_eq, if_neg hw]
          exact hrun
        · simpa only [writeRecords, List.filterMap_cons, writeRecord, if_neg hw] using hsome
        · simpa only [allRecords, List.filterMap_cons, allRecord, if_neg hw] using hfillAll
        · simpa only [writeRecords, List.filterMap_cons, writeRecord, if_neg hw] using hfillWrite

end Client

/-! ## The commit -/

/-- The sequence number `ctdb_fetch_db_seqnum` reads from a well-formed
database. -/
def localSeqnum (ltdb : Ltdb) : UInt64 :=
  match tdbFetch ltdb ctdbDbSeqnumKey with
  | none => 0
  | some r => UInt64.ofNat (leNat r.2)

/-- The sequence number record is missing or holds 8 bytes. -/
def SeqnumWellFormed (ltdb : Ltdb) : Prop :=
  ∀ r ∈ tdbFetch ltdb ctdbDbSeqnumKey, r.2.length = 8

instance (ltdb : Ltdb) : Decidable (SeqnumWellFormed ltdb) :=
  inferInstanceAs (Decidable (∀ r ∈ tdbFetch ltdb ctdbDbSeqnumKey, r.2.length = 8))

/-- The record the commit adds for the new sequence number. -/
def seqnumRecord (ltdb : Ltdb) (pnn : UInt32) (seqnum : UInt64) : MarshallRecord :=
  ⟨0, ctdbDbSeqnumKey, some (storeHeader ltdb pnn ctdbDbSeqnumKey), leBytes 8 seqnum.toNat⟩

section Commit

variable (hash : TdbData → UInt32)

theorem ctdbFetchDbSeqnum_eq (pnn : UInt32) {ltdb : Ltdb} (hwf : SeqnumWellFormed ltdb) :
    ctdbFetchDbSeqnum hash pnn ltdb = some (localSeqnum ltdb) := by
  unfold ctdbFetchDbSeqnum localSeqnum
  rw [ctdbLtdbFetch_client]
  cases hf : tdbFetch ltdb ctdbDbSeqnumKey with
  | none => rfl
  | some r =>
      obtain ⟨header, data⟩ := r
      have hlen : data.length = 8 := hwf _ hf
      simp [hlen]

/-- The new sequence number differs from the stored one, so its store is
never dropped. -/
theorem seqnum_storeWrites {ltdb : Ltdb} (hwf : SeqnumWellFormed ltdb) :
    StoreWrites ltdb ctdbDbSeqnumKey (leBytes 8 (localSeqnum ltdb + 1).toNat) := by
  unfold StoreWrites storeBase localSeqnum
  cases hf : tdbFetch ltdb ctdbDbSeqnumKey with
  | none => simp
  | some r =>
      obtain ⟨header, data⟩ := r
      simp only [Option.getD_some]
      rintro ⟨heq, -⟩
      -- the new bytes would read back as the old number plus one
      have hlt : leNat data < 2 ^ 64 := by
        have := leNat_lt data
        rw [hwf _ hf] at this
        simpa using this
      have hread := congrArg leNat heq
      rw [leNat_leBytes, UInt64.toNat_add, UInt64.toNat_one, UInt64.toNat_ofNat',
        Nat.mod_eq_of_lt hlt, Nat.mod_mod_of_dvd _ (by decide)] at hread
      omega

/-- The store of the new sequence number the commit makes. -/
def seqnumStore (ltdb : Ltdb) : TransactionOp :=
  .store ctdbDbSeqnumKey (leBytes 8 (localSeqnum ltdb + 1).toNat)

/-- A transaction that collected a write, with room for the sequence number,
sends its writes followed by the incremented sequence number. -/
theorem commit_eq {h : TransactionHandle} {m : MarshallBuffer} (hm : h.mWrite = some m)
    {ltdb : Ltdb} (hwf : SeqnumWellFormed ltdb) (hroom : h.Room ltdb [seqnumStore ltdb]) :
    ctdbTransactionCommit hash h ltdb =
      some (some (ctdbMarshallFinish (marshallAppend m 0 ctdbDbSeqnumKey
        (some (storeHeader ltdb h.pnn ctdbDbSeqnumKey))
        (leBytes 8 (localSeqnum ltdb + 1).toNat)))) := by
  obtain ⟨hall, hwrite⟩ := hroom
  have hw := seqnum_storeWrites hwf
  rw [seqnumStore, allRecords, List.filterMap_cons, allRecord, if_pos hw] at hall
  rw [seqnumStore, writeRecords, List.filterMap_cons, writeRecord, if_pos hw] at hwrite
  obtain ⟨haddAll, -⟩ := ctdbMarshallAdd_of_room hall
  obtain ⟨haddWrite, -⟩ := ctdbMarshallAdd_of_room hwrite
  rw [hm, Option.getD_some] at haddWrite
  rw [ctdbTransactionCommit, hm]
  simp only [ctdbFetchDbSeqnum_eq hash h.pnn hwf, Option.bind_eq_bind, Option.bind_some,
    ctdbStoreDbSeqnum, ctdbTransactionStore_eq, if_pos hw, haddAll, hm, haddWrite, Option.isSome_some,
    if_true, Option.map_some, Option.pure_def]

end Commit

/-! ## Applying the buffer -/

/-- What applying a record with a header stores, under which key. -/
def MarshallRecord.entry (r : MarshallRecord) : TdbData × (LtdbHeader × TdbData) :=
  (r.key, (r.header.getD ⟨0, 0, 0⟩, r.data))

theorem storeBase_tdbStore_ne (ltdb : Ltdb) {key key' : TdbData} (v : LtdbHeader × TdbData)
    (h : key' ≠ key) : storeBase (tdbStore ltdb key' v) key = storeBase ltdb key := by
  rw [storeBase, storeBase, tdbFetch_tdbStore_ne ltdb v h]

section Apply

variable (hash : TdbData → UInt32) (pnn : UInt32) (vnnMap : List UInt32)

/-- On a node, a record whose rsn is above the local one (or above 0, for a
missing record) is stored as sent. -/
theorem persistentStoreRecord_eq (ltdb : Ltdb) {item : MarshallItem} {header : LtdbHeader}
    (hh : item.header = some header)
    (hlt : (storeBase ltdb item.key).1.rsn.toNat < header.rsn.toNat) :
    persistentStoreRecord hash ⟨pnn, true, some vnnMap⟩ 0 ltdb item =
      some (tdbStore ltdb item.key (header, item.data)) := by
  have hflags : ¬ ((0 : UInt32) &&& UPDATE_FLAGS_REPLACE_ONLY ≠ 0 ∧
      tdbFetch ltdb item.key = none) := by
    rintro ⟨hne, -⟩
    exact hne (by decide)
  unfold persistentStoreRecord
  rw [hh, Option.bind_eq_bind, Option.bind_some, if_neg hflags]
  cases hf : tdbFetch ltdb item.key with
  | none =>
      -- the daemon's fetch stores the initial header, rsn 0, first
      simp only [storeBase, hf, Option.getD_none] at hlt
      have hrsn : ¬ ((ltdbInitialHeader (ctdbLmaster hash vnnMap item.key)).rsn ≥ header.rsn ∧
          ([] : TdbData) ≠ item.data) := by
        rintro ⟨hge, -⟩
        rw [ge_iff_le, UInt64.le_iff_toNat_le] at hge
        simp only [ltdbInitialHeader, UInt64.toNat_zero] at hge hlt
        omega
      simp only [ctdbLtdbFetch, hf, ctdbLtdbStore, Bool.true_or, if_true, Option.bind_eq_bind,
        Option.bind_some, if_neg hrsn, tdbStore_tdbStore]
  | some r =>
      obtain ⟨oldheader, olddata⟩ := r
      simp only [storeBase, hf, Option.getD_some] at hlt
      have hrsn : ¬ (oldheader.rsn ≥ header.rsn ∧ olddata ≠ item.data) := by
        rintro ⟨hge, -⟩
        rw [ge_iff_le, UInt64.le_iff_toNat_le] at hge
        omega
      simp only [ctdbLtdbFetch_of_found hash _ hf, ctdbLtdbStore, if_true, Option.bind_eq_bind,
        Option.bind_some, if_neg hrsn]

/-- Records of distinct keys, each above the local rsn, are all stored. -/
theorem foldlM_persistentStoreRecord :
    ∀ (recs : List MarshallRecord) (ltdb : Ltdb), (recs.map MarshallRecord.key).Nodup →
      (∀ r ∈ recs, ∃ header, r.header = some header ∧
        (storeBase ltdb r.key).1.rsn.toNat < header.rsn.toNat) →
      recs.foldlM (fun a x => persistentStoreRecord hash ⟨pnn, true, some vnnMap⟩ 0 a x.item)
          ltdb =
        some ((recs.map MarshallRecord.entry).foldl (fun t e => tdbStore t e.1 e.2) ltdb)
  | [], _, _, _ => rfl
  | r :: recs, ltdb, hnd, hrsn => by
      obtain ⟨header, hh, hlt⟩ := hrsn r List.mem_cons_self
      rw [List.map_cons, List.nodup_cons] at hnd
      have hentry : r.entry = (r.key, (header, r.data)) := by
        rw [MarshallRecord.entry, hh, Option.getD_some]
      -- the later records have other keys, whose local copies the store leaves alone
      have hrest : ∀ x ∈ recs, ∃ h, x.header = some h ∧
          (storeBase (tdbStore ltdb r.key (header, r.data)) x.key).1.rsn.toNat < h.rsn.toNat := by
        intro x hx
        obtain ⟨hx', hxh, hxlt⟩ := hrsn x (List.mem_cons_of_mem r hx)
        have hne : r.key ≠ x.key := fun h => hnd.1 (h ▸ List.mem_map_of_mem hx)
        exact ⟨hx', hxh, by rwa [storeBase_tdbStore_ne ltdb _ hne]⟩
      rw [List.foldlM_cons, persistentStoreRecord_eq hash pnn vnnMap ltdb hh hlt,
        Option.bind_eq_bind, Option.bind_some, List.map_cons, List.foldl_cons, hentry]
      exact foldlM_persistentStoreRecord recs _ hnd.2 hrest

end Apply

/-! ## A transaction as a whole -/

/-- The keys the transaction stores to, in order, with repeats. -/
def storedKeys (ops : List TransactionOp) : List TdbData :=
  ops.filterMap fun
    | .fetch _ => none
    | .store key _ => some key

/-- The records the commit sends: the writes, then the sequence number. -/
def commitRecords (ltdb : Ltdb) (pnn : UInt32) (ops : List TransactionOp) : List MarshallRecord :=
  writeRecords ltdb pnn ops ++ [seqnumRecord ltdb pnn (localSeqnum ltdb + 1)]

theorem mem_storedKeys {ops : List TransactionOp} {key data : TdbData}
    (h : TransactionOp.store key data ∈ ops) : key ∈ storedKeys ops :=
  List.mem_filterMap.mpr ⟨_, h, rfl⟩

theorem mem_writeRecords {ltdb : Ltdb} {pnn : UInt32} {ops : List TransactionOp}
    {r : MarshallRecord} :
    r ∈ writeRecords ltdb pnn ops ↔ ∃ key data, TransactionOp.store key data ∈ ops ∧
      StoreWrites ltdb key data ∧ r = ⟨0, key, some (storeHeader ltdb pnn key), data⟩ := by
  constructor
  · intro hr
    obtain ⟨op, hop, hw⟩ := List.mem_filterMap.mp hr
    cases op with
    | fetch key => cases hw
    | store key data =>
        simp only [writeRecord] at hw
        split at hw
        · exact ⟨key, data, hop, ‹_›, (Option.some.inj hw).symm⟩
        · cases hw
  · rintro ⟨key, data, hop, hw, rfl⟩
    exact List.mem_filterMap.mpr ⟨_, hop, by rw [writeRecord, if_pos hw]⟩

@[simp] theorem storedKeys_cons_fetch (key : TdbData) (ops : List TransactionOp) :
    storedKeys (.fetch key :: ops) = storedKeys ops := rfl

@[simp] theorem storedKeys_cons_store (key data : TdbData) (ops : List TransactionOp) :
    storedKeys (.store key data :: ops) = key :: storedKeys ops := rfl

@[simp] theorem writeRecords_cons_fetch (ltdb : Ltdb) (pnn : UInt32) (key : TdbData)
    (ops : List TransactionOp) :
    writeRecords ltdb pnn (.fetch key :: ops) = writeRecords ltdb pnn ops := rfl

theorem writeRecords_cons_store (ltdb : Ltdb) (pnn : UInt32) (key data : TdbData)
    (ops : List TransactionOp) :
    writeRecords ltdb pnn (.store key data :: ops) =
      if StoreWrites ltdb key data then
        ⟨0, key, some (storeHeader ltdb pnn key), data⟩ :: writeRecords ltdb pnn ops
      else writeRecords ltdb pnn ops := by
  by_cases hw : StoreWrites ltdb key data
  · simp only [writeRecords, List.filterMap_cons, writeRecord, if_pos hw]
  · simp only [writeRecords, List.filterMap_cons, writeRecord, if_neg hw]

theorem writeRecords_keys_sublist (ltdb : Ltdb) (pnn : UInt32) :
    ∀ ops : List TransactionOp, ((writeRecords ltdb pnn ops).map MarshallRecord.key).Sublist
      (storedKeys ops)
  | [] => List.Sublist.slnil
  | .fetch key :: ops => by
      rw [writeRecords_cons_fetch, storedKeys_cons_fetch]
      exact writeRecords_keys_sublist ltdb pnn ops
  | .store key data :: ops => by
      have ih := writeRecords_keys_sublist ltdb pnn ops
      rw [writeRecords_cons_store, storedKeys_cons_store]
      split
      · exact ih.cons_cons key
      · exact ih.cons key

/-- Without repeated keys, a key has one store. -/
theorem store_unique {ops : List TransactionOp} (hkeys : (storedKeys ops).Nodup)
    {key data data' : TdbData} (h : TransactionOp.store key data ∈ ops)
    (h' : TransactionOp.store key data' ∈ ops) : data = data' := by
  induction ops with
  | nil => cases h
  | cons op ops ih =>
      cases op with
      | fetch k =>
          rw [storedKeys_cons_fetch] at hkeys
          exact ih hkeys (List.mem_of_ne_of_mem (by simp) h) (List.mem_of_ne_of_mem (by simp) h')
      | store k d =>
          rw [storedKeys_cons_store, List.nodup_cons] at hkeys
          rcases List.mem_cons.mp h with he | hm
          · rcases List.mem_cons.mp h' with he' | hm'
            · cases he; cases he'; rfl
            · cases he
              exact absurd (mem_storedKeys hm') hkeys.1
          · rcases List.mem_cons.mp h' with he' | hm'
            · cases he'
              exact absurd (mem_storedKeys hm) hkeys.1
            · exact ih hkeys.2 hm hm'

theorem storeHeader_rsn {ltdb : Ltdb} (pnn : UInt32) {key : TdbData}
    (h : (storeBase ltdb key).1.rsn.toNat + 1 < 2 ^ 64) :
    (storeHeader ltdb pnn key).rsn.toNat = (storeBase ltdb key).1.rsn.toNat + 1 := by
  rw [storeHeader, UInt64.toNat_add, UInt64.toNat_one, Nat.mod_eq_of_lt h]

/-- The local rsn bound, read off the record as fetched. -/
theorem storeBase_rsn_lt {ltdb : Ltdb} {key : TdbData}
    (h : ∀ r ∈ tdbFetch ltdb key, r.1.rsn.toNat + 1 < 2 ^ 64) :
    (storeBase ltdb key).1.rsn.toNat + 1 < 2 ^ 64 := by
  unfold storeBase
  cases hf : tdbFetch ltdb key with
  | none => simp
  | some r => exact h r hf

theorem entry_keys (recs : List MarshallRecord) :
    (recs.map MarshallRecord.entry).map Prod.fst = recs.map MarshallRecord.key := by
  simp [List.map_map, Function.comp_def, MarshallRecord.entry]

theorem fetch_applied_of_mem {recs : List MarshallRecord} (hnd : (recs.map MarshallRecord.key).Nodup)
    {r : MarshallRecord} (hr : r ∈ recs) (ltdb : Ltdb) :
    tdbFetch ((recs.map MarshallRecord.entry).foldl (fun t e => tdbStore t e.1 e.2) ltdb) r.key =
      some r.entry.2 := by
  have hnd' : ((recs.map MarshallRecord.entry).map Prod.fst).Nodup := by rwa [entry_keys]
  have hv : valuesAt (recs.map MarshallRecord.entry) r.key = [r.entry.2] :=
    valuesAt_eq_singleton hnd' (List.mem_map_of_mem hr)
  rw [tdbFetch_foldl_tdbStore, hv]
  rfl

theorem fetch_applied_of_not_mem {recs : List MarshallRecord} {key : TdbData}
    (h : key ∉ recs.map MarshallRecord.key) (ltdb : Ltdb) :
    tdbFetch ((recs.map MarshallRecord.entry).foldl (fun t e => tdbStore t e.1 e.2) ltdb) key =
      tdbFetch ltdb key := by
  rw [← entry_keys] at h
  rw [tdbFetch_foldl_tdbStore, valuesAt_eq_nil h]
  rfl

/-- A record the commit sends carries a header with the local rsn plus one. -/
theorem storeRecord_ready {ltdb : Ltdb} (pnn : UInt32) {key : TdbData}
    (hrsn : ∀ r ∈ tdbFetch ltdb key, r.1.rsn.toNat + 1 < 2 ^ 64) :
    ∃ header, some (storeHeader ltdb pnn key) = some header ∧
      (storeBase ltdb key).1.rsn.toNat < header.rsn.toNat := by
  refine ⟨_, rfl, ?_⟩
  rw [storeHeader_rsn pnn (storeBase_rsn_lt hrsn)]
  exact Nat.lt_succ_self _

theorem commitRecords_ready (ltdb : Ltdb) (pnn : UInt32) (ops : List TransactionOp)
    (hrsn : ∀ key ∈ ctdbDbSeqnumKey :: storedKeys ops, ∀ r ∈ tdbFetch ltdb key,
      r.1.rsn.toNat + 1 < 2 ^ 64) :
    ∀ r ∈ commitRecords ltdb pnn ops, ∃ header, r.header = some header ∧
      (storeBase ltdb r.key).1.rsn.toNat < header.rsn.toNat := by
  intro r hr
  rcases List.mem_append.mp hr with hr | hr
  · obtain ⟨key, data, hop, -, rfl⟩ := mem_writeRecords.mp hr
    exact storeRecord_ready pnn (hrsn key (List.mem_cons_of_mem _ (mem_storedKeys hop)))
  · rw [List.mem_singleton] at hr
    subst hr
    exact storeRecord_ready pnn (hrsn _ List.mem_cons_self)

theorem commitRecords_nodup (ltdb : Ltdb) (pnn : UInt32) {ops : List TransactionOp}
    (hkeys : (storedKeys ops).Nodup) (hseq : ctdbDbSeqnumKey ∉ storedKeys ops) :
    ((commitRecords ltdb pnn ops).map MarshallRecord.key).Nodup := by
  have hsub := writeRecords_keys_sublist ltdb pnn ops
  rw [commitRecords, List.map_append, List.nodup_append_comm]
  exact List.nodup_cons.mpr ⟨fun h => hseq (hsub.subset h), hsub.nodup hkeys⟩

/-- A database holding the number `n` in its sequence number record reads it
back. -/
theorem seqnum_of_fetch {t : Ltdb} {h : LtdbHeader} {n : UInt64}
    (hf : tdbFetch t ctdbDbSeqnumKey = some (h, leBytes 8 n.toNat)) :
    SeqnumWellFormed t ∧ localSeqnum t = n := by
  have hlt : n.toNat < 256 ^ 8 := Nat.lt_of_lt_of_eq n.toNat_lt (by decide)
  refine ⟨fun r hr => ?_, ?_⟩
  · rw [hf, Option.mem_some_iff] at hr
    rw [← hr]
    exact length_leBytes 8 _
  · simp only [localSeqnum, hf]
    rw [leNat_leBytes, Nat.mod_eq_of_lt hlt, UInt64.ofNat_toNat]

/-- The calls and the commit's store of the sequence number keep the
transaction's buffers below talloc's limit. -/
def TransactionFits (ltdb : Ltdb) (dbId pnn : UInt32) (ops : List TransactionOp) : Prop :=
  (TransactionHandle.start dbId pnn).Room ltdb (ops ++ [seqnumStore ltdb])

instance (ltdb : Ltdb) (dbId pnn : UInt32) (ops : List TransactionOp) :
    Decidable (TransactionFits ltdb dbId pnn ops) :=
  inferInstanceAs (Decidable (TransactionHandle.Room _ _ _))

theorem writeRecords_seqnumStore {ltdb : Ltdb} (pnn : UInt32) (ops : List TransactionOp)
    (hwf : SeqnumWellFormed ltdb) :
    writeRecords ltdb pnn (ops ++ [seqnumStore ltdb]) = commitRecords ltdb pnn ops := by
  rw [writeRecords, List.filterMap_append, commitRecords, ← writeRecords]
  simp only [seqnumStore, List.filterMap_cons, List.filterMap_nil, writeRecord, if_pos (seqnum_storeWrites hwf)]
  rfl

/-- The records of a fitting transaction fit the marshall format. -/
theorem commitRecords_fit {ltdb : Ltdb} {dbId pnn : UInt32} {ops : List TransactionOp}
    (hwf : SeqnumWellFormed ltdb) (hfit : TransactionFits ltdb dbId pnn ops) :
    (commitRecords ltdb pnn ops).length < 2 ^ 32 ∧ ∀ r ∈ commitRecords ltdb pnn ops, r.Fits := by
  have hwrite := hfit.2
  have hmax := maxTallocSize_lt
  simp only [TransactionHandle.start, Option.getD_none, MarshallBuffer.empty, List.length_nil,
    writeRecords_seqnumStore pnn ops hwf] at hwrite
  exact fits_of_length_lt (by omega)

section Whole

variable (hash : TdbData → UInt32)

theorem transactionCommit_eq (ltdb : Ltdb) (dbId pnn : UInt32) (ops : List TransactionOp)
    (hw : writeRecords ltdb pnn ops ≠ []) (hwf : SeqnumWellFormed ltdb)
    (hfit : TransactionFits ltdb dbId pnn ops) :
    ∃ h, runTransaction hash ltdb (.start dbId pnn) ops = some h ∧
      ctdbTransactionCommit hash h ltdb = some (some (ctdbMarshallFinish
        (marshallFill (MarshallBuffer.empty dbId) (commitRecords ltdb pnn ops)))) := by
  obtain ⟨h, hrun, -, hpnn, hsome, -, hfill, hroom⟩ :=
    runTransaction_eq hash ltdb [seqnumStore ltdb] ops (.start dbId pnn) hfit
  obtain ⟨m, hm⟩ := Option.isSome_iff_exists.mp (hsome.mpr (Or.inr hw))
  have hm' : m = marshallFill (MarshallBuffer.empty dbId) (writeRecords ltdb pnn ops) := by
    rw [hm, Option.getD_some] at hfill
    exact hfill
  refine ⟨h, hrun, ?_⟩
  rw [commit_eq hash hm hwf hroom, hpnn, hm', commitRecords, marshallFill_append_one]
  rfl

/-- A node applies a buffer of distinct-key records, each above the local rsn,
by storing every one of them. -/
theorem ctdbPersistentStore_finish (pnn : UInt32) (vnnMap : List UInt32) (ltdb : Ltdb)
    (dbId : UInt32) {recs : List MarshallRecord} (hnd : (recs.map MarshallRecord.key).Nodup)
    (hfit : ∀ r ∈ recs, r.Fits)
    (hrsn : ∀ r ∈ recs, ∃ header, r.header = some header ∧
      (storeBase ltdb r.key).1.rsn.toNat < header.rsn.toNat)
    (hcount : recs.length < 2 ^ 32) :
    ctdbPersistentStore hash ⟨pnn, true, some vnnMap⟩ 0 ltdb
        (ctdbMarshallFinish (marshallFill (MarshallBuffer.empty dbId) recs)) =
      some ((recs.map MarshallRecord.entry).foldl (fun t e => tdbStore t e.1 e.2) ltdb) := by
  have hrecs : ∀ r ∈ recs, r.Fits ∧ r.header.isSome = true := by
    intro r hr
    obtain ⟨header, hh, -⟩ := hrsn r hr
    exact ⟨hfit r hr, by rw [hh]; rfl⟩
  obtain ⟨hread, hloop⟩ := marshallLoopFold_finish
    (persistentStoreRecord hash ⟨pnn, true, some vnnMap⟩ 0) true dbId recs ltdb hcount hrecs
  rw [ctdbPersistentStore, hread, Option.bind_eq_bind, Option.bind_some, hloop]
  exact foldlM_persistentStoreRecord hash pnn vnnMap recs ltdb hnd hrsn

/-- A key the commit sends no record for keeps its local copy. -/
theorem fetch_commit_of_not_mem {ltdb : Ltdb} {pnn : UInt32} {ops : List TransactionOp}
    {key : TdbData} (hseq : key ≠ ctdbDbSeqnumKey)
    (hw : ∀ data, TransactionOp.store key data ∈ ops → ¬ StoreWrites ltdb key data) (t : Ltdb) :
    tdbFetch (((commitRecords ltdb pnn ops).map MarshallRecord.entry).foldl
      (fun t e => tdbStore t e.1 e.2) t) key = tdbFetch t key := by
  apply fetch_applied_of_not_mem
  rw [commitRecords, List.map_append, List.mem_append]
  rintro (hk | hk)
  · obtain ⟨r, hr, hkey⟩ := List.mem_map.mp hk
    obtain ⟨key', data, hop, hw', rfl⟩ := mem_writeRecords.mp hr
    subst hkey
    exact hw data hop hw'
  · exact hseq (List.mem_singleton.mp hk)

/-- The database a node holds after applying the commit's records. -/
def appliedCommit (ltdb : Ltdb) (pnn : UInt32) (ops : List TransactionOp) : Ltdb :=
  ((commitRecords ltdb pnn ops).map MarshallRecord.entry).foldl (fun t e => tdbStore t e.1 e.2) ltdb

/-- Committing a fitting transaction that wrote something, and applying its
buffer on a node holding the database it read, gives `appliedCommit`. -/
theorem commit_applied (ltdb : Ltdb) (dbId pnn pnn' : UInt32) (vnnMap : List UInt32)
    (ops : List TransactionOp) (hW : writeRecords ltdb pnn ops ≠ []) (hwf : SeqnumWellFormed ltdb)
    (hnd : ((commitRecords ltdb pnn ops).map MarshallRecord.key).Nodup)
    (hrsn : ∀ r ∈ commitRecords ltdb pnn ops, ∃ header, r.header = some header ∧
      (storeBase ltdb r.key).1.rsn.toNat < header.rsn.toNat)
    (hfit : TransactionFits ltdb dbId pnn ops) :
    ∃ h buf, runTransaction hash ltdb (.start dbId pnn) ops = some h ∧
      ctdbTransactionCommit hash h ltdb = some (some buf) ∧
      ctdbPersistentStore hash ⟨pnn', true, some vnnMap⟩ 0 ltdb buf =
        some (appliedCommit ltdb pnn ops) := by
  obtain ⟨h, hrun, hcommit⟩ := transactionCommit_eq hash ltdb dbId pnn ops hW hwf hfit
  obtain ⟨hcount, hfits⟩ := commitRecords_fit hwf hfit
  exact ⟨h, _, hrun, hcommit,
    ctdbPersistentStore_finish hash pnn' vnnMap ltdb dbId hnd hfits hrsn hcount⟩

theorem seqnum_appliedCommit {ltdb : Ltdb} {pnn : UInt32} {ops : List TransactionOp}
    (hnd : ((commitRecords ltdb pnn ops).map MarshallRecord.key).Nodup) :
    SeqnumWellFormed (appliedCommit ltdb pnn ops) ∧
      localSeqnum (appliedCommit ltdb pnn ops) = localSeqnum ltdb + 1 := by
  have hr : seqnumRecord ltdb pnn (localSeqnum ltdb + 1) ∈ commitRecords ltdb pnn ops :=
    List.mem_append_right _ (List.mem_singleton_self _)
  exact seqnum_of_fetch (fetch_applied_of_mem hnd hr ltdb)

end Whole

/-! ## What a commit leaves on a node -/

section Commit

variable (hash : TdbData → UInt32)

theorem transactionCommit_stores_writes (ltdb : Ltdb) (dbId pnn pnn' : UInt32)
    (vnnMap : List UInt32) (ops : List TransactionOp)
    (hkeys : (storedKeys ops).Nodup) (hseq : ctdbDbSeqnumKey ∉ storedKeys ops)
    (hwf : SeqnumWellFormed ltdb)
    (hrsn : ∀ key ∈ ctdbDbSeqnumKey :: storedKeys ops, ∀ r ∈ tdbFetch ltdb key,
      r.1.rsn.toNat + 1 < 2 ^ 64)
    (hfit : TransactionFits ltdb dbId pnn ops)
    (hwrite : ∃ key data, TransactionOp.store key data ∈ ops ∧ StoreWrites ltdb key data) :
    ∃ h buf ltdb', runTransaction hash ltdb (.start dbId pnn) ops = some h ∧
      ctdbTransactionCommit hash h ltdb = some (some buf) ∧
      ctdbPersistentStore hash ⟨pnn', true, some vnnMap⟩ 0 ltdb buf = some ltdb' ∧
      (∀ key data, TransactionOp.store key data ∈ ops →
        (tdbFetch ltdb' key).map Prod.snd = some data) ∧
      (∀ key, key ∉ ctdbDbSeqnumKey :: storedKeys ops → tdbFetch ltdb' key = tdbFetch ltdb key) ∧
      ctdbFetchDbSeqnum hash pnn ltdb' = (ctdbFetchDbSeqnum hash pnn ltdb).map (· + 1) := by
  obtain ⟨k0, d0, hk0, hw0⟩ := hwrite
  have hW : writeRecords ltdb pnn ops ≠ [] :=
    List.ne_nil_of_mem (mem_writeRecords.mpr ⟨k0, d0, hk0, hw0, rfl⟩)
  have hnd := commitRecords_nodup ltdb pnn hkeys hseq
  obtain ⟨h, buf, hrun, hcommit, happly⟩ := commit_applied hash ltdb dbId pnn pnn' vnnMap ops hW hwf hnd
    (commitRecords_ready ltdb pnn ops hrsn) hfit
  refine ⟨h, buf, _, hrun, hcommit, happly, ?_, ?_, ?_⟩
  · intro key data hop
    have hne : key ≠ ctdbDbSeqnumKey := fun h => hseq (h ▸ mem_storedKeys hop)
    by_cases hw : StoreWrites ltdb key data
    · have hr : (⟨0, key, some (storeHeader ltdb pnn key), data⟩ : MarshallRecord) ∈
          commitRecords ltdb pnn ops :=
        List.mem_append_left _ (mem_writeRecords.mpr ⟨key, data, hop, hw, rfl⟩)
      rw [appliedCommit, fetch_applied_of_mem hnd hr]
      rfl
    · -- a dropped store: the key's only store, and the local copy already holds its data
      have hdrop : ∀ data', TransactionOp.store key data' ∈ ops → ¬ StoreWrites ltdb key data' :=
        fun data' hop' => store_unique hkeys hop hop' ▸ hw
      obtain ⟨hdata, hrsn0⟩ := not_not.mp hw
      rw [appliedCommit, fetch_commit_of_not_mem hne hdrop]
      unfold storeBase at hdata hrsn0
      cases hf : tdbFetch ltdb key with
      | none =>
          rw [hf] at hrsn0
          exact absurd rfl hrsn0
      | some r =>
          rw [hf] at hdata
          exact congrArg some hdata.symm
  · intro key hkey
    have hne : key ≠ ctdbDbSeqnumKey := fun h => hkey (h ▸ List.mem_cons_self)
    have hnone : ∀ data, TransactionOp.store key data ∈ ops → ¬ StoreWrites ltdb key data :=
      fun data hop _ => hkey (List.mem_cons_of_mem _ (mem_storedKeys hop))
    exact fetch_commit_of_not_mem hne hnone ltdb
  · obtain ⟨hwf', hseqnum⟩ := seqnum_appliedCommit hnd
    rw [ctdbFetchDbSeqnum_eq hash pnn hwf', ctdbFetchDbSeqnum_eq hash pnn hwf, hseqnum]
    rfl

/-- The database of the sample transactions: key `[5]` holds `[1]` under rsn 1. -/
def sampleLtdb : Ltdb := tdbStore tdbWipeAll [5] (⟨1, 0, 0⟩, [1])

-- a transaction meeting every hypothesis: a read, a new write of `[5]` and a write of a new key
example :
    ∃ h buf ltdb', runTransaction (fun _ => 0) sampleLtdb (.start 6 0)
        [.fetch [5], .store [5] [2], .store [3] [4]] = some h ∧
      ctdbTransactionCommit (fun _ => 0) h sampleLtdb = some (some buf) ∧
      ctdbPersistentStore (fun _ => 0) ⟨1, true, some [0, 1]⟩ 0 sampleLtdb buf = some ltdb' ∧
      (tdbFetch ltdb' [5]).map Prod.snd = some [2] ∧ (tdbFetch ltdb' [3]).map Prod.snd = some [4] := by
  obtain ⟨h, buf, ltdb', hrun, hcommit, happly, hstored, -, -⟩ :=
    transactionCommit_stores_writes (fun _ => 0) sampleLtdb 6 0 1 [0, 1]
      [.fetch [5], .store [5] [2], .store [3] [4]] (by decide) (by decide) (by decide) (by decide)
      (by decide +kernel) ⟨[5], [2], by decide, by decide⟩
  exact ⟨h, buf, ltdb', hrun, hcommit, happly, hstored [5] [2] (by decide), hstored [3] [4] (by decide)⟩

/-- Writing `[2]` and then `[1]` to a key holding `[1]`: the second store is
dropped, as its data is the local copy's, and the node ends with `[2]`. -/
theorem transactionCommit_last_write_lost :
    ∃ h buf ltdb', runTransaction (fun _ => 0) sampleLtdb (.start 6 0)
        [.store [5] [2], .store [5] [1]] = some h ∧
      ctdbTransactionCommit (fun _ => 0) h sampleLtdb = some (some buf) ∧
      ctdbPersistentStore (fun _ => 0) ⟨1, true, some [0, 1]⟩ 0 sampleLtdb buf = some ltdb' ∧
      (tdbFetch ltdb' [5]).map Prod.snd = some [2] := by
  have hw : StoreWrites sampleLtdb [5] [2] := by decide
  have hnd : ((commitRecords sampleLtdb 0 [.store [5] [2], .store [5] [1]]).map
      MarshallRecord.key).Nodup := by decide
  have hready := commitRecords_ready sampleLtdb 0 [.store [5] [2], .store [5] [1]] (by decide)
  obtain ⟨h, buf, hrun, hcommit, happly⟩ := commit_applied (fun _ => 0) sampleLtdb 6 0 1 [0, 1]
    [.store [5] [2], .store [5] [1]]
    (List.ne_nil_of_mem (mem_writeRecords.mpr ⟨[5], [2], by simp, hw, rfl⟩)) (by decide) hnd
    hready (by decide +kernel)
  have hr : (⟨0, [5], some (storeHeader sampleLtdb 0 [5]), [2]⟩ : MarshallRecord) ∈
      commitRecords sampleLtdb 0 [.store [5] [2], .store [5] [1]] :=
    List.mem_append_left _ (mem_writeRecords.mpr ⟨[5], [2], by simp, hw, rfl⟩)
  refine ⟨h, buf, _, hrun, hcommit, happly, ?_⟩
  rw [appliedCommit, fetch_applied_of_mem hnd hr]
  rfl

end Commit

end Ctdb

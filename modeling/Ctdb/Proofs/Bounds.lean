import Ctdb.Proofs.Vacuum
import Ctdb.Recovery.Push

/-!
# What the receiving controls read of a short buffer

`ctdb_control_push_db`, `ctdb_control_receive_records`,
`ctdb_control_try_delete_records` and `pull_one_remote_database` each test
that the buffer holds the 8 bytes of a marshall header, look the database
up, and then walk `count` records from offset 8 on, reading each record's
four fields and its key and data where the fields say, with no test that
any of it lies inside the buffer.

A buffer that is only a header but announces one record passes every test
the four make before their walk, and the first record's fields lie past
its end (`marshallRecordAt_headerOnlyBuffer`): the C code reads them from
whatever follows the buffer in memory. The model's reads answer `none`
there, so each of the four answers `none` at that read.
-/

namespace Ctdb

open Lib

/-- A buffer that is only a marshall header: database `dbId`, `count`
records announced. -/
def headerOnlyBuffer (dbId count : UInt32) : TdbData :=
  leBytes 4 dbId.toNat ++ leBytes 4 count.toNat

section HeaderOnly

variable (dbId count : UInt32)

theorem length_headerOnlyBuffer :
    (headerOnlyBuffer dbId count).length = marshallBufferHeaderSize := by
  simp [headerOnlyBuffer, marshallBufferHeaderSize]

theorem readLE_headerOnlyBuffer_dbId :
    readLE (headerOnlyBuffer dbId count) 0 4 = some dbId.toNat := by
  rw [headerOnlyBuffer, readLE_leBytes_append,
    Nat.mod_eq_of_lt (show dbId.toNat < 256 ^ 4 from dbId.toNat_lt)]

theorem readLE_headerOnlyBuffer_count :
    readLE (headerOnlyBuffer dbId count) 4 4 = some count.toNat := by
  have h := readLE_append_shift (leBytes 4 dbId.toNat) (leBytes 4 count.toNat) 0 4
  rw [length_leBytes, Nat.add_zero] at h
  rw [headerOnlyBuffer, h, ← List.append_nil (leBytes 4 count.toNat), readLE_leBytes_append,
    Nat.mod_eq_of_lt (show count.toNat < 256 ^ 4 from count.toNat_lt)]

/-- No field of a first record lies inside a buffer that is only a header. -/
theorem marshallRecordAt_headerOnlyBuffer (w : Bool) :
    marshallRecordAt (headerOnlyBuffer dbId count) marshallBufferHeaderSize w = none := by
  have h : readLE (headerOnlyBuffer dbId count) (marshallBufferHeaderSize + 4) 4 = none := by
    rw [readLE, slice_eq_none (by rw [length_headerOnlyBuffer]; decide), Option.map_none]
  simp [marshallRecordAt, h]

end HeaderOnly

/-- A walk whose first record cannot be read ends there. -/
theorem marshallLoopFold_first_none {α : Type} (body : α → MarshallItem → Option α) {m : TdbData}
    {w : Bool} (h : marshallRecordAt m marshallBufferHeaderSize w = none) (n : Nat) (a : α) :
    marshallLoopFold body m w (n + 1) none a = none := by
  simp [marshallLoopFold, ctdbMarshallLoopNext, nextRecordOffset, h]

theorem marshallRecordLoop_first_none {α : Type} (body : α → TdbData → TdbData → Option α)
    {m : TdbData} {off : Nat} (h : marshallRecordAt m off false = none) (n : Nat) (a : α) :
    marshallRecordLoop body m (n + 1) off a = none := by
  simp [marshallRecordLoop, h]

/-- Each of the four passes its tests on a header announcing one record
and reaches the first record's fields, which lie past the buffer's end. -/
theorem receivingControls_read_past_end (hash : TdbData → UInt32) (n : VacuumNode)
    (c : ClusterNode) (hfrozen : c.frozen = true) (recoveryMaster : UInt32) (recdb : Tdb TdbData) :
    ¬ (headerOnlyBuffer n.dbId 1).length < marshallBufferHeaderSize ∧
      readLE (headerOnlyBuffer n.dbId 1) 0 4 = some n.dbId.toNat ∧
      readLE (headerOnlyBuffer n.dbId 1) 4 4 = some 1 ∧
      marshallRecordAt (headerOnlyBuffer n.dbId 1) marshallBufferHeaderSize false = none ∧
      ctdbControlPushDb hash (headerOnlyBuffer n.dbId 1) c = none ∧
      ctdbControlReceiveRecords hash (headerOnlyBuffer n.dbId 1) n = none ∧
      ctdbControlTryDeleteRecords hash (headerOnlyBuffer n.dbId 1) n = none ∧
      pullOneRemoteDatabase recoveryMaster recdb (some (headerOnlyBuffer n.dbId 1)) = none := by
  have hlen : ¬ (headerOnlyBuffer n.dbId 1).length < marshallBufferHeaderSize := by
    rw [length_headerOnlyBuffer]
    exact Nat.lt_irrefl _
  have hdb := readLE_headerOnlyBuffer_dbId n.dbId 1
  have hcount := readLE_headerOnlyBuffer_count n.dbId 1
  have hrec := marshallRecordAt_headerOnlyBuffer n.dbId 1 false
  -- the vacuum controls share their body; the walk fails at the first record
  have hvac : ∀ op, vacuumRecordsControl op (headerOnlyBuffer n.dbId 1) n = none := by
    intro op
    simp [vacuumRecordsControl, hlen, hdb, hcount, marshallLoopFold_first_none _ hrec 0]
  refine ⟨hlen, hdb, hcount, hrec, ?_, hvac _, hvac _, ?_⟩
  · simp [ctdbControlPushDb, hlen, hfrozen, hcount, marshallRecordLoop_first_none _ hrec 0]
  · simp [pullOneRemoteDatabase, hlen, hcount, marshallRecordLoop_first_none _ hrec 0]

theorem receivingControls_read_past_end_frozen :
    (⟨1, 0, true, none, some [0, 1], ∅⟩ : ClusterNode).frozen = true ∧
      ¬ (headerOnlyBuffer busyRemote.dbId 1).length < marshallBufferHeaderSize ∧
      readLE (headerOnlyBuffer busyRemote.dbId 1) 0 4 = some busyRemote.dbId.toNat ∧
      readLE (headerOnlyBuffer busyRemote.dbId 1) 4 4 = some 1 ∧
      marshallRecordAt (headerOnlyBuffer busyRemote.dbId 1) marshallBufferHeaderSize false = none ∧
      ctdbControlPushDb vacuumHash (headerOnlyBuffer busyRemote.dbId 1)
          ⟨1, 0, true, none, some [0, 1], ∅⟩ = none ∧
      ctdbControlReceiveRecords vacuumHash (headerOnlyBuffer busyRemote.dbId 1) busyRemote = none ∧
      ctdbControlTryDeleteRecords vacuumHash (headerOnlyBuffer busyRemote.dbId 1) busyRemote = none ∧
      pullOneRemoteDatabase 0 ∅ (some (headerOnlyBuffer busyRemote.dbId 1)) = none :=
  ⟨rfl, receivingControls_read_past_end vacuumHash busyRemote _ rfl 0 ∅⟩

end Ctdb

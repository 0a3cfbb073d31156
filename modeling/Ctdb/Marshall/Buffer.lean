import Ctdb.Ltdb.Header

/-!
# Marshall buffers (`common/ctdb_util.c`)

Batches of records travel between nodes as a `struct ctdb_marshall_buffer`:
a 32-bit database id and a 32-bit record count, then the records back to
back. Each record is a `struct ctdb_rec_data` — its own total length, a
request id, the key length and the data length, all 32-bit, then the key
bytes and the data bytes. A record may carry an ltdb header, in which case
the header's 24 bytes lead the data and `datalen` counts them.

The buffer under construction is `MarshallBuffer`: the two header words
and the bytes appended so far. `marshallAppend` is the step every builder
takes — form the record with `ctdb_marshall_record`, copy it to the end,
bump the count — and `ctdbMarshallAdd` is the library builder;
`ctdbMarshallFinish` lays the whole buffer out as the bytes that are sent.

talloc refuses allocations of `MAX_TALLOC_SIZE` (256 MiB) or more, so
`ctdb_marshall_record` and `ctdb_marshall_add` can answer `NULL`; an
allocation below the limit is taken to succeed. The two recovery traverses
grow their buffer by hand, ahead of need (`growAppend`).

The reading side is `ctdbMarshallLoopNext`, one step of the pointer walk:
the first record sits right after the buffer header, each next one
`r->length` bytes after the previous. Its reads stay inside the buffer or
answer `none` (the C code would read whatever lies past the end), and it
answers `none` where the C code returns `NULL`: a header was asked for
but the record's data is shorter than one. `marshallWalk` is the loop its
callers write around it, one step per entry of `headers`, which says for
each step whether a header pointer is passed.
-/

namespace Ctdb

open Lib

/-- `offsetof(struct ctdb_rec_data, data)`. -/
def recDataHeaderSize : Nat := 16

/-- `offsetof(struct ctdb_marshall_buffer, data)`. -/
def marshallBufferHeaderSize : Nat := 8

/-- The bytes an optional header adds in front of a record's data. -/
def headerBytes : Option LtdbHeader → TdbData
  | some h => h.toBytes
  | none => []

/-- `MAX_TALLOC_SIZE` (`lib/talloc/talloc.c`): `talloc_size` and
`talloc_realloc_size` answer `NULL` for this many bytes or more. -/
def maxTallocSize : Nat := 0x10000000

/-- The record `ctdb_marshall_record` fills in: the four 32-bit fields, the
key, the header if there is one, the data. The `size_t` lengths are stored
into `uint32_t` fields and keep their low 32 bits. -/
def marshallRecordBytes (reqid : UInt32) (key : TdbData) (header : Option LtdbHeader)
    (data : TdbData) : TdbData :=
  let length := recDataHeaderSize + key.length + data.length + (headerBytes header).length
  leBytes 4 length ++ leBytes 4 reqid.toNat ++ leBytes 4 key.length ++
    leBytes 4 (data.length + (headerBytes header).length) ++
    key ++ headerBytes header ++ data

/-- `ctdb_marshall_record`: `NULL` when `talloc_size` refuses the record's
`length` bytes. -/
def ctdbMarshallRecord (reqid : UInt32) (key : TdbData) (header : Option LtdbHeader)
    (data : TdbData) : Option TdbData :=
  let length := recDataHeaderSize + key.length + data.length + (headerBytes header).length
  if maxTallocSize ≤ length then none else some (marshallRecordBytes reqid key header data)

/-- `struct ctdb_marshall_buffer` while records are appended to it. -/
structure MarshallBuffer where
  dbId : UInt32
  count : UInt32
  data : TdbData
  deriving DecidableEq, Repr

/-- A freshly allocated buffer, `talloc_zero`ed with its `db_id` set. -/
def MarshallBuffer.empty (dbId : UInt32) : MarshallBuffer := ⟨dbId, 0, []⟩

/-- The step of every builder: append one marshalled record, count it. -/
def marshallAppend (m : MarshallBuffer) (reqid : UInt32) (key : TdbData)
    (header : Option LtdbHeader) (data : TdbData) : MarshallBuffer :=
  { m with count := m.count + 1, data := m.data ++ marshallRecordBytes reqid key header data }

/-- `ctdb_marshall_add`: a `NULL` buffer is allocated first, with the
(truncated) 64-bit database id, then grown by the record. `NULL` when the
record or the grown buffer reaches `MAX_TALLOC_SIZE`; the buffer passed in
is freed then. -/
def ctdbMarshallAdd (m : Option MarshallBuffer) (dbId : UInt64) (reqid : UInt32)
    (key : TdbData) (header : Option LtdbHeader) (data : TdbData) : Option MarshallBuffer := do
  let r ← ctdbMarshallRecord reqid key header data
  let m := m.getD (MarshallBuffer.empty dbId.toUInt32)
  -- `talloc_realloc_size(mem_ctx, m, m_size + r_size)`
  if maxTallocSize ≤ marshallBufferHeaderSize + m.data.length + r.length then none
  else some { m with count := m.count + 1, data := m.data ++ r }

/-- The state `traverse_pulldb` and `traverse_recdb` grow a buffer in by
hand: the buffer, the bytes in use `len` and the bytes allocated
`allocated_len`, both `uint32_t`. -/
structure GrowBuffer where
  buf : MarshallBuffer
  len : UInt32
  allocatedLen : UInt32
  deriving DecidableEq, Repr

/-- A `talloc_zero`ed buffer with its `db_id` set, of the buffer header's size. -/
def GrowBuffer.empty (dbId : UInt32) : GrowBuffer :=
  ⟨MarshallBuffer.empty dbId, UInt32.ofNat marshallBufferHeaderSize, UInt32.ofNat marshallBufferHeaderSize⟩

/-- `ctdb_marshall_finish`: the buffer as the bytes that are sent. -/
def ctdbMarshallFinish (m : MarshallBuffer) : TdbData :=
  leBytes 4 m.dbId.toNat ++ leBytes 4 m.count.toNat ++ m.data

/-- What one step of the walk hands its caller. -/
structure MarshallItem where
  reqid : Nat
  key : TdbData
  header : Option LtdbHeader
  data : TdbData
  deriving DecidableEq, Repr

/-- Where `ctdb_marshall_loop_next` finds the next record: right after the
buffer header on the first call, else `r->length` bytes after `r`. -/
def nextRecordOffset (m : TdbData) : Option Nat → Option Nat
  | none => some marshallBufferHeaderSize
  | some p => (readLE m p 4).map (p + ·)

/-- The reads `ctdb_marshall_loop_next` makes of the record at offset `off`. -/
def marshallRecordAt (m : TdbData) (off : Nat) (withHeader : Bool) :
    Option MarshallItem := do
  let reqid ← readLE m (off + 4) 4
  let keylen ← readLE m (off + 8) 4
  let datalen ← readLE m (off + 12) 4
  let key ← slice m (off + recDataHeaderSize) keylen
  let body := off + recDataHeaderSize + keylen
  if withHeader then
    -- `r->datalen < sizeof(*header)`: the C code returns NULL
    if datalen < ltdbHeaderSize then none
    else
      let hdr ← slice m body ltdbHeaderSize
      let data ← slice m (body + ltdbHeaderSize) (datalen - ltdbHeaderSize)
      pure ⟨reqid, key, some (LtdbHeader.ofBytes hdr), data⟩
  else
    let data ← slice m body datalen
    pure ⟨reqid, key, none, data⟩

/-- `ctdb_marshall_loop_next` on the buffer `m`, after the record at offset
`r` (or from the start), with or without a header pointer. Answers the new
record's offset and what was read there. -/
def ctdbMarshallLoopNext (m : TdbData) (r : Option Nat) (withHeader : Bool) :
    Option (Nat × MarshallItem) := do
  let off ← nextRecordOffset m r
  let item ← marshallRecordAt m off withHeader
  pure (off, item)

/-- The loop `pull_one_remote_database` and `ctdb_control_push_db` write
over a received buffer instead of calling `ctdb_marshall_loop_next`: `n`
records from offset `off` on, each handed to `body` with its key and its
whole data, the next one `rec->length` bytes further. `body` answers `none`
where the C code gives up. -/
def marshallRecordLoop {α : Type} (body : α → TdbData → TdbData → Option α) (m : TdbData) :
    Nat → Nat → α → Option α
  | 0, _, a => some a
  | n + 1, off, a => do
      let item ← marshallRecordAt m off false
      let length ← readLE m off 4
      let a ← body a item.key item.data
      marshallRecordLoop body m n (off + length) a

/-- The loop a caller writes around `ctdb_marshall_loop_next` to process a
buffer: `n` steps from after record `r`, each handing the record read to
`body`, which answers `none` where the caller gives up. -/
def marshallLoopFold {α : Type} (body : α → MarshallItem → Option α) (m : TdbData)
    (withHeader : Bool) : Nat → Option Nat → α → Option α
  | 0, _, a => some a
  | n + 1, r, a => do
      let (off, item) ← ctdbMarshallLoopNext m r withHeader
      let a ← body a item
      marshallLoopFold body m withHeader n (some off) a

end Ctdb

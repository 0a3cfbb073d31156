import Ctdb.Lib.Bytes
import Ctdb.Lib.Mask

/-!
# The ltdb record header (`include/ctdb_protocol.h`, `common/ctdb_ltdb.c`)

Every record of a clustered database carries, in front of its data, a
`struct ctdb_ltdb_header`: the record sequence number, the node the record
currently lives on (its *dmaster*), and the record flags. The fields keep
their C widths: the rsn is a 64-bit counter and wraps as one, and the flag
word is tested and updated as the C code does it, with masks.

A header travels as the 24 bytes of the structure — three fields, the
`reserved1` word that nothing reads and the padding the `uint64_t` forces
— inside tdb records and marshall buffers. `LtdbHeader.toBytes` and
`LtdbHeader.ofBytes` are that `memcpy` and that cast, and they are inverse
on headers.

The *lmaster* of a key is the node the vnn map assigns to the key's hash;
`ctdbLmaster` takes the hash function as a parameter, since nothing proved
here depends on which hash `tdb_jenkins_hash` computes.
-/

namespace Ctdb

open Lib

/-- `TDB_DATA`: keys and record data are byte strings. -/
abbrev TdbData := List UInt8

/-- `struct ctdb_ltdb_header`; the never-read `reserved1` is left out. -/
structure LtdbHeader where
  rsn : UInt64
  dmaster : UInt32
  flags : UInt32
  deriving DecidableEq, Repr

def CTDB_REC_FLAG_MIGRATED_WITH_DATA : UInt32 := 0x00010000
def CTDB_REC_FLAG_VACUUM_MIGRATED : UInt32 := 0x00020000
def CTDB_REC_FLAG_AUTOMATIC : UInt32 := 0x00040000
def CTDB_REC_RO_HAVE_DELEGATIONS : UInt32 := 0x01000000
def CTDB_REC_RO_HAVE_READONLY : UInt32 := 0x02000000
def CTDB_REC_RO_REVOKING_READONLY : UInt32 := 0x04000000
def CTDB_REC_RO_REVOKE_COMPLETE : UInt32 := 0x08000000

def CTDB_REC_RO_FLAGS : UInt32 :=
  CTDB_REC_RO_HAVE_DELEGATIONS ||| CTDB_REC_RO_HAVE_READONLY |||
    CTDB_REC_RO_REVOKING_READONLY ||| CTDB_REC_RO_REVOKE_COMPLETE

/-- `sizeof(struct ctdb_ltdb_header)`. -/
def ltdbHeaderSize : Nat := 24

/-- The bytes of the structure, as `memcpy` copies them. -/
def LtdbHeader.toBytes (h : LtdbHeader) : TdbData :=
  leBytes 8 h.rsn.toNat ++ leBytes 4 h.dmaster.toNat ++ leBytes 4 0 ++
    leBytes 4 h.flags.toNat ++ leBytes 4 0

/-- The structure at the front of a buffer, as a cast of its pointer reads it. -/
def LtdbHeader.ofBytes (bs : TdbData) : LtdbHeader where
  rsn := UInt64.ofNat (leNat (bs.take 8))
  dmaster := UInt32.ofNat (leNat ((bs.drop 8).take 4))
  flags := UInt32.ofNat (leNat ((bs.drop 16).take 4))

@[simp] theorem LtdbHeader.length_toBytes (h : LtdbHeader) :
    h.toBytes.length = ltdbHeaderSize := by
  simp [LtdbHeader.toBytes, ltdbHeaderSize]

theorem LtdbHeader.ofBytes_toBytes_append (h : LtdbHeader) (rest : TdbData) :
    LtdbHeader.ofBytes (h.toBytes ++ rest) = h := by
  have hr : leNat (leBytes 8 h.rsn.toNat) = h.rsn.toNat :=
    leNat_leBytes_of_lt h.rsn.toNat_lt
  have hd : leNat (leBytes 4 h.dmaster.toNat) = h.dmaster.toNat :=
    leNat_leBytes_of_lt h.dmaster.toNat_lt
  have hf : leNat (leBytes 4 h.flags.toNat) = h.flags.toNat :=
    leNat_leBytes_of_lt h.flags.toNat_lt
  have h16 : (16 : Nat) = 8 + 4 + 4 := rfl
  simp only [LtdbHeader.ofBytes, LtdbHeader.toBytes, List.append_assoc]
  rw [h16, ← List.drop_drop, ← List.drop_drop, List.drop_left' (length_leBytes 8 _),
    List.drop_left' (length_leBytes 4 _), List.drop_left' (length_leBytes 4 _),
    List.take_left' (length_leBytes 8 _), List.take_left' (length_leBytes 4 _),
    List.take_left' (length_leBytes 4 _), hr, hd, hf]
  simp

@[simp] theorem LtdbHeader.ofBytes_toBytes (h : LtdbHeader) :
    LtdbHeader.ofBytes h.toBytes = h := by
  simpa using LtdbHeader.ofBytes_toBytes_append h []

/-- `ctdb_lmaster`: the vnn map entry the key's hash selects. -/
def ctdbLmaster (hash : TdbData → UInt32) (vnnMap : List UInt32) (key : TdbData) :
    UInt32 :=
  vnnMap.getD ((hash key).toNat % vnnMap.length) 0

/-- `ltdb_initial_header`: a record nobody has stored yet lives on its
lmaster, with sequence number 0, and is marked as made up. -/
def ltdbInitialHeader (lmaster : UInt32) : LtdbHeader where
  rsn := 0
  dmaster := lmaster
  flags := CTDB_REC_FLAG_AUTOMATIC

end Ctdb

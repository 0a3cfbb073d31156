import Mathlib.Data.List.Basic
import Mathlib.Algebra.Order.Group.Nat

/-!
# Little-endian words in a byte string

C code that `memcpy`s a structure into a buffer, or casts a pointer into a
buffer to a structure pointer, writes and reads its integer fields as the
bytes the host keeps them in. On a little-endian host a `w`-byte unsigned
field holding `n` is the `w` low-order base-256 digits of `n`, least
significant first; `leBytes` is that, and `leNat` reads such digits back.

A read through a pointer is only meaningful inside the buffer it points
into, so `readLE` and `slice` answer `none` past the end: a model of a
parser that walks a buffer is total, and "stays inside its input" becomes
"never answers `none`".

Nothing here knows what the bytes mean. The lemmas are the ones a
round-trip proof needs: lengths, the digit round trip both ways, and reads
at an offset into a concatenation.
-/

namespace Ctdb.Lib

/-- The `w` low-order bytes of `n`, least significant first. -/
def leBytes : Nat → Nat → List UInt8
  | 0, _ => []
  | w + 1, n => UInt8.ofNat n :: leBytes w (n / 256)

/-- The number whose little-endian digits are `bs`. -/
def leNat : List UInt8 → Nat
  | [] => 0
  | b :: bs => b.toNat + 256 * leNat bs

@[simp] theorem length_leBytes (w n : Nat) : (leBytes w n).length = w := by
  induction w generalizing n with
  | zero => rfl
  | succ w ih => simp [leBytes, ih]

@[simp] theorem leNat_nil : leNat [] = 0 := rfl

@[simp] theorem leNat_cons (b : UInt8) (bs : List UInt8) :
    leNat (b :: bs) = b.toNat + 256 * leNat bs := rfl

theorem leNat_leBytes (w n : Nat) : leNat (leBytes w n) = n % 256 ^ w := by
  induction w generalizing n with
  | zero => simp [leBytes, Nat.mod_one]
  | succ w ih =>
      have hpow : (256 : Nat) ^ (w + 1) = 256 * 256 ^ w := by
        rw [Nat.pow_succ, Nat.mul_comm]
      rw [leBytes, leNat_cons, ih, UInt8.toNat_ofNat', hpow, Nat.mod_mul]

theorem leNat_lt (bs : List UInt8) : leNat bs < 256 ^ bs.length := by
  induction bs with
  | nil => simp
  | cons b bs ih =>
      have hb := b.toNat_lt
      rw [leNat_cons, List.length_cons, Nat.pow_succ]
      omega

theorem leNat_leBytes_of_lt {w n : Nat} (h : n < 256 ^ w) :
    leNat (leBytes w n) = n := by
  rw [leNat_leBytes, Nat.mod_eq_of_lt h]

theorem leBytes_leNat (bs : List UInt8) : leBytes bs.length (leNat bs) = bs := by
  induction bs with
  | nil => rfl
  | cons b bs ih =>
      have hb := b.toNat_lt
      have hdiv : (b.toNat + 256 * leNat bs) / 256 = leNat bs := by omega
      have hlow : UInt8.ofNat (b.toNat + 256 * leNat bs) = b := by
        apply UInt8.toNat_inj.mp
        rw [UInt8.toNat_ofNat']
        omega
      rw [List.length_cons, leBytes, leNat_cons, hdiv, ih, hlow]

/-! ## Reads through a pointer into a buffer -/

/-- The `len` bytes at offset `off`, if they lie inside `m`. -/
def slice (m : List UInt8) (off len : Nat) : Option (List UInt8) :=
  if off + len ≤ m.length then some ((m.drop off).take len) else none

/-- The `w`-byte little-endian field at offset `off`, if it lies inside `m`. -/
def readLE (m : List UInt8) (off w : Nat) : Option Nat :=
  (slice m off w).map leNat

theorem slice_of_le {m : List UInt8} {off len : Nat} (h : off + len ≤ m.length) :
    slice m off len = some ((m.drop off).take len) := if_pos h

theorem slice_eq_none {m : List UInt8} {off len : Nat} (h : m.length < off + len) :
    slice m off len = none := if_neg (Nat.not_le.mpr h)

@[simp] theorem slice_self (m : List UInt8) : slice m 0 m.length = some m := by
  rw [slice_of_le (by omega), List.drop_zero, List.take_length]

/-- A prefix of known length only shifts the offsets. -/
theorem slice_append_shift (pre rest : List UInt8) (off len : Nat) :
    slice (pre ++ rest) (pre.length + off) len = slice rest off len := by
  unfold slice
  rw [List.length_append, List.drop_length_add_append]
  by_cases h : off + len ≤ rest.length
  · rw [if_pos (by omega), if_pos h]
  · rw [if_neg (by omega), if_neg h]

/-- What lies past the bytes read does not matter. -/
theorem slice_append_left {a : List UInt8} (b : List UInt8) {off len : Nat}
    (h : off + len ≤ a.length) : slice (a ++ b) off len = slice a off len := by
  rw [slice_of_le (by rw [List.length_append]; omega), slice_of_le h,
    List.drop_append_of_le_length (by omega), List.take_append_of_le_length]
  rw [List.length_drop]
  omega

/-- Reading exactly the bytes that are there. -/
theorem slice_append_self (a rest : List UInt8) : slice (a ++ rest) 0 a.length = some a := by
  rw [slice_append_left rest (by omega), slice_self]

theorem readLE_append_shift (pre rest : List UInt8) (off w : Nat) :
    readLE (pre ++ rest) (pre.length + off) w = readLE rest off w := by
  rw [readLE, readLE, slice_append_shift]

theorem readLE_append_left {a : List UInt8} (b : List UInt8) {off w : Nat}
    (h : off + w ≤ a.length) : readLE (a ++ b) off w = readLE a off w := by
  rw [readLE, readLE, slice_append_left b h]

theorem readLE_leBytes_append (w n : Nat) (rest : List UInt8) :
    readLE (leBytes w n ++ rest) 0 w = some (n % 256 ^ w) := by
  have hle : 0 + w ≤ (leBytes w n).length := by rw [length_leBytes]; omega
  rw [readLE_append_left rest hle, readLE]
  have hs := slice_self (leBytes w n)
  rw [length_leBytes] at hs
  rw [hs, Option.map_some, leNat_leBytes]

/-- A store of `w` little-endian bytes of `n` at `off`, as through a cast
pointer into the buffer. -/
def writeLE (m : List UInt8) (off w n : Nat) : List UInt8 :=
  m.take off ++ leBytes w n ++ m.drop (off + w)

end Ctdb.Lib

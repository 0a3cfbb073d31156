import Mathlib

/-!
# The one's-complement sum of 16-bit words

The Internet checksum adds 16-bit words in one's complement: a carry out of
the top bit is added back in at the bottom (`onesAdd`). The sum of a list of
words (`onesSum`) is then the ordinary sum modulo `0xFFFF`, taken in
`1 … 0xFFFF` unless every word is zero (`onesSum_mod`, `onesSum_eq_zero`): a
checksum check passes, with a sum of `0xFFFF`, exactly when the words add up
to a non-zero multiple of `0xFFFF` (`onesSum_eq_max`).

Implementations add the words in a wider register and fold the carries back
afterwards (`foldCarry`). A fold keeps the sum modulo `0xFFFF` and its being
non-zero, and two folds bring any 32-bit sum into 16 bits
(`foldCarry_foldCarry_le`). Complementing such a folded sum, with the zero
result sent as `0xFFFF`, gives a word that makes every list holding it
check (`onesSum_complement`).

`beWords` reads a byte string as big-endian words, a last odd byte padded with
a zero byte.
-/

namespace Ctdb.Lib

/-- The big-endian 16-bit words of a byte string. -/
def beWords : List UInt8 → List Nat
  | b0 :: b1 :: rest => (b0.toNat * 256 + b1.toNat) :: beWords rest
  | [b] => [b.toNat * 256]
  | [] => []

/-- One's-complement addition of two 16-bit words. -/
def onesAdd (a b : Nat) : Nat :=
  if a + b < 2 ^ 16 then a + b else a + b - 0xFFFF

/-- The one's-complement sum of 16-bit words. -/
def onesSum (ws : List Nat) : Nat :=
  ws.foldl onesAdd 0

/-- One fold of the carries above bit 16 back into the low bits. -/
def foldCarry (s : Nat) : Nat :=
  s % 2 ^ 16 + s / 2 ^ 16

theorem beWords_le : ∀ (bs : List UInt8), ∀ w ∈ beWords bs, w ≤ 0xFFFF
  | b0 :: b1 :: rest, w, hw => by
      rw [beWords, List.mem_cons] at hw
      rcases hw with rfl | hw
      · have := b0.toNat_lt
        have := b1.toNat_lt
        omega
      · exact beWords_le rest w hw
  | [b], w, hw => by
      rw [beWords, List.mem_singleton] at hw
      have := b.toNat_lt
      omega
  | [], _, hw => by simp [beWords] at hw

theorem beWords_append_of_even {a : List UInt8} (b : List UInt8) (ha : a.length % 2 = 0) :
    beWords (a ++ b) = beWords a ++ beWords b := by
  induction a using beWords.induct with
  | case1 b0 b1 rest ih =>
      simp only [List.length_cons] at ha
      simp [beWords, ih (by omega)]
  | case2 b0 => simp at ha
  | case3 => rfl

section Sum

variable {a b : Nat}

theorem onesAdd_le (ha : a ≤ 0xFFFF) (hb : b ≤ 0xFFFF) : onesAdd a b ≤ 0xFFFF := by
  unfold onesAdd
  split <;> omega

theorem onesAdd_mod (a b : Nat) : onesAdd a b % 0xFFFF = (a + b) % 0xFFFF := by
  unfold onesAdd
  split
  · rfl
  · omega

theorem onesAdd_eq_zero (h : onesAdd a b = 0) : a + b = 0 := by
  unfold onesAdd at h
  split at h <;> omega

/-- The fold of `onesAdd` from any start, as a statement about the start and the list. -/
theorem foldl_onesAdd : ∀ (ws : List Nat) (acc : Nat), acc ≤ 0xFFFF → (∀ w ∈ ws, w ≤ 0xFFFF) →
    ws.foldl onesAdd acc ≤ 0xFFFF ∧
      ws.foldl onesAdd acc % 0xFFFF = (acc + ws.sum) % 0xFFFF ∧
      (ws.foldl onesAdd acc = 0 → acc + ws.sum = 0)
  | [], acc, hacc, _ => by simp [hacc]
  | w :: ws, acc, hacc, hws => by
      have hw := hws w List.mem_cons_self
      obtain ⟨hle, hmod, hzero⟩ := foldl_onesAdd ws (onesAdd acc w) (onesAdd_le hacc hw)
        fun v hv => hws v (List.mem_cons_of_mem w hv)
      refine ⟨hle, ?_, fun h => ?_⟩
      · rw [List.foldl_cons, hmod, List.sum_cons, Nat.add_mod, onesAdd_mod, ← Nat.add_mod,
          Nat.add_assoc]
      · rw [List.foldl_cons] at h
        have hrest := hzero h
        have hhead := onesAdd_eq_zero (show onesAdd acc w = 0 by omega)
        rw [List.sum_cons]
        omega

theorem onesSum_mod {ws : List Nat} (hws : ∀ w ∈ ws, w ≤ 0xFFFF) :
    onesSum ws ≤ 0xFFFF ∧ onesSum ws % 0xFFFF = ws.sum % 0xFFFF := by
  obtain ⟨hle, hmod, -⟩ := foldl_onesAdd ws 0 (Nat.zero_le _) hws
  rw [Nat.zero_add] at hmod
  exact ⟨hle, hmod⟩

theorem onesSum_eq_zero {ws : List Nat} (hws : ∀ w ∈ ws, w ≤ 0xFFFF) (h : onesSum ws = 0) :
    ws.sum = 0 := by
  have := (foldl_onesAdd ws 0 (Nat.zero_le _) hws).2.2 h
  omega

/-- The sum checks exactly when the words add up to a non-zero multiple of `0xFFFF`. -/
theorem onesSum_eq_max {ws : List Nat} (hws : ∀ w ∈ ws, w ≤ 0xFFFF) (hmod : ws.sum % 0xFFFF = 0)
    (hpos : ws.sum ≠ 0) : onesSum ws = 0xFFFF := by
  obtain ⟨hle, hm⟩ := onesSum_mod hws
  have hne : onesSum ws ≠ 0 := fun h => hpos (onesSum_eq_zero hws h)
  omega

end Sum

section Fold

theorem foldCarry_mod (s : Nat) : foldCarry s % 0xFFFF = s % 0xFFFF := by
  unfold foldCarry
  omega

theorem foldCarry_eq_zero {s : Nat} (h : foldCarry s = 0) : s = 0 := by
  unfold foldCarry at h
  omega

theorem foldCarry_foldCarry_le {s : Nat} (h : s < 2 ^ 32) : foldCarry (foldCarry s) ≤ 0xFFFF := by
  unfold foldCarry
  omega

/-- The checksum word of a sum folded into 16 bits: its complement, or
`0xFFFF` in place of zero. -/
def onesComplementWord (x : Nat) : Nat :=
  if 0xFFFF - x = 0 then 0xFFFF else 0xFFFF - x

/-- Words whose ordinary sum is `s < 2 ^ 32`, with the checksum word of the
twice-folded `s` among them, check. -/
theorem onesSum_complement {ws : List Nat} {s : Nat} (hws : ∀ w ∈ ws, w ≤ 0xFFFF)
    (hs : s < 2 ^ 32) (hsum : ws.sum = s + onesComplementWord (foldCarry (foldCarry s))) :
    onesSum ws = 0xFFFF := by
  have hle := foldCarry_foldCarry_le hs
  have hmod : foldCarry (foldCarry s) % 0xFFFF = s % 0xFFFF := by
    rw [foldCarry_mod, foldCarry_mod]
  have hzero : foldCarry (foldCarry s) = 0 → s = 0 := fun h =>
    foldCarry_eq_zero (foldCarry_eq_zero h)
  refine onesSum_eq_max hws ?_ ?_
  · rw [hsum]
    unfold onesComplementWord
    split <;> omega
  · rw [hsum]
    unfold onesComplementWord
    split <;> omega

end Fold

end Ctdb.Lib

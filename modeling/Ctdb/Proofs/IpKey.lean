import Mathlib.Data.Nat.Bitwise
import Ctdb.Takeover.SockAddr
import Ctdb.Proofs.Lcp2Table

/-!
# Keys, distances and the size of the LCP2 sums

`ip_distance` is meant to be the length of the longest common prefix of two
keys, as its comment and the Python reference of the test suite say: leading
zero bits of the XOR, stopping at the first bit that differs. The C loop adds
the leading zeros of every word's XOR instead, so after a word that differs it
goes on counting: it agrees with the prefix when the keys differ only in their
last word, which is every pair of IPv4 addresses, and overcounts otherwise.

The tree of public addresses is keyed by `ip_key` while the rest of the code
compares addresses with `ctdb_same_ip`. The two agree on addresses of one
family outside the IPv4-mapped range (`ctdbSameIp_iff`), and nowhere else:
`::ffff:a.b.c.d` is the same address as `a.b.c.d` under another key, and
`::a.b.c.d` is another address under the same key.

Each squared distance is below `2 ^ 15`, but a node's imbalance sums it over
all pairs of its addresses in 32 bits. A node holding 1024 addresses of one
`/22` has more than `2 ^ 32` of it (`le_pairSum` with the lower bound
`le_ipDistance_of_shiftRight_eq`), so `lcp2_imbalance` wraps.
-/

namespace Ctdb

open Lib

/-! ## The longest common prefix -/

/-- The 128 bits of a key, the most significant first. -/
def IpKey.bits (k : IpKey) : List Bool :=
  k.words.flatMap fun w => (List.range 32).map fun i => w.toNat.testBit (31 - i)

/-- The number of leading bits on which two keys agree, 128 when they are equal. -/
def ipCommonPrefix (a b : IpKey) : Nat :=
  ((a.bits.zip b.bits).takeWhile fun p => p.1 == p.2).length

theorem ipDistance_past_first_difference :
    ipDistance (.inet6 ⟨0x20010db8, 0, 0, 1⟩ 0) (.inet6 ⟨0x30010db8, 0, 0, 1⟩ 0) = 99 ∧
      ipCommonPrefix (ipKey (.inet6 ⟨0x20010db8, 0, 0, 1⟩ 0))
        (ipKey (.inet6 ⟨0x30010db8, 0, 0, 1⟩ 0)) = 3 := by
  decide

/-! ## Keys and `ctdb_same_ip` -/

/-- The family of an address: `AF_INET6` or not. -/
def CtdbSockAddr.isInet6 : CtdbSockAddr → Bool
  | .inet .. => false
  | .inet6 .. => true

/-- `ctdb_same_ip` is equality of family and key once both addresses are
canonical. -/
theorem ctdbSameIp_iff (a b : CtdbSockAddr) :
    ctdbSameIp a b = true ↔
      (ctdbCanonicalizeIp a).isInet6 = (ctdbCanonicalizeIp b).isInet6 ∧
        ipKey (ctdbCanonicalizeIp a) = ipKey (ctdbCanonicalizeIp b) := by
  unfold ctdbSameIp
  rcases ctdbCanonicalizeIp a with ⟨x, p⟩ | ⟨⟨x0, x1, x2, x3⟩, p⟩ <;>
    rcases ctdbCanonicalizeIp b with ⟨y, q⟩ | ⟨⟨y0, y1, y2, y3⟩, q⟩ <;>
    simp [CtdbSockAddr.isInet6, ipKey]

theorem ctdbSameIp_inet (a b : UInt32) (p q : UInt16) : ctdbSameIp (.inet a p) (.inet b q) = (a == b) := rfl

theorem eq_of_ctdbSameIp_ofNat {u v : Nat} (hu : u < 2 ^ 32) (hv : v < 2 ^ 32) {p q : UInt16}
    (h : ctdbSameIp (.inet (UInt32.ofNat u) p) (.inet (UInt32.ofNat v) q) = true) : u = v := by
  rw [ctdbSameIp_inet, beq_iff_eq] at h
  have := congrArg UInt32.toNat h
  rwa [UInt32.toNat_ofNat', UInt32.toNat_ofNat', Nat.mod_eq_of_lt hu, Nat.mod_eq_of_lt hv] at this

/-- A node that knows one address and reports itself as its holder. -/
def knowsAddr (ip : CtdbSockAddr) (pnn : Nat) : TakeoverNode :=
  ⟨⟨false, false⟩, false, some [(ip, pnn)], some [ip]⟩

theorem ipKey_disagrees_sameIp :
    (ctdbSameIp (.inet 0x0a000001 0) (.inet6 ⟨0, 0, 0xffff, 0x0a000001⟩ 0) = true ∧
        ipKey (.inet 0x0a000001 0) ≠ ipKey (.inet6 ⟨0, 0, 0xffff, 0x0a000001⟩ 0) ∧
        (createMergedIpList [knowsAddr (.inet 0x0a000001 0) 0,
          knowsAddr (.inet6 ⟨0, 0, 0xffff, 0x0a000001⟩ 0) 1]).length = 2) ∧
      (ctdbSameIp (.inet 0x0a000001 0) (.inet6 ⟨0, 0, 0, 0x0a000001⟩ 0) = false ∧
        ipKey (.inet 0x0a000001 0) = ipKey (.inet6 ⟨0, 0, 0, 0x0a000001⟩ 0) ∧
        (createMergedIpList [knowsAddr (.inet 0x0a000001 0) 0,
          knowsAddr (.inet6 ⟨0, 0, 0, 0x0a000001⟩ 0) 1]).length = 1) := by
  decide

/-! ## A lower bound on the distance -/

theorem and_top_bit_eq_zero {x : UInt32} (h : x.toNat < 2 ^ 31) : x &&& ((1 : UInt32) <<< 31) = 0 := by
  apply UInt32.toNat_inj.mp
  have hc : ((1 : UInt32) <<< 31).toNat = 2 ^ 31 := by decide
  rw [UInt32.toNat_and, hc, Nat.and_comm, Nat.two_pow_and, Nat.testBit_lt_two_pow h]
  rfl

theorem toNat_shiftLeft_one {x : UInt32} (h : x.toNat < 2 ^ 31) : (x <<< 1).toNat = 2 * x.toNat := by
  rw [UInt32.toNat_shiftLeft]
  simp
  omega

theorem le_clzLoop_toNat : ∀ (fuel : Nat) (x distance : UInt32),
    distance.toNat + fuel < 2 ^ 32 → distance.toNat ≤ (clzLoop fuel x distance).toNat
  | 0, _, _, _ => Nat.le_refl _
  | fuel + 1, x, distance, h => by
      have hsucc := toNat_add_one_of_lt (d := distance) (by omega)
      rw [clzLoop]
      split
      · have := le_clzLoop_toNat fuel (x <<< 1) (distance + 1) (by omega)
        omega
      · exact Nat.le_refl _

/-- A word below `2 ^ (32 - m)` has at least `m` leading zeros. -/
theorem clzLoop_toNat_ge : ∀ (m fuel : Nat) (x distance : UInt32), m ≤ fuel →
    x.toNat < 2 ^ (32 - m) → distance.toNat + fuel < 2 ^ 32 →
      distance.toNat + m ≤ (clzLoop fuel x distance).toNat
  | 0, fuel, x, distance, _, _, h => le_clzLoop_toNat fuel x distance h
  | m + 1, fuel + 1, x, distance, hm, hx, h => by
      have hx31 : x.toNat < 2 ^ 31 :=
        Nat.lt_of_lt_of_le hx (Nat.pow_le_pow_right (by omega) (by omega))
      have hsucc := toNat_add_one_of_lt (d := distance) (by omega)
      -- the top bit is clear, so the loop shifts and counts one
      have hshift : (x <<< 1).toNat < 2 ^ (32 - m) := by
        rw [toNat_shiftLeft_one hx31]
        rcases Nat.lt_or_ge m 32 with hm32 | hm32
        · have hpow : 2 ^ (32 - m) = 2 ^ (32 - (m + 1)) * 2 := by
            rw [← Nat.pow_succ]
            congr 1
            omega
          omega
        · -- past the width the bound leaves only the zero word
          have hx0 : x.toNat = 0 := by
            rw [show 32 - (m + 1) = 0 by omega, Nat.pow_zero] at hx
            omega
          rw [hx0]
          exact Nat.two_pow_pos _
      rw [clzLoop, if_pos (and_top_bit_eq_zero hx31)]
      have := clzLoop_toNat_ge m fuel (x <<< 1) (distance + 1) (by omega) hshift (by omega)
      omega

/-- Addresses whose keys agree on their first 96 bits and on the bits of the
last word from `s` up are at distance at least `128 - s`. -/
theorem le_ipDistance_of_shiftRight_eq {x y : CtdbSockAddr} (h0 : (ipKey x).k0 = (ipKey y).k0)
    (h1 : (ipKey x).k1 = (ipKey y).k1) (h2 : (ipKey x).k2 = (ipKey y).k2) {s : Nat} (hs : s ≤ 32)
    (h3 : (ipKey x).k3.toNat >>> s = (ipKey y).k3.toNat >>> s) :
    128 - s ≤ (ipDistance x y).toNat := by
  have hxor : ((ipKey x).k3 ^^^ (ipKey y).k3).toNat < 2 ^ (32 - (32 - s)) := by
    have hz : ((ipKey x).k3 ^^^ (ipKey y).k3).toNat >>> s = 0 := by
      rw [UInt32.toNat_xor, Nat.shiftRight_xor_distrib, h3, Nat.xor_self]
    rw [Nat.shiftRight_eq_div_pow, Nat.div_eq_zero_iff] at hz
    rw [show 32 - (32 - s) = s by omega]
    have := Nat.two_pow_pos s
    omega
  have h96 : ((0 : UInt32) + 32 + 32 + 32).toNat = 96 := by decide
  have hlast := clzLoop_toNat_ge (32 - s) 32 ((ipKey x).k3 ^^^ (ipKey y).k3) (0 + 32 + 32 + 32) (by omega) hxor
    (by rw [h96]; decide)
  simp only [ipDistance, IpKey.words, List.zip_cons_cons, List.zip_nil_right, List.foldl_cons,
    List.foldl_nil, h0, h1, h2, UInt32.xor_self, if_true]
  split
  · have h128 : ((0 : UInt32) + 32 + 32 + 32 + 32).toNat = 128 := by decide
    omega
  · rw [h96] at hlast
    omega

/-- The top bit of a word is clear only below `2 ^ 31`. -/
theorem toNat_lt_of_and_top_bit_eq_zero {x : UInt32} (h : x &&& ((1 : UInt32) <<< 31) = 0) :
    x.toNat < 2 ^ 31 := by
  have hc : ((1 : UInt32) <<< 31).toNat = 2 ^ 31 := by decide
  have hand := congrArg UInt32.toNat h
  rw [UInt32.toNat_and, hc, Nat.and_two_pow, UInt32.toNat_zero] at hand
  have hbit : x.toNat.testBit 31 = false := by
    cases hb : x.toNat.testBit 31
    · rfl
    · rw [hb] at hand
      simp at hand
  rw [Nat.testBit_eq_decide_div_mod_eq, decide_eq_false_iff_not] at hbit
  have hlt := x.toNat_lt
  omega

/-- A word at or above `2 ^ (31 - m)` has at most `m` leading zeros. -/
theorem clzLoop_toNat_le_of_le : ∀ (m fuel : Nat) (x distance : UInt32), m < 32 →
    2 ^ (31 - m) ≤ x.toNat → distance.toNat + fuel < 2 ^ 32 →
      (clzLoop fuel x distance).toNat ≤ distance.toNat + m
  | _, 0, _, _, _, _, _ => Nat.le_add_right _ _
  | m, fuel + 1, x, distance, hm, hx, h => by
      rw [clzLoop]
      split
      · next htop =>
        have hx31 := toNat_lt_of_and_top_bit_eq_zero htop
        -- the top bit is clear, so the bound leaves room for one more zero
        cases m with
        | zero => exact absurd hx (Nat.not_le.mpr hx31)
        | succ m =>
            have hsucc := toNat_add_one_of_lt (d := distance) (by omega)
            have hshift : 2 ^ (31 - m) ≤ (x <<< 1).toNat := by
              have hpow : 2 ^ (31 - m) = 2 * 2 ^ (31 - (m + 1)) := by
                rw [← Nat.pow_succ']
                congr 1
                omega
              rw [toNat_shiftLeft_one hx31, hpow]
              omega
            have := clzLoop_toNat_le_of_le m fuel (x <<< 1) (distance + 1) (by omega) hshift (by omega)
            omega
      · omega

theorem ipDistance_self (a : CtdbSockAddr) : (ipDistance a a).toNat = 128 := by
  simp only [ipDistance, IpKey.words, List.zip_cons_cons, List.zip_nil_right, List.foldl_cons,
    List.foldl_nil, UInt32.xor_self, if_true]
  decide

/-- Two IPv4 addresses that agree above bit `k` and differ at it are at
distance `127 - k`: 32 for each of the three zero words of their keys, and
`31 - k` leading zeros of the XOR of the last. -/
theorem ipDistance_inet {a b : UInt32} {k : Nat} (hk : k < 32)
    (hhigh : a.toNat >>> (k + 1) = b.toNat >>> (k + 1)) (hbit : a.toNat.testBit k ≠ b.toNat.testBit k)
    (p q : UInt16) : (ipDistance (.inet a p) (.inet b q)).toNat = 127 - k := by
  have hlt : (a ^^^ b).toNat < 2 ^ (32 - (31 - k)) := by
    have hz : (a ^^^ b).toNat >>> (k + 1) = 0 := by
      rw [UInt32.toNat_xor, Nat.shiftRight_xor_distrib, hhigh, Nat.xor_self]
    rw [Nat.shiftRight_eq_div_pow, Nat.div_eq_zero_iff] at hz
    rw [show 32 - (31 - k) = k + 1 by omega]
    have := Nat.two_pow_pos (k + 1)
    omega
  have hge : 2 ^ (31 - (31 - k)) ≤ (a ^^^ b).toNat := by
    rw [show 31 - (31 - k) = k by omega]
    apply Nat.ge_two_pow_of_testBit
    rw [UInt32.toNat_xor, Nat.testBit_xor]
    revert hbit
    cases a.toNat.testBit k <;> cases b.toNat.testBit k <;> decide
  have hne : a ^^^ b ≠ 0 := by
    intro h0
    rw [h0, UInt32.toNat_zero] at hge
    exact absurd hge (Nat.not_le.mpr (Nat.two_pow_pos _))
  have h96 : ((0 : UInt32) + 32 + 32 + 32).toNat = 96 := by decide
  have hup := clzLoop_toNat_le_of_le (31 - k) 32 (a ^^^ b) (0 + 32 + 32 + 32) (by omega) hge
    (by rw [h96]; decide)
  have hlow := clzLoop_toNat_ge (31 - k) 32 (a ^^^ b) (0 + 32 + 32 + 32) (by omega) hlt
    (by rw [h96]; decide)
  simp only [ipDistance, ipKey, IpKey.words, List.zip_cons_cons, List.zip_nil_right, List.foldl_cons,
    List.foldl_nil, UInt32.xor_self, if_true, if_neg hne]
  rw [h96] at hup hlow
  omega

/-! ## Aligned blocks of IPv4 addresses -/

/-- The `2 ^ k` IPv4 addresses from `base` on, all held by node `n`. -/
def ipBlock (n k base : Nat) : List PublicIp :=
  (List.range (2 ^ k)).map fun j => ⟨some n, .inet (UInt32.ofNat (base + j)) 0⟩

/-- The squared distances of a block's first address to each address of the
block, itself included. -/
def blockHeadSum : Nat → Nat
  | 0 => 128 * 128
  | k + 1 => blockHeadSum k + 2 ^ k * ((127 - k) * (127 - k))

/-- The squared distances of the pairs of a block. -/
def blockPairSum : Nat → Nat
  | 0 => 0
  | k + 1 => 2 * blockPairSum k + 2 ^ k * (2 ^ k * ((127 - k) * (127 - k)))

theorem mem_ipBlock {n k base : Nat} {a : PublicIp} :
    a ∈ ipBlock n k base ↔ ∃ j < 2 ^ k, a = ⟨some n, .inet (UInt32.ofNat (base + j)) 0⟩ := by
  simp [ipBlock, eq_comm]

@[simp] theorem length_ipBlock (n k base : Nat) : (ipBlock n k base).length = 2 ^ k := by
  simp [ipBlock]

theorem pnn_of_mem_ipBlock {n k base : Nat} {a : PublicIp} (ha : a ∈ ipBlock n k base) : a.pnn = some n := by
  obtain ⟨j, -, rfl⟩ := mem_ipBlock.mp ha
  rfl

theorem getElem?_ipBlock {n k base i : Nat} (hi : i < 2 ^ k) :
    (ipBlock n k base)[i]? = some ⟨some n, .inet (UInt32.ofNat (base + i)) 0⟩ := by
  simp [ipBlock, hi]

theorem ipBlock_ne_nil (n k base : Nat) : ipBlock n k base ≠ [] :=
  List.ne_nil_of_length_pos (by rw [length_ipBlock]; exact Nat.two_pow_pos k)

theorem ipBlock_eq_cons (n k base : Nat) :
    ipBlock n k base = ⟨some n, .inet (UInt32.ofNat base) 0⟩ :: (ipBlock n k base).tail := by
  rw [← List.cons_head_tail (ipBlock_ne_nil n k base)]
  simp [ipBlock, List.head_map, List.head_range]

theorem ipBlock_succ (n k base : Nat) :
    ipBlock n (k + 1) base = ipBlock n k base ++ ipBlock n k (base + 2 ^ k) := by
  simp only [ipBlock, Nat.pow_succ, Nat.mul_two, List.range_add, List.map_append, List.map_map,
    Function.comp_def, Nat.add_assoc]

/-- Offsets `u` and `2 ^ k + v` in an aligned block of `2 ^ (k + 1)`: the
same bits above `k`, and bit `k` clear in the first only. -/
theorem halves_toNat {k base u v : Nat} (halign : 2 ^ (k + 1) ∣ base) (hbase : base + 2 ^ (k + 1) ≤ 2 ^ 32)
    (hu : u < 2 ^ k) (hv : v < 2 ^ k) :
    (UInt32.ofNat (base + u)).toNat >>> (k + 1) = (UInt32.ofNat (base + 2 ^ k + v)).toNat >>> (k + 1) ∧
      (UInt32.ofNat (base + u)).toNat.testBit k ≠ (UInt32.ofNat (base + 2 ^ k + v)).toNat.testBit k := by
  obtain ⟨c, rfl⟩ := halign
  have hpow : 2 ^ (k + 1) = 2 ^ k * 2 := Nat.pow_succ 2 k
  have hpos := Nat.two_pow_pos k
  have ha : (UInt32.ofNat (2 ^ (k + 1) * c + u)).toNat = 2 ^ (k + 1) * c + u := by
    rw [UInt32.toNat_ofNat']
    exact Nat.mod_eq_of_lt (by omega)
  have hb : (UInt32.ofNat (2 ^ (k + 1) * c + 2 ^ k + v)).toNat = 2 ^ (k + 1) * c + (2 ^ k + v) := by
    rw [UInt32.toNat_ofNat', Nat.add_assoc]
    exact Nat.mod_eq_of_lt (by omega)
  -- at bit `k` the offsets read `2 * c` and `2 * c + 1`
  have hlow : 2 ^ (k + 1) * c = 2 ^ k * (2 * c) := by rw [hpow, Nat.mul_assoc]
  have hhigh : 2 ^ k * (2 * c) + 2 ^ k = 2 ^ k * (2 * c + 1) := (Nat.mul_succ _ _).symm
  rw [ha, hb, Nat.shiftRight_eq_div_pow, Nat.shiftRight_eq_div_pow, Nat.mul_add_div (Nat.two_pow_pos _),
    Nat.mul_add_div (Nat.two_pow_pos _), Nat.div_eq_of_lt (by omega), Nat.div_eq_of_lt (by omega),
    Nat.testBit_eq_decide_div_mod_eq, Nat.testBit_eq_decide_div_mod_eq, hlow, ← Nat.add_assoc, hhigh,
    Nat.mul_add_div hpos, Nat.mul_add_div hpos, Nat.div_eq_of_lt hu, Nat.div_eq_of_lt hv]
  simp [Nat.add_mod]

/-- Across the halves of an aligned block of `2 ^ (k + 1)` every pair of
addresses is at distance `127 - k`. -/
theorem distSq_ipBlock_halves {n n' k base : Nat} (hk : k < 32) (halign : 2 ^ (k + 1) ∣ base)
    (hbase : base + 2 ^ (k + 1) ≤ 2 ^ 32) {a b : PublicIp} (ha : a ∈ ipBlock n k base)
    (hb : b ∈ ipBlock n' k (base + 2 ^ k)) : distSq a b = (127 - k) * (127 - k) := by
  obtain ⟨u, hu, rfl⟩ := mem_ipBlock.mp ha
  obtain ⟨v, hv, rfl⟩ := mem_ipBlock.mp hb
  obtain ⟨hhigh, hbit⟩ := halves_toNat halign hbase hu hv
  simp only [distSq, ipDistance_inet hk hhigh hbit]

section Blocks

variable {cls : PublicIp → Option Nat} {n c : Nat} (hcls : ∀ a : PublicIp, a.pnn = some n → cls a = some c)
include hcls

theorem cls_of_mem_ipBlock {k base : Nat} {a : PublicIp} (ha : a ∈ ipBlock n k base) : cls a = some c :=
  hcls a (pnn_of_mem_ipBlock ha)

/-- The pair sum of an aligned block, by halving: twice the pair sum of a half,
and `2 ^ k * 2 ^ k` pairs across at distance `127 - k`. -/
theorem pairSum_ipBlock : ∀ (k base : Nat), k ≤ 32 → 2 ^ k ∣ base → base + 2 ^ k ≤ 2 ^ 32 →
    pairSum cls distSq (ipBlock n k base) = blockPairSum k
  | 0, base, _, _, _ => by simp [ipBlock, pairSum, blockPairSum]
  | k + 1, base, hk, halign, hbase => by
      have hpow : 2 ^ (k + 1) = 2 ^ k * 2 := Nat.pow_succ 2 k
      have h2k : 2 ^ k ∣ base := Nat.dvd_trans (Nat.pow_dvd_pow 2 (Nat.le_succ k)) halign
      rw [ipBlock_succ, pairSum_append_of_forall (fun a ha => cls_of_mem_ipBlock hcls ha)
          (fun b hb => cls_of_mem_ipBlock hcls hb) fun a ha b hb => distSq_ipBlock_halves (by omega) halign hbase ha hb,
        pairSum_ipBlock k base (by omega) h2k (by omega),
        pairSum_ipBlock k (base + 2 ^ k) (by omega) (Nat.dvd_add h2k (Nat.dvd_refl _)) (by omega),
        length_ipBlock, length_ipBlock, blockPairSum]
      omega

/-- The squared distances of an aligned block's first address to the block:
those to its own half, and `2 ^ k` at distance `127 - k` to the other. -/
theorem classSum_ipBlock_head (p : Option Nat) : ∀ (k base : Nat), k ≤ 32 → 2 ^ k ∣ base →
    base + 2 ^ k ≤ 2 ^ 32 →
      classSum cls distSq (some c) ⟨p, .inet (UInt32.ofNat base) 0⟩ (ipBlock n k base) = blockHeadSum k
  | 0, base, _, _, _ => by
      have hself := ipDistance_self (.inet (UInt32.ofNat base) 0)
      simp [ipBlock, classSum, classTerm, hcls, distSq, hself, blockHeadSum]
  | k + 1, base, hk, halign, hbase => by
      have hpow : 2 ^ (k + 1) = 2 ^ k * 2 := Nat.pow_succ 2 k
      have h2k : 2 ^ k ∣ base := Nat.dvd_trans (Nat.pow_dvd_pow 2 (Nat.le_succ k)) halign
      rw [ipBlock_succ, classSum_append, classSum_ipBlock_head p k base (by omega) h2k (by omega),
        classSum_of_forall (B := (127 - k) * (127 - k)) fun b hb => ⟨cls_of_mem_ipBlock hcls hb, ?_⟩,
        length_ipBlock, blockHeadSum]
      -- the first address is the first of the lower half
      have hx : (⟨some n, .inet (UInt32.ofNat (base + 0)) 0⟩ : PublicIp) ∈ ipBlock n k base :=
        mem_ipBlock.mpr ⟨0, Nat.two_pow_pos k, rfl⟩
      have := distSq_ipBlock_halves (by omega) halign hbase hx hb
      rw [Nat.add_zero] at this
      exact this

end Blocks

/-! ## The imbalance of a node with many addresses -/

theorem addIp_of_not_mem {tree : List PublicIp} {ip : PublicIp} (h : ipKey ip.addr ∉ tree.map (ipKey ·.addr)) :
    addIp tree ip = tree ++ [ip] := by
  have hnone : tree.find? (ipKey ·.addr == ipKey ip.addr) = none := by
    rw [List.find?_eq_none]
    intro t ht heq
    exact h (List.mem_map.mpr ⟨t, ht, by simpa using heq⟩)
  simp [addIp, hnone]

/-- A node that reports itself as the holder of addresses in strictly
increasing key order: the merged list has each of them once, held by the
node, in decreasing order. -/
theorem createMergedIpList_single (flags : IpFlags) (avail : Option (List CtdbSockAddr))
    (keys : List CtdbSockAddr) (hsorted : keys.Pairwise fun a b => (ipKey a).toNat < (ipKey b).toNat) :
    createMergedIpList [⟨flags, false, some (keys.map fun a => (a, 0)), avail⟩] =
      (keys.map fun a => (⟨some 0, a⟩ : PublicIp)).reverse := by
  -- the tree grows by one entry per key, as no key comes twice
  have htree : ∀ g : List PublicIp → CtdbSockAddr × Nat → List PublicIp,
      (∀ tree a, g tree (a, 0) = addIp tree ⟨some 0, a⟩) →
      ∀ (ks : List CtdbSockAddr) (acc : List PublicIp),
      ks.Pairwise (fun a b => (ipKey a).toNat < (ipKey b).toNat) → (∀ k ∈ ks, ipKey k ∉ acc.map (ipKey ·.addr)) →
      (ks.map fun a => (a, 0)).foldl g acc = acc ++ ks.map fun a => (⟨some 0, a⟩ : PublicIp) := by
    intro g hg ks
    induction ks with
    | nil => simp
    | cons k ks ih =>
        intro acc hs hacc
        rw [List.pairwise_cons] at hs
        have hk : ipKey (⟨some 0, k⟩ : PublicIp).addr ∉ acc.map (ipKey ·.addr) := hacc k List.mem_cons_self
        rw [List.map_cons, List.foldl_cons, hg, addIp_of_not_mem hk, ih _ hs.2]
        · simp
        · intro k' hk' hmem
          rw [List.map_append, List.mem_append] at hmem
          rcases hmem with hmem | hmem
          · exact hacc k' (List.mem_cons_of_mem k hk') hmem
          · have hne := hs.1 k' hk'
            simp only [List.map_cons, List.map_nil, List.mem_singleton] at hmem
            rw [hmem] at hne
            exact Nat.lt_irrefl _ hne
  have hle : (keys.map fun a => (⟨some 0, a⟩ : PublicIp)).Pairwise
      fun a b => (ipKey a.addr).toNat ≤ (ipKey b.addr).toNat := by
    rw [List.pairwise_map]
    exact hsorted.imp Nat.le_of_lt
  simp only [createMergedIpList, List.zipIdx_cons, List.zipIdx_nil, List.foldl_cons,
    List.foldl_nil, Bool.false_eq_true, if_false, Nat.zero_add]
  rw [htree _ (fun _ _ => rfl) keys [] hsorted (by simp), List.nil_append, hle.insertionSort_eq]

/-- 1024 addresses of `10.0.0.0/22`, in increasing order. -/
def wideKeys : List CtdbSockAddr :=
  (List.range 1024).map fun i => .inet (UInt32.ofNat (0x0a000000 + i)) 0

/-- A node that holds the 1024 addresses of `wideKeys`. -/
def wideNode : TakeoverNode :=
  ⟨⟨false, false⟩, false, some (wideKeys.map fun a => (a, 0)), some wideKeys⟩

theorem wideKeys_sorted : wideKeys.Pairwise fun a b => (ipKey a).toNat < (ipKey b).toNat := by
  have hword : ∀ i, i < 1024 → (UInt32.ofNat (0x0a000000 + i)).toNat = 0x0a000000 + i := by
    intro i hi
    rw [UInt32.toNat_ofNat']
    exact Nat.mod_eq_of_lt (by omega)
  unfold wideKeys
  rw [List.pairwise_map]
  refine (List.pairwise_lt_range).imp_of_mem fun {i j} hi hj hij => ?_
  rw [List.mem_range] at hi hj
  simp only [ipKey, IpKey.toNat, IpKey.words, List.foldl_cons, List.foldl_nil, hword i hi, hword j hj]
  simp
  omega

theorem le_distSq_wide {a b : PublicIp} (ha : a.addr ∈ wideKeys) (hb : b.addr ∈ wideKeys) :
    118 * 118 ≤ distSq a b := by
  -- all the addresses agree above their last ten bits
  have hhigh : ∀ k ∈ wideKeys, (ipKey k).k0 = 0 ∧ (ipKey k).k1 = 0 ∧ (ipKey k).k2 = 0 ∧
      (ipKey k).k3.toNat >>> 10 = 0x28000 := by
    intro k hk
    obtain ⟨i, hi, rfl⟩ := List.mem_map.mp hk
    rw [List.mem_range] at hi
    refine ⟨rfl, rfl, rfl, ?_⟩
    simp only [ipKey, UInt32.toNat_ofNat', Nat.shiftRight_eq_div_pow]
    omega
  obtain ⟨ha0, ha1, ha2, ha3⟩ := hhigh _ ha
  obtain ⟨hb0, hb1, hb2, hb3⟩ := hhigh _ hb
  have hd := le_ipDistance_of_shiftRight_eq (ha0.trans hb0.symm) (ha1.trans hb1.symm)
    (ha2.trans hb2.symm) (by omega) (ha3.trans hb3.symm)
  exact Nat.mul_le_mul hd hd

theorem lcp2Imbalance_wraps :
    2 ^ 32 ≤ nodeImbalance 0 (createMergedIpList [wideNode]) ∧
      (lcp2Imbalance (createMergedIpList [wideNode]) 0).toNat ≠
        nodeImbalance 0 (createMergedIpList [wideNode]) := by
  have hmerged := createMergedIpList_single ⟨false, false⟩ (some wideKeys) wideKeys wideKeys_sorted
  have hlen : (createMergedIpList [wideNode]).length = 1024 := by
    rw [wideNode, hmerged, List.length_reverse, List.length_map, wideKeys, List.length_map,
      List.length_range]
  have hmem : ∀ a ∈ createMergedIpList [wideNode], a.pnn = some 0 ∧ a.addr ∈ wideKeys := by
    intro a ha
    rw [wideNode, hmerged, List.mem_reverse, List.mem_map] at ha
    obtain ⟨k, hk, rfl⟩ := ha
    exact ⟨rfl, hk⟩
  have hbound := @le_pairSum PublicIp Nat _ (nodeClass 0) distSq (118 * 118) 0 _
    (fun a ha => by simp [nodeClass, (hmem a ha).1])
    (fun a ha b hb => le_distSq_wide (hmem a ha).2 (hmem b hb).2)
  rw [hlen] at hbound
  have hnum : 2 ^ 32 ≤ Nat.choose 1024 2 * (118 * 118) := by
    rw [Nat.choose_two_right]
    decide
  have hbig : 2 ^ 32 ≤ nodeImbalance 0 (createMergedIpList [wideNode]) := le_trans hnum hbound
  refine ⟨hbig, fun heq => ?_⟩
  have hlt := (lcp2Imbalance (createMergedIpList [wideNode]) 0).toNat_lt
  omega

end Ctdb

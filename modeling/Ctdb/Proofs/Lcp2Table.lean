import Ctdb.Proofs.Takeover
import Ctdb.Lib.PairSum

/-!
# The LCP2 imbalance table

`lcp2_init` fills a table with each node's imbalance, the sum of the squared
distances of the pairs of addresses the node holds, and the two LCP2 passes
then keep the table up to date by increments rather than sum again. This
file says what the table stands for and where the increments keep to it.

The imbalance is a sum over the pairs of entries in one class
(`Lib.pairSum`), the class of an entry being the node that holds it. The
distance sum `ip_distance_2_sum`, which leaves the entry itself out by its
position, is the class sum of that address over the rest of the list
(`ipDistance2Sum_eq`), and `lcp2_imbalance` is the pair sum
(`lcp2Imbalance_eq`); both are taken modulo 2^32, as the C code computes
them in `uint32_t`. The distance is symmetric (`ipDistance_comm`), so
`Lib.pairSum_move` gives what moving one address does to the imbalance of
every node (`lcp2Imbalance_setIpPnn_dst`, `_src`, `_other`).

`lcp2_allocate_unassigned` adds its `dstdsum` to the table entry of the
destination and leaves the others, which is exactly that change, so the
table stays exact through the allocation (`lcp2AllocateUnassigned_exact`).
`lcp2_failback_candidate` also adds the right amount at the destination, but
stores for the source node the `srcimbl` its loop computed last, for the
last address of the source in the list, not the one for the address it
moves; when the two addresses cost the source differently the table no
longer holds the source's imbalance (`lcp2FailbackRound_inexact`).
-/

namespace Ctdb

open Lib

/-! ## Distances -/

/-- The squared distance of the addresses of two entries, without wrapping. -/
def distSq (a b : PublicIp) : ℕ :=
  (ipDistance a.addr b.addr).toNat * (ipDistance a.addr b.addr).toNat

theorem ipDistance_comm (a b : CtdbSockAddr) : ipDistance a b = ipDistance b a := by
  simp only [ipDistance, IpKey.words, List.zip_cons_cons, List.zip_nil_right, List.foldl_cons,
    List.foldl_nil, UInt32.xor_comm]

theorem distSq_comm (a b : PublicIp) : distSq a b = distSq b a := by
  rw [distSq, distSq, ipDistance_comm]

theorem toNat_add_one_of_lt {d : UInt32} (h : d.toNat + 1 < 2 ^ 32) : (d + 1).toNat = d.toNat + 1 := by
  rw [UInt32.toNat_add, UInt32.toNat_one]
  exact Nat.mod_eq_of_lt h

theorem clzLoop_toNat_le : ∀ (fuel : Nat) (x distance : UInt32),
    distance.toNat + fuel < 2 ^ 32 → (clzLoop fuel x distance).toNat ≤ distance.toNat + fuel
  | 0, _, _, _ => Nat.le_refl _
  | fuel + 1, x, distance, h => by
      rw [clzLoop]
      split
      · have hsucc := toNat_add_one_of_lt (d := distance) (by omega)
        have := clzLoop_toNat_le fuel (x <<< 1) (distance + 1) (by omega)
        omega
      · omega

theorem distanceWord_toNat_le (distance x : UInt32) (h : distance.toNat + 32 < 2 ^ 32) :
    (if x = 0 then distance + 32 else clzLoop 32 x distance).toNat ≤ distance.toNat + 32 := by
  split
  · have h32 : (32 : UInt32).toNat = 32 := rfl
    rw [UInt32.toNat_add, h32, Nat.mod_eq_of_lt h]
  · exact clzLoop_toNat_le 32 x distance h

/-- A fold whose every step adds at most `c`, short of wrapping, adds at most
`c` per item. -/
theorem foldl_toNat_le {β : Type*} {f : UInt32 → β → UInt32} {c : Nat}
    (hf : ∀ d x, d.toNat + c < 2 ^ 32 → (f d x).toNat ≤ d.toNat + c) :
    ∀ (l : List β) (d : UInt32), d.toNat + c * l.length < 2 ^ 32 →
      (l.foldl f d).toNat ≤ d.toNat + c * l.length
  | [], _, _ => by simp
  | x :: l, d, h => by
      rw [List.foldl_cons, List.length_cons, Nat.mul_succ] at *
      have hx := hf d x (by omega)
      have := foldl_toNat_le hf l (f d x) (by omega)
      omega

theorem ipDistance_toNat_le (a b : CtdbSockAddr) : (ipDistance a b).toNat ≤ 128 := by
  have hlen : ((ipKey a).words.zip (ipKey b).words).length = 4 := rfl
  have h := foldl_toNat_le (fun d (p : UInt32 × UInt32) h => distanceWord_toNat_le d (p.1 ^^^ p.2) h)
    ((ipKey a).words.zip (ipKey b).words) 0 (by rw [hlen]; decide)
  rw [hlen] at h
  exact h

theorem distSq_le (a b : PublicIp) : distSq a b ≤ 128 * 128 :=
  Nat.mul_le_mul (ipDistance_toNat_le _ _) (ipDistance_toNat_le _ _)

/-! ## The imbalance as a pair sum -/

/-- The class of an entry for the imbalance of node `n`: the entries `n`
holds, and no class for the others. -/
def nodeClass (n : Nat) (t : PublicIp) : Option Nat :=
  if t.pnn = some n then some n else none

/-- The imbalance of node `n` without wrapping: the squared distances of the
pairs of addresses it holds. -/
def nodeImbalance (n : Nat) (l : List PublicIp) : ℕ :=
  pairSum (nodeClass n) distSq l

/-- The imbalance of the whole cluster: the pairs of addresses one node
holds, over all nodes. -/
def lcp2Potential (l : List PublicIp) : ℕ :=
  pairSum PublicIp.pnn distSq l

theorem classSum_nodeClass (n : Nat) (x : PublicIp) (l : List PublicIp) :
    classSum (nodeClass n) distSq (some n) x l = classSum PublicIp.pnn distSq (some n) x l := by
  unfold classSum classTerm
  congr 1
  refine List.map_congr_left fun t _ => ?_
  by_cases h : t.pnn = some n <;> simp [nodeClass, h]

/-- The step of `ip_distance_2_sum`'s loop. -/
def distance2Step (ip : CtdbSockAddr) (self pnn : Nat) (sum : UInt32) : PublicIp × Nat → UInt32
  | (t, j) =>
      if t.pnn ≠ some pnn then sum
      else if j = self then sum
      else
        let d := ipDistance ip t.addr
        sum + d * d

theorem ipDistance2Sum_eq_foldl (ip : CtdbSockAddr) (self : Nat) (ips : List (PublicIp × Nat)) (pnn : Nat) :
    ipDistance2Sum ip self ips pnn = ips.foldl (distance2Step ip self pnn) 0 := rfl

theorem distance2Step_of_ne (x t : PublicIp) {self j : Nat} (n : Nat) (sum : UInt32) (hj : j ≠ self) :
    distance2Step x.addr self n sum (t, j) =
      sum + UInt32.ofNat (classTerm PublicIp.pnn distSq (some n) x t) := by
  by_cases h : t.pnn = some n
  · simp [distance2Step, classTerm, distSq, h, hj, UInt32.ofNat_mul]
  · simp [distance2Step, classTerm, h]

theorem foldl_distance2Step_of_lt (x : PublicIp) (n : Nat) {self : Nat} :
    ∀ (l : List PublicIp) (k : Nat) (sum : UInt32), self < k →
      (l.zipIdx k).foldl (distance2Step x.addr self n) sum =
        sum + UInt32.ofNat (classSum PublicIp.pnn distSq (some n) x l)
  | [], _, sum, _ => by simp
  | t :: l, k, sum, h => by
      rw [List.zipIdx_cons, List.foldl_cons, distance2Step_of_ne x t n sum (by omega),
        foldl_distance2Step_of_lt x n l (k + 1) _ (by omega), classSum_cons, UInt32.ofNat_add,
        UInt32.add_assoc]

/-- Leaving out the entry at position `self` by its position leaves it out of
the class sum. -/
theorem foldl_distance2Step_self (x : PublicIp) (n : Nat) {self : Nat} :
    ∀ (l : List PublicIp) (k : Nat) (sum : UInt32), k ≤ self →
      (l.zipIdx k).foldl (distance2Step x.addr self n) sum =
        sum + UInt32.ofNat (classSum PublicIp.pnn distSq (some n) x (l.eraseIdx (self - k)))
  | [], _, sum, _ => by simp
  | t :: l, k, sum, h => by
      rw [List.zipIdx_cons, List.foldl_cons]
      rcases Nat.lt_or_eq_of_le h with hlt | rfl
      · obtain ⟨m, hm⟩ : ∃ m, self - k = m + 1 := ⟨self - k - 1, by omega⟩
        rw [distance2Step_of_ne x t n sum (by omega), foldl_distance2Step_self x n l (k + 1) _ hlt,
          hm, List.eraseIdx_cons_succ, classSum_cons, UInt32.ofNat_add, UInt32.add_assoc,
          show self - (k + 1) = m by omega]
      · have hskip : distance2Step x.addr k n sum (t, k) = sum := by
          simp [distance2Step]
        rw [hskip, foldl_distance2Step_of_lt x n l (k + 1) sum (Nat.lt_succ_self k), Nat.sub_self,
          List.eraseIdx_cons_zero]

/-- `ip_distance_2_sum` over the whole list, the address at position `i`
left out: the class sum of the address over the rest, modulo 2^32. -/
theorem ipDistance2Sum_eq (l : List PublicIp) (x : PublicIp) (i n : Nat) :
    ipDistance2Sum x.addr i l.zipIdx n =
      UInt32.ofNat (classSum PublicIp.pnn distSq (some n) x (l.eraseIdx i)) := by
  rw [ipDistance2Sum_eq_foldl, foldl_distance2Step_self x n l 0 0 (Nat.zero_le i), Nat.sub_zero,
    UInt32.zero_add]

/-- The step of `lcp2_imbalance`'s loop. -/
def imbalanceStep (allIps : List PublicIp) (pnn : Nat) (imbalance : UInt32) : PublicIp × Nat → UInt32
  | (t, i) =>
      if t.pnn ≠ some pnn then imbalance
      else imbalance + ipDistance2Sum t.addr i (allIps.zipIdx.drop (i + 1)) pnn

theorem lcp2Imbalance_eq_foldl (allIps : List PublicIp) (pnn : Nat) :
    lcp2Imbalance allIps pnn = allIps.zipIdx.foldl (imbalanceStep allIps pnn) 0 := rfl

theorem zipIdx_drop {α : Type*} : ∀ (l : List α) (k j : Nat),
    (l.zipIdx k).drop j = (l.drop j).zipIdx (k + j)
  | [], _, _ => by simp
  | _ :: _, _, 0 => rfl
  | x :: l, k, j + 1 => by
      rw [List.zipIdx_cons, List.drop_succ_cons, List.drop_succ_cons, zipIdx_drop l (k + 1) j,
        Nat.add_right_comm, Nat.add_assoc]

theorem foldl_imbalanceStep (l : List PublicIp) (n : Nat) :
    ∀ (s : List PublicIp) (j : Nat), l.drop j = s → ∀ imbalance : UInt32,
      (s.zipIdx j).foldl (imbalanceStep l n) imbalance =
        imbalance + UInt32.ofNat (nodeImbalance n s)
  | [], _, _, imbalance => by simp [nodeImbalance, pairSum]
  | t :: s, j, hs, imbalance => by
      have hs' : l.drop (j + 1) = s := by rw [← List.tail_drop, hs, List.tail_cons]
      have hstep : imbalanceStep l n imbalance (t, j) =
          imbalance + UInt32.ofNat (classSum (nodeClass n) distSq (nodeClass n t) t s) := by
        by_cases h : t.pnn = some n
        · rw [imbalanceStep, if_neg (not_not.mpr h), ipDistance2Sum_eq_foldl, zipIdx_drop, hs',
            Nat.zero_add, foldl_distance2Step_of_lt t n s (j + 1) 0 (Nat.lt_succ_self j),
            UInt32.zero_add, nodeClass, if_pos h, classSum_nodeClass]
        · simp [imbalanceStep, nodeClass, h]
      rw [List.zipIdx_cons, List.foldl_cons, hstep, foldl_imbalanceStep l n s (j + 1) hs',
        nodeImbalance, nodeImbalance, pairSum_cons, UInt32.ofNat_add, UInt32.add_assoc]

theorem lcp2Imbalance_eq (l : List PublicIp) (n : Nat) :
    lcp2Imbalance l n = UInt32.ofNat (nodeImbalance n l) := by
  rw [lcp2Imbalance_eq_foldl, ← UInt32.zero_add (UInt32.ofNat _)]
  exact foldl_imbalanceStep l n l 0 (List.drop_zero) 0

/-! ## One move -/

section Move

variable {l : List PublicIp} {i : Nat}

/-- Moving the entry at `i` to the holder `p` changes a pair sum, over any
classes of the entries, by the entry's class sum against its new class less
the one against its old class. -/
theorem pairSum_setIpPnn (cls : PublicIp → Option Nat) (h : i < l.length) (p : Option Nat) :
    pairSum cls distSq (setIpPnn l i p) + classSum cls distSq (cls l[i]) l[i] (l.eraseIdx i) =
      pairSum cls distSq l + classSum cls distSq (cls { l[i] with pnn := p }) l[i] (l.eraseIdx i) := by
  have hl : l.take i ++ l[i] :: l.drop (i + 1) = l := by
    rw [List.getElem_cons_drop, List.take_append_drop]
  rw [setIpPnn, List.modify_eq_take_cons_drop h, List.eraseIdx_eq_take_drop_succ]
  refine (@pairSum_move PublicIp Nat _ cls distSq distSq_comm l[i] { l[i] with pnn := p }
    (fun _ => rfl) _ _).trans ?_
  rw [hl]

/-- The destination's imbalance grows by the address's distance sum to it. -/
theorem lcp2Imbalance_setIpPnn_dst {d : Nat} (h : i < l.length) (hne : l[i].pnn ≠ some d) :
    lcp2Imbalance (setIpPnn l i (some d)) d =
      lcp2Imbalance l d + ipDistance2Sum l[i].addr i l.zipIdx d := by
  have key := pairSum_setIpPnn (nodeClass d) h (some d)
  have hold : nodeClass d l[i] = none := by simp [nodeClass, hne]
  have hnew : nodeClass d { l[i] with pnn := some d } = some d := by simp [nodeClass]
  rw [hold, hnew, classSum_none, Nat.add_zero, classSum_nodeClass] at key
  rw [lcp2Imbalance_eq, lcp2Imbalance_eq, ipDistance2Sum_eq, nodeImbalance, nodeImbalance, key,
    UInt32.ofNat_add]

theorem lcp2Imbalance_setIpPnn_other {n : Nat} (h : i < l.length) (hn : l[i].pnn ≠ some n)
    (p : Option Nat) (hp : p ≠ some n) :
    lcp2Imbalance (setIpPnn l i p) n = lcp2Imbalance l n := by
  have key := pairSum_setIpPnn (nodeClass n) h p
  have hold : nodeClass n l[i] = none := by simp [nodeClass, hn]
  have hnew : nodeClass n { l[i] with pnn := p } = none := by simp [nodeClass, hp]
  rw [hold, hnew, classSum_none] at key
  rw [lcp2Imbalance_eq, lcp2Imbalance_eq, nodeImbalance, nodeImbalance, Nat.add_right_cancel key]

end Move

/-! ## The two passes against the table -/

/-- The table `lcp2_init` fills: each node's imbalance, modulo 2^32. -/
def exactTable (numnodes : Nat) (allIps : List PublicIp) : List UInt32 :=
  (List.range numnodes).map (lcp2Imbalance allIps)

theorem lcp2Init_fst (numnodes : Nat) (allIps : List PublicIp) (force : Option (List UInt32)) :
    (lcp2Init numnodes allIps force).1 = exactTable numnodes allIps := by
  cases force <;> rfl

theorem lcp2Init_snd_some (numnodes : Nat) (allIps : List PublicIp) (force : List UInt32) :
    (lcp2Init numnodes allIps (some force)).2 =
      force.foldl (fun c pnn => if pnn.toNat ≥ numnodes then c else c.set pnn.toNat true)
        (allIps.foldl (fun c ip => match ip.pnn with
          | some pnn => c.set pnn false
          | none => c) (List.replicate numnodes true)) := rfl

theorem getD_exactTable {numnodes d : Nat} (allIps : List PublicIp) (hd : d < numnodes) :
    (exactTable numnodes allIps).getD d 0 = lcp2Imbalance allIps d := by
  simp [exactTable, hd]

/-- Giving node `d` an address without a holder: the exact table after is
the one before with `d`'s entry raised by the address's distance sum. -/
theorem exactTable_setIpPnn {numnodes d : Nat} {l : List PublicIp} {i : Nat} (h : i < l.length)
    (hnone : l[i].pnn = none) (hd : d < numnodes) :
    exactTable numnodes (setIpPnn l i (some d)) =
      (exactTable numnodes l).set d
        ((exactTable numnodes l).getD d 0 + ipDistance2Sum l[i].addr i l.zipIdx d) := by
  rw [getD_exactTable l hd]
  apply List.ext_getElem
  · simp [exactTable]
  · intro n _ _
    rw [List.getElem_set]
    simp only [exactTable, List.getElem_map, List.getElem_range]
    split
    · next hdn =>
        subst hdn
        exact lcp2Imbalance_setIpPnn_dst h (by simp [hnone])
    · next hdn =>
        exact lcp2Imbalance_setIpPnn_other h (by simp [hnone]) (some d) (by simpa using hdn)

section Allocate

variable (nodes : List TakeoverNode)

theorem lcp2AllocateUnassignedLoop_exact : ∀ (fuel : Nat) (st : List PublicIp × List UInt32),
    st.2 = exactTable nodes.length st.1 →
      (lcp2AllocateUnassignedLoop nodes fuel st).2 =
        exactTable nodes.length (lcp2AllocateUnassignedLoop nodes fuel st).1
  | 0, _, h => h
  | fuel + 1, (ips, imbalances), h => by
      rw [lcp2AllocateUnassignedLoop]
      split
      · exact h
      · next m hm =>
          obtain ⟨e, hi, hnone, hcap, himbl⟩ := lcp2BestUnassigned_some hm
          obtain ⟨hlt, he⟩ := List.getElem?_eq_some_iff.mp hi
          subst he
          have hd := lt_of_canNodeHostIp (canNodeHostIp_of_takeover hcap)
          have hstep : imbalances.set m.node m.imbl =
              exactTable nodes.length (setIpPnn ips m.ip (some m.node)) := by
            dsimp only at h
            rw [himbl, exactTable_setIpPnn hlt hnone hd, h]
          dsimp only
          split
          · exact lcp2AllocateUnassignedLoop_exact fuel _ hstep
          · exact hstep

theorem lcp2AllocateUnassigned_table_exact (fuel : Nat) (allIps : List PublicIp)
    (force : Option (List UInt32)) :
    (lcp2AllocateUnassignedLoop nodes fuel (allIps, (lcp2Init nodes.length allIps force).1)).2 =
      exactTable nodes.length
        (lcp2AllocateUnassignedLoop nodes fuel (allIps, (lcp2Init nodes.length allIps force).1)).1 :=
  lcp2AllocateUnassignedLoop_exact nodes fuel _ (lcp2Init_fst _ _ _)

end Allocate

/-- Two nodes: node 0 holds three addresses, two of them close together, and
node 1 holds none and can host the first. -/
def imbalanceCluster : List TakeoverNode :=
  [⟨⟨false, false⟩, false,
      some [((.inet 0x0A000003 0), 0), ((.inet 0x0A000002 0), 0), ((.inet 0x00000001 0), 0)],
      some [(.inet 0x0A000003 0), (.inet 0x0A000002 0), (.inet 0x00000001 0)]⟩,
    ⟨⟨false, false⟩, false, some [], some [(.inet 0x0A000003 0)]⟩]

theorem lcp2FailbackRound_inexact :
    lcp2FailbackRound imbalanceCluster
        (lcp2Init 2 (createMergedIpList imbalanceCluster) none).2
        (lcp2AllocateUnassigned imbalanceCluster (createMergedIpList imbalanceCluster)
          (lcp2Init 2 (createMergedIpList imbalanceCluster) none).1) =
      some (setIpPnn (createMergedIpList imbalanceCluster) 0 (some 1), [16129, 0]) ∧
    exactTable 2 (setIpPnn (createMergedIpList imbalanceCluster) 0 (some 1)) = [10000, 0] := by
  decide

end Ctdb

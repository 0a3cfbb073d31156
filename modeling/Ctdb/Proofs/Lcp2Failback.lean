import Ctdb.Proofs.IpKey

/-!
# `lcp2_failback` stops where no move helps

`lcp2_failback` sorts the nodes by their table entry, largest first, and
offers each node of non-zero entry in turn to `lcp2_failback_candidate`; the
first move found is made and the loop starts again. Nothing in the loop
counts, so it stops only because the moves it makes stop helping.

What each move costs is read off the list, not off the table: an address
moves from `s` to `d` only when its distance sum to `d` is below the one to
`s`. Below 2^32 these sums are exact, so the move lowers the imbalance of
the whole cluster (`lcp2Potential`), by `Lib.pairSum_move`
(`lcp2FailbackRound_potential_lt`). With at most 2^18 addresses no distance
sum wraps, and the potential is a measure: the loop returns, and returns the
same state for every fuel above the potential (`lcp2Failback_settles`).

When it returns, it is because no node is a rebalance candidate or because a
whole round found nothing. The sort puts every node of non-zero entry before
the first node of entry 0, where the round stops, so every such node was
offered, and a candidate search that finds nothing has rejected every
address and destination (`lcp2FailbackCandidate_none`). So no improving move
is left (`Lcp2Settled`).

Past 2^18 addresses a distance sum can wrap to a small number, also when
all addresses are distinct, and the test is then passed by a move that raises
the potential (`lcp2FailbackRound_potential_wraps`). The sums of the two
blocks of addresses there are counted by halving the blocks
(`pairSum_ipBlock`, `classSum_ipBlock_head`), since no list of that size can
be evaluated.
-/

namespace Ctdb

open Lib

section Failback

variable {nodes : List TakeoverNode} {candidates : List Bool}

/-- A search of `lcp2_failback_candidate` that finds nothing has rejected
every address of the source and every destination that could take it. -/
theorem lcp2FailbackCandidate_none {ips : List PublicIp} {srcnode : Nat} {candimbl : UInt32}
    {imbalances : List UInt32}
    (h : lcp2FailbackCandidate nodes ips srcnode candimbl imbalances candidates = none)
    {i : Nat} {e : PublicIp} (hi : ips[i]? = some e) (hsrc : e.pnn = some srcnode)
    {d : Nat} (hd : d < nodes.length) (hcand : candidates.getD d false = true)
    (hcap : canNodeTakeoverIp nodes d e = true) :
    ¬ (imbalances.getD d 0 + ipDistance2Sum e.addr i ips.zipIdx d < candimbl ∧
        ipDistance2Sum e.addr i ips.zipIdx d < ipDistance2Sum e.addr i ips.zipIdx srcnode) := by
  unfold lcp2FailbackCandidate at h
  split at h
  next srcimbl best hfold =>
  have hnone := (foldl_snd_eq_none_iff (p := fun x : PublicIp × Nat =>
    x.1.pnn = some srcnode ∧ ∃ d ∈ List.range nodes.length, candidates.getD d false = true ∧
      canNodeTakeoverIp nodes d x.1 = true ∧
      (imbalances.getD d 0 + ipDistance2Sum x.1.addr x.2 ips.zipIdx d < candimbl ∧
        ipDistance2Sum x.1.addr x.2 ips.zipIdx d < ipDistance2Sum x.1.addr x.2 ips.zipIdx srcnode))
    (fun s acc x => ?_) _ _).mp (by rw [hfold]; exact Option.map_eq_none_iff.mp h)
  · intro hmove
    exact hnone.2 (e, i) (List.mem_zipIdx_iff_getElem?.mpr hi)
      ⟨hsrc, d, List.mem_range.mpr hd, hcand, hcap, hmove⟩
  · obtain ⟨ip, j⟩ := x
    dsimp only
    split
    · next hne => simp [hne]
    · next hsrc' =>
        -- the inner loop finds nothing exactly when no destination passes the test
        rw [not_not] at hsrc'
        refine (foldl_eq_none_iff (p := fun d => candidates.getD d false = true ∧
            canNodeTakeoverIp nodes d ip = true ∧
            (imbalances.getD d 0 + ipDistance2Sum ip.addr j ips.zipIdx d < candimbl ∧
              ipDistance2Sum ip.addr j ips.zipIdx d < ipDistance2Sum ip.addr j ips.zipIdx srcnode))
          (fun acc d => ?_) _ _).trans (by simp [hsrc'])
        by_cases hc : candidates.getD d false = true
        · by_cases hk : canNodeTakeoverIp nodes d ip = true
          · simp only [hc, hk, Bool.not_true, Bool.false_eq_true, if_false, true_and]
            cases acc
            · split_ifs with hcond
              · exact iff_of_false id fun h => h.2 ⟨hcond.1, hcond.2.1⟩
              · exact ⟨fun _ => ⟨rfl, fun hab => hcond ⟨hab.1, hab.2, rfl⟩⟩, fun _ => rfl⟩
            · split_ifs <;> simp
          · have hk' : canNodeTakeoverIp nodes d ip = false := by simpa using hk
            simp only [hc, hk', Bool.not_true, Bool.not_false, Bool.false_eq_true, if_false, if_true,
              false_and, and_false, not_false_eq_true, and_true]
        · have hc' : candidates.getD d false = false := by simpa using hc
          simp only [hc', Bool.not_false, if_true, Bool.false_eq_true, false_and, not_false_eq_true,
            and_true]

/-- Where `lcp2_failback` may stop: no address of a node whose table entry
is not zero can go to a rebalance candidate that can take it over and that
passes the test of `lcp2_failback_candidate`. -/
def Lcp2Settled (nodes : List TakeoverNode) (candidates : List Bool)
    (st : List PublicIp × List UInt32) : Prop :=
  ∀ s < nodes.length, st.2.getD s 0 ≠ 0 → ∀ i e, st.1[i]? = some e → e.pnn = some s →
    ∀ d < nodes.length, candidates.getD d false = true → canNodeTakeoverIp nodes d e = true →
      ¬ (st.2.getD d 0 + ipDistance2Sum e.addr i st.1.zipIdx d < st.2.getD s 0 ∧
          ipDistance2Sum e.addr i st.1.zipIdx d < ipDistance2Sum e.addr i st.1.zipIdx s)

/-- A round that finds nothing leaves the state settled: sorted by
decreasing entry, every node of non-zero entry comes before the first node
of entry 0, so each of them was offered. -/
theorem settled_of_lcp2FailbackRound_none {st : List PublicIp × List UInt32}
    (h : lcp2FailbackRound nodes candidates st = none) : Lcp2Settled nodes candidates st := by
  intro s hs hne i e hi hsrc d hd hcand hcap
  have : Std.Total fun a b : UInt32 × Nat => b.1 ≤ a.1 := ⟨fun a b => UInt32.le_total b.1 a.1⟩
  have : IsTrans (UInt32 × Nat) fun a b => b.1 ≤ a.1 :=
    ⟨fun _ _ _ hab hbc => UInt32.le_trans hbc hab⟩
  unfold lcp2FailbackRound at h
  rw [List.findSome?_eq_none_iff] at h
  refine lcp2FailbackCandidate_none (h (st.2.getD s 0, s) ?_) hi hsrc hd hcand hcap
  refine mem_takeWhile_of_pairwise ?_ (List.pairwise_insertionSort _ _) ?_ (by simpa using hne)
  · intro a b hba ha
    simp only [ne_eq, decide_eq_false_iff_not, not_not] at ha ⊢
    rw [ha] at hba
    exact UInt32.le_zero_iff.mp hba
  · rw [List.mem_insertionSort, List.mem_map]
    exact ⟨s, List.mem_range.mpr hs, rfl⟩

/-- A round moves one address of some node `s` to a rebalance candidate
that can take it over, to which the address costs less than to `s`. -/
theorem lcp2FailbackRound_some {st st' : List PublicIp × List UInt32}
    (h : lcp2FailbackRound nodes candidates st = some st') :
    ∃ s i d e, st.1[i]? = some e ∧ e.pnn = some s ∧ candidates.getD d false = true ∧
      canNodeTakeoverIp nodes d e = true ∧
      ipDistance2Sum e.addr i st.1.zipIdx d < ipDistance2Sum e.addr i st.1.zipIdx s ∧
      st'.1 = setIpPnn st.1 i (some d) := by
  obtain ⟨⟨imbalance, s⟩, -, hmove⟩ := List.exists_of_findSome?_eq_some h
  obtain ⟨i, d, e, hi, hsrc, hcand, hcap, hcost, hst⟩ := lcp2FailbackCandidate_some hmove
  exact ⟨s, i, d, e, hi, hsrc, hcand, hcap, hcost, hst⟩

/-! ## The potential -/

/-- With at most 2^18 addresses a distance sum is below 2^32. -/
theorem classSum_eraseIdx_lt {l : List PublicIp} (hlen : l.length ≤ 2 ^ 18) {i : Nat}
    (hi : i < l.length) (c : Option Nat) (x : PublicIp) :
    classSum PublicIp.pnn distSq c x (l.eraseIdx i) < 2 ^ 32 := by
  have hle : classSum PublicIp.pnn distSq c x (l.eraseIdx i) ≤ (l.eraseIdx i).length * (128 * 128) :=
    classSum_le distSq_le c x _
  rw [List.length_eraseIdx_of_lt hi] at hle
  have hmul : (l.length - 1) * (128 * 128) < 2 ^ 32 := by omega
  omega

theorem classSum_lt_of_ipDistance2Sum_lt {l : List PublicIp} (hlen : l.length ≤ 2 ^ 18)
    {i : Nat} (hi : i < l.length) {x : PublicIp} {d s : Nat}
    (h : ipDistance2Sum x.addr i l.zipIdx d < ipDistance2Sum x.addr i l.zipIdx s) :
    classSum PublicIp.pnn distSq (some d) x (l.eraseIdx i) <
      classSum PublicIp.pnn distSq (some s) x (l.eraseIdx i) := by
  rw [ipDistance2Sum_eq, ipDistance2Sum_eq, UInt32.lt_iff_toNat_lt, UInt32.toNat_ofNat',
    UInt32.toNat_ofNat', Nat.mod_eq_of_lt (classSum_eraseIdx_lt hlen hi _ x),
    Nat.mod_eq_of_lt (classSum_eraseIdx_lt hlen hi _ x)] at h
  exact h

/-- A move lowers the potential when the entry weighs less against its new
class than against its old one. -/
theorem lcp2Potential_setIpPnn_lt {l : List PublicIp} {i : Nat} (h : i < l.length) {p : Option Nat}
    (hless : classSum PublicIp.pnn distSq p l[i] (l.eraseIdx i) <
      classSum PublicIp.pnn distSq l[i].pnn l[i] (l.eraseIdx i)) :
    lcp2Potential (setIpPnn l i p) < lcp2Potential l := by
  have key := pairSum_setIpPnn PublicIp.pnn h p
  dsimp only at key
  unfold lcp2Potential
  omega

theorem lcp2Potential_lt_setIpPnn {l : List PublicIp} {i : Nat} (h : i < l.length) {p : Option Nat}
    (hmore : classSum PublicIp.pnn distSq l[i].pnn l[i] (l.eraseIdx i) <
      classSum PublicIp.pnn distSq p l[i] (l.eraseIdx i)) :
    lcp2Potential l < lcp2Potential (setIpPnn l i p) := by
  have key := pairSum_setIpPnn PublicIp.pnn h p
  dsimp only at key
  unfold lcp2Potential
  omega

/-- Each move of `lcp2_failback` lowers the imbalance of the cluster. -/
theorem lcp2FailbackRound_potential_lt {st st' : List PublicIp × List UInt32}
    (hlen : st.1.length ≤ 2 ^ 18) (h : lcp2FailbackRound nodes candidates st = some st') :
    lcp2Potential st'.1 < lcp2Potential st.1 := by
  obtain ⟨s, i, d, e, hi, hsrc, -, -, hcost, hst⟩ := lcp2FailbackRound_some h
  obtain ⟨hlt, he⟩ := List.getElem?_eq_some_iff.mp hi
  subst he
  have hless := classSum_lt_of_ipDistance2Sum_lt hlen hlt hcost
  rw [← hsrc] at hless
  rw [hst]
  exact lcp2Potential_setIpPnn_lt hlt hless

/-! ## The loop -/

theorem any_take_of_candidate {d : Nat} (hd : d < nodes.length)
    (hcand : candidates.getD d false = true) : (candidates.take nodes.length).any id = true := by
  rw [List.getD_eq_getElem?_getD] at hcand
  cases hc : candidates[d]? with
  | none => simp [hc] at hcand
  | some b =>
      rw [hc, Option.getD_some] at hcand
      subst hcand
      have htake : (candidates.take nodes.length)[d]? = some true := by
        rw [List.getElem?_take_of_lt hd, hc]
      exact List.any_eq_true.mpr ⟨true, List.mem_of_getElem? htake, rfl⟩

variable (nodes candidates) in
/-- With at most 2^18 addresses `lcp2_failback` returns, on every fuel above
the potential the same state, and that state is settled. The induction is on
the potential, which each round lowers. -/
theorem lcp2Failback_settles : ∀ st : List PublicIp × List UInt32, st.1.length ≤ 2 ^ 18 →
    ∃ st', (∀ fuel, lcp2Potential st.1 < fuel → lcp2Failback nodes candidates fuel st = some st') ∧
      Lcp2Settled nodes candidates st' := by
  intro st hlen
  induction hpot : lcp2Potential st.1 using Nat.strong_induction_on generalizing st with
  | _ p ih =>
  by_cases hany : (candidates.take nodes.length).any id = true
  · have hgo : ∀ f, lcp2Failback nodes candidates (f + 1) st =
        (lcp2FailbackRound nodes candidates st).elim (some st) (lcp2Failback nodes candidates f) := by
      intro f
      rw [lcp2Failback, if_neg (by simp [hany])]
      cases lcp2FailbackRound nodes candidates st <;> rfl
    cases hround : lcp2FailbackRound nodes candidates st with
    | none =>
        refine ⟨st, fun fuel hfuel => ?_, settled_of_lcp2FailbackRound_none hround⟩
        obtain ⟨f, rfl⟩ : ∃ f, fuel = f + 1 := ⟨fuel - 1, by omega⟩
        rw [hgo, hround, Option.elim_none]
    | some st₂ =>
        have hlt := lcp2FailbackRound_potential_lt hlen hround
        have hlen₂ : st₂.1.length ≤ 2 ^ 18 := by
          obtain ⟨_, _, _, _, _, _, _, _, _, hst⟩ := lcp2FailbackRound_some hround
          rw [hst, length_setIpPnn]
          exact hlen
        obtain ⟨st', hrun, hsettled⟩ := ih _ (hpot ▸ hlt) st₂ hlen₂ rfl
        refine ⟨st', fun fuel hfuel => ?_, hsettled⟩
        obtain ⟨f, rfl⟩ : ∃ f, fuel = f + 1 := ⟨fuel - 1, by omega⟩
        rw [hgo, hround, Option.elim_some]
        exact hrun f (by omega)
  · refine ⟨st, fun fuel hfuel => ?_, ?_⟩
    · obtain ⟨f, rfl⟩ : ∃ f, fuel = f + 1 := ⟨fuel - 1, by omega⟩
      rw [lcp2Failback, if_pos (by simpa using hany)]
    · intro _ _ _ _ _ _ _ d hd hcand _
      exact absurd (any_take_of_candidate hd hcand) hany

theorem lcp2Failback_terminates (nodes : List TakeoverNode) (candidates : List Bool)
    {st : List PublicIp × List UInt32} (hlen : st.1.length ≤ 2 ^ 18) :
    (∀ st₁ st₂ : List PublicIp × List UInt32, st₁.1.length = st.1.length →
        lcp2FailbackRound nodes candidates st₁ = some st₂ →
          lcp2Potential st₂.1 < lcp2Potential st₁.1) ∧
      ∃ st', (∀ fuel, lcp2Potential st.1 < fuel → lcp2Failback nodes candidates fuel st = some st') ∧
        Lcp2Settled nodes candidates st' :=
  ⟨fun _ _ h₁ h => lcp2FailbackRound_potential_lt (h₁ ▸ hlen) h,
    lcp2Failback_settles nodes candidates st hlen⟩

end Failback

theorem lcp2Failback_terminates_three :
    (createMergedIpList imbalanceCluster).length ≤ 2 ^ 18 ∧
      ((∀ st₁ st₂ : List PublicIp × List UInt32,
          st₁.1.length = (createMergedIpList imbalanceCluster).length →
          lcp2FailbackRound imbalanceCluster [false, true] st₁ = some st₂ →
            lcp2Potential st₂.1 < lcp2Potential st₁.1) ∧
        ∃ st', (∀ fuel, lcp2Potential (createMergedIpList imbalanceCluster) < fuel →
            lcp2Failback imbalanceCluster [false, true] fuel
              (createMergedIpList imbalanceCluster,
                exactTable 2 (createMergedIpList imbalanceCluster)) = some st') ∧
          Lcp2Settled imbalanceCluster [false, true] st') :=
  ⟨by decide, @lcp2Failback_terminates imbalanceCluster [false, true]
    (createMergedIpList imbalanceCluster, exactTable 2 (createMergedIpList imbalanceCluster))
    (by decide)⟩

/-! ## Past 2^18 addresses -/

/-- `10.0.0.0`. -/
def wrapBase : Nat := 0x0A000000

/-- Node 0 holds the 2^18 addresses of `10.0.0.0/14` and node 1 the 2^19 of
`10.8.0.0/13`. From `10.0.0.0` every address of node 1 is at distance 108,
so its distance sum to node 1 is `2 ^ 19 * 108 ^ 2`, above 2^32. -/
def wrapIps : List PublicIp := ipBlock 0 18 wrapBase ++ ipBlock 1 19 (wrapBase + 2 ^ 19)

/-- Each node can host the addresses it holds, and node 1 also `10.0.0.0`. -/
def wrapCluster : List TakeoverNode :=
  [⟨⟨false, false⟩, false, none, some ((ipBlock 0 18 wrapBase).map (·.addr))⟩,
    ⟨⟨false, false⟩, false, none,
      some (.inet (UInt32.ofNat wrapBase) 0 :: (ipBlock 1 19 (wrapBase + 2 ^ 19)).map (·.addr))⟩]

/-- The first address, `10.0.0.0` on node 0. -/
def wrapIp : PublicIp := ⟨some 0, .inet (UInt32.ofNat wrapBase) 0⟩

theorem wrapIps_eq : wrapIps = wrapIp :: ((ipBlock 0 18 wrapBase).tail ++ ipBlock 1 19 (wrapBase + 2 ^ 19)) := by
  rw [wrapIps, ipBlock_eq_cons 0 18 wrapBase, List.cons_append, List.tail_cons]
  rfl

theorem pnn_ne_of_mem_ipBlock {n m k base : Nat} (h : n ≠ m) {a : PublicIp} (ha : a ∈ ipBlock n k base) :
    a.pnn ≠ some m := by
  rw [pnn_of_mem_ipBlock ha]
  simpa using h

/-- The distance sums of `10.0.0.0` over the other entries: to its own block
on node 0, and to the block of node 1 in the upper half of `10.0.0.0/12`. -/
theorem classSum_wrapIp (m : Nat) :
    classSum PublicIp.pnn distSq (some m) wrapIp (wrapIps.eraseIdx 0) =
      (if m = 0 then blockHeadSum 18 - 128 * 128 else 0) + (if m = 1 then 2 ^ 19 * (108 * 108) else 0) := by
  have hself : classTerm PublicIp.pnn distSq (some 0) wrapIp ⟨some 0, .inet (UInt32.ofNat wrapBase) 0⟩ =
      128 * 128 := by
    simp [classTerm, wrapIp, distSq, ipDistance_self]
  have hown : classSum PublicIp.pnn distSq (some 0) wrapIp (ipBlock 0 18 wrapBase) = blockHeadSum 18 :=
    classSum_ipBlock_head (fun _ h => h) (some 0) 18 wrapBase (by omega) (by decide) (by decide)
  rw [ipBlock_eq_cons, classSum_cons, hself] at hown
  have hlow (h : m ≠ 0) : classSum PublicIp.pnn distSq (some m) wrapIp (ipBlock 0 18 wrapBase).tail = 0 :=
    classSum_eq_zero fun b hb => pnn_ne_of_mem_ipBlock (Ne.symm h) (List.mem_of_mem_tail hb)
  have hhigh (h : m ≠ 1) : classSum PublicIp.pnn distSq (some m) wrapIp (ipBlock 1 19 (wrapBase + 2 ^ 19)) = 0 :=
    classSum_eq_zero fun b hb => pnn_ne_of_mem_ipBlock (Ne.symm h) hb
  rw [wrapIps_eq, List.eraseIdx_cons_zero, classSum_append]
  rcases Nat.lt_trichotomy m 1 with hm | rfl | hm
  · obtain rfl : m = 0 := by omega
    rw [hhigh Nat.zero_ne_one, if_pos rfl, if_neg Nat.zero_ne_one]
    omega
  · -- `10.0.0.0` is in the lower half of `10.0.0.0/12`, node 1's block the upper
    have hx : wrapIp ∈ ipBlock 0 19 wrapBase := mem_ipBlock.mpr ⟨0, by decide, rfl⟩
    have hcross := @classSum_of_forall PublicIp Nat _ PublicIp.pnn distSq (108 * 108) 1 wrapIp
      (ipBlock 1 19 (wrapBase + 2 ^ 19)) fun b hb =>
        ⟨pnn_of_mem_ipBlock hb, distSq_ipBlock_halves (by decide) (by decide) (by decide) hx hb⟩
    rw [length_ipBlock] at hcross
    rw [hlow Nat.one_ne_zero, hcross, if_neg Nat.one_ne_zero, if_pos rfl]
  · rw [hlow (by omega), hhigh (by omega), if_neg (by omega), if_neg (by omega)]

theorem exactTable_wrapIps :
    exactTable 2 wrapIps = [UInt32.ofNat (blockPairSum 18), UInt32.ofNat (blockPairSum 19)] := by
  have hcls (n : Nat) : ∀ a : PublicIp, a.pnn = some n → nodeClass n a = some n := fun a h => by
    simp [nodeClass, h]
  have hnone (n m : Nat) {k base : Nat} (h : n ≠ m) : ∀ a ∈ ipBlock n k base, nodeClass m a = none :=
    fun a ha => by simp [nodeClass, pnn_ne_of_mem_ipBlock h ha]
  -- each node's imbalance is the pair sum of its own block
  have h0 : nodeImbalance 0 wrapIps = blockPairSum 18 := by
    rw [nodeImbalance, wrapIps, @pairSum_append_of_disjoint PublicIp Nat _ (nodeClass 0) distSq
        (ipBlock 0 18 wrapBase) (ipBlock 1 19 (wrapBase + 2 ^ 19)) ?_,
      pairSum_ipBlock (hcls 0) 18 wrapBase (by omega) (by decide) (by decide),
      pairSum_eq_zero (hnone 1 0 (by decide)), Nat.add_zero]
    intro a ha b hb
    rw [hnone 1 0 (by decide) b hb, hcls 0 a (pnn_of_mem_ipBlock ha)]
    exact (Option.some_ne_none 0).symm
  have h1 : nodeImbalance 1 wrapIps = blockPairSum 19 := by
    rw [nodeImbalance, wrapIps, @pairSum_append_of_disjoint PublicIp Nat _ (nodeClass 1) distSq
        (ipBlock 0 18 wrapBase) (ipBlock 1 19 (wrapBase + 2 ^ 19)) ?_,
      pairSum_ipBlock (hcls 1) 19 (wrapBase + 2 ^ 19) (by omega) (by decide) (by decide),
      pairSum_eq_zero (hnone 0 1 (by decide)), Nat.zero_add]
    intro a ha b hb
    rw [hnone 0 1 (by decide) a ha, hcls 1 b (pnn_of_mem_ipBlock hb)]
    exact Option.some_ne_none 1
  show [lcp2Imbalance wrapIps 0, lcp2Imbalance wrapIps 1] = _
  rw [lcp2Imbalance_eq, lcp2Imbalance_eq, h0, h1]

/-- `lcp2_init`'s candidates when node 0 holds the first entries and node 1
the others, and node 1 is forced to rebalance: each node's first entry clears
it, the other entries change nothing, and the force sets node 1 again. -/
theorem lcp2Init_snd_two_nodes {l l' : List PublicIp} (hl : l ≠ []) (hl' : l' ≠ [])
    (h0 : ∀ a ∈ l, a.pnn = some 0) (h1 : ∀ a ∈ l', a.pnn = some 1) :
    (lcp2Init 2 (l ++ l') (some [1])).2 = [false, true] := by
  obtain ⟨a, l, rfl⟩ := List.exists_cons_of_ne_nil hl
  obtain ⟨b, l', rfl⟩ := List.exists_cons_of_ne_nil hl'
  simp only [lcp2Init_snd_some, List.foldl_append, List.foldl_cons, List.foldl_nil, h0 a List.mem_cons_self,
    h1 b List.mem_cons_self]
  rw [foldl_eq_self_of_mem (l := l) ?_, foldl_eq_self_of_mem (l := l') ?_]
  · rfl
  · intro x hx
    rw [h1 x (List.mem_cons_of_mem b hx)]
    rfl
  · intro x hx
    rw [h0 x (List.mem_cons_of_mem a hx)]
    rfl

/-- These are the table and the candidates `lcp2_init` gives for node 1
forced to rebalance. -/
theorem lcp2Init_wrapIps : lcp2Init 2 wrapIps (some [1]) = (exactTable 2 wrapIps, [false, true]) := by
  refine Prod.ext (lcp2Init_fst _ _ _) ?_
  rw [wrapIps]
  exact lcp2Init_snd_two_nodes (ipBlock_ne_nil 0 18 wrapBase) (ipBlock_ne_nil 1 19 _)
    (fun _ ha => pnn_of_mem_ipBlock ha) (fun _ hb => pnn_of_mem_ipBlock hb)

/-- `10.0.0.0` passes the test for node 1: its distance sum to node 1 wraps
to below the one to node 0, and so does the table entry of node 1 with it. -/
theorem not_settled_wrapIps : ¬ Lcp2Settled wrapCluster [false, true] (wrapIps, exactTable 2 wrapIps) := by
  have hcap : canNodeTakeoverIp wrapCluster 1 wrapIp = true := rfl
  have h0 : wrapIps[0]? = some wrapIp := by rw [wrapIps_eq]; rfl
  intro hs
  apply hs 0 (by decide) (by rw [exactTable_wrapIps]; decide) 0 wrapIp h0 rfl 1 (by decide) rfl hcap
  rw [exactTable_wrapIps, ipDistance2Sum_eq, ipDistance2Sum_eq, classSum_wrapIp, classSum_wrapIp]
  decide

/-- An entry of node 0 that node 1 can take over is `10.0.0.0`. -/
theorem eq_zero_of_canNodeTakeoverIp {i : Nat} (hi : i < 2 ^ 18)
    (h : canNodeTakeoverIp wrapCluster 1 ⟨some 0, .inet (UInt32.ofNat (wrapBase + i)) 0⟩ = true) : i = 0 := by
  have hany := canNodeHostIp_of_takeover h
  rw [canNodeHostIp_eq_any rfl rfl rfl] at hany
  have hbase : wrapBase + 2 ^ 20 ≤ 2 ^ 32 := by decide
  rw [List.any_cons, Bool.or_eq_true, List.any_map, List.any_eq_true] at hany
  rcases hany with hsame | ⟨b, hb, hsame⟩
  · have := eq_of_ctdbSameIp_ofNat (by omega) (by omega) hsame
    omega
  · obtain ⟨j, hj, rfl⟩ := mem_ipBlock.mp hb
    have := eq_of_ctdbSameIp_ofNat (by omega) (by omega) hsame
    omega

/-- So the round moves an address, and it can only be that one. -/
theorem lcp2FailbackRound_wrapIps : ∃ st',
    lcp2FailbackRound wrapCluster [false, true] (wrapIps, exactTable 2 wrapIps) = some st' ∧
      st'.1 = setIpPnn wrapIps 0 (some 1) := by
  cases hround : lcp2FailbackRound wrapCluster [false, true] (wrapIps, exactTable 2 wrapIps) with
  | none => exact absurd (settled_of_lcp2FailbackRound_none hround) not_settled_wrapIps
  | some st' =>
      refine ⟨st', rfl, ?_⟩
      obtain ⟨s, i, d, e, hi, hsrc, hcand, hcap, hcost, hst⟩ := lcp2FailbackRound_some hround
      have hd : d = 1 := by
        rcases d with _ | _ | d
        · simp at hcand
        · rfl
        · simp at hcand
      subst hd
      rcases Nat.lt_or_ge i (2 ^ 18) with hlt | hge
      · -- an entry of node 0 that node 1 can host
        rw [wrapIps, List.getElem?_append_left (by simpa using hlt), getElem?_ipBlock hlt,
          Option.some.injEq] at hi
        subst hi
        rw [eq_zero_of_canNodeTakeoverIp hlt hcap] at hst
        exact hst
      · -- an entry of node 1 would move to node 1, at no gain
        have hmem : e ∈ ipBlock 1 19 (wrapBase + 2 ^ 19) := by
          rw [wrapIps, List.getElem?_append_right (by simpa using hge)] at hi
          exact List.mem_of_getElem? hi
        rw [pnn_of_mem_ipBlock hmem, Option.some.injEq] at hsrc
        subst hsrc
        exact absurd hcost (UInt32.lt_irrefl _)

theorem lcp2FailbackRound_potential_wraps :
    lcp2Init 2 wrapIps (some [1]) = (exactTable 2 wrapIps, [false, true]) ∧
      ∃ st', lcp2FailbackRound wrapCluster [false, true] (wrapIps, exactTable 2 wrapIps) = some st' ∧
        lcp2Potential wrapIps < lcp2Potential st'.1 := by
  obtain ⟨st', hround, hst⟩ := lcp2FailbackRound_wrapIps
  refine ⟨lcp2Init_wrapIps, st', hround, ?_⟩
  have h0 : wrapIps[0]? = some wrapIp := by
    rw [wrapIps_eq]
    rfl
  obtain ⟨hpos, hget⟩ := List.getElem?_eq_some_iff.mp h0
  rw [hst]
  refine lcp2Potential_lt_setIpPnn hpos ?_
  rw [hget, show wrapIp.pnn = some 0 from rfl, classSum_wrapIp, classSum_wrapIp]
  decide

end Ctdb

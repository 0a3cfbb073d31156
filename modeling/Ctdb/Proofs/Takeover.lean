import Ctdb.Lib.Fold
import Ctdb.Lib.Entrywise
import Ctdb.Takeover.IpAlloc

/-!
# Where the takeover run puts the public addresses

Every pass of the three allocators after `unassign_unsuitable_ips` does the
same kind of thing to the list: it leaves an entry alone or gives it a node
that can take its address over (`Reassigned`). They differ only in which
entries they may move. The allocation passes touch only entries without a
holder; `basic_failback` may move any entry; the failback of LCP2 moves
entries with a holder only to the rebalance candidates chosen by
`lcp2_init`.

Two things follow for every allocator. After `unassign_unsuitable_ips` every
holder can host its address, and a pass of that kind keeps it so
(`Hostable`). And the allocation pass ends with no entry lacking a holder
that some node could take over, which later passes keep, as they never take a
holder away (`Settled`). For LCP2 the same relation, with the candidates as
the allowed destinations, says that no address is moved gratuitously.
-/

namespace Ctdb

open Lib

section Capability

variable {nodes : List TakeoverNode} {n : Nat}

theorem canNodeHostIp_addr {ip ip' : PublicIp} (h : ip'.addr = ip.addr) :
    canNodeHostIp nodes n ip' = canNodeHostIp nodes n ip := by
  simp only [canNodeHostIp, h]

theorem canNodeTakeoverIp_addr {ip ip' : PublicIp} (h : ip'.addr = ip.addr) :
    canNodeTakeoverIp nodes n ip' = canNodeTakeoverIp nodes n ip := by
  simp only [canNodeTakeoverIp, canNodeHostIp_addr h]

theorem canNodeHostIp_of_takeover {ip : PublicIp} (h : canNodeTakeoverIp nodes n ip = true) :
    canNodeHostIp nodes n ip = true := by
  unfold canNodeTakeoverIp at h
  split at h
  · cases h
  · split at h
    · cases h
    · exact h

/-- A node that may host addresses hosts those its list has under `ctdb_same_ip`. -/
theorem canNodeHostIp_eq_any {node : TakeoverNode} {ips : List CtdbSockAddr} (hn : nodes[n]? = some node)
    (hhost : node.ipflags.noiphost = false) (hips : node.availablePublicIps = some ips) (ip : PublicIp) :
    canNodeHostIp nodes n ip = ips.any (ctdbSameIp ip.addr) := by
  simp [canNodeHostIp, hn, hhost, hips]

theorem lt_of_canNodeHostIp {ip : PublicIp} (h : canNodeHostIp nodes n ip = true) :
    n < nodes.length := by
  unfold canNodeHostIp at h
  split at h
  · cases h
  · next node hn => exact (List.getElem?_eq_some_iff.mp hn).1

end Capability

@[simp] theorem length_setIpPnn (ips : List PublicIp) (i : Nat) (p : Option Nat) :
    (setIpPnn ips i p).length = ips.length :=
  List.length_modify _ _ _

theorem getElem?_setIpPnn (ips : List PublicIp) (i j : Nat) (p : Option Nat) :
    (setIpPnn ips i p)[j]? = if i = j then ips[j]?.map fun ip => { ip with pnn := p } else ips[j]? := by
  rw [setIpPnn, List.getElem?_modify]
  split <;> simp_all

/-! ## What a pass does to an entry -/

/-- What a pass may do to an entry: keep its address, and keep its holder or
give it a node that can take the address over, which for an address that had
a holder must pass `moveOk`. -/
def Reassigned (nodes : List TakeoverNode) (moveOk : Nat → Prop) (e e' : PublicIp) : Prop :=
  e'.addr = e.addr ∧
    (e'.pnn = e.pnn ∨
      ∃ d, e'.pnn = some d ∧ canNodeTakeoverIp nodes d e = true ∧ (e.pnn = none ∨ moveOk d))

namespace Reassigned

variable {nodes : List TakeoverNode} {moveOk : Nat → Prop} {e₁ e₂ e₃ : PublicIp}

theorem refl (e : PublicIp) : Reassigned nodes moveOk e e := ⟨rfl, .inl rfl⟩

theorem trans (h₁ : Reassigned nodes moveOk e₁ e₂) (h₂ : Reassigned nodes moveOk e₂ e₃) :
    Reassigned nodes moveOk e₁ e₃ := by
  obtain ⟨ha₁, hp₁⟩ := h₁
  obtain ⟨ha₂, hp₂⟩ := h₂
  refine ⟨ha₂.trans ha₁, ?_⟩
  rcases hp₂ with hp₂ | ⟨d, hd, hcap, hok⟩
  · rw [hp₂]
    exact hp₁
  · rw [canNodeTakeoverIp_addr ha₁] at hcap
    refine .inr ⟨d, hd, hcap, ?_⟩
    -- a move of the second pass is allowed for the first entry too
    rcases hp₁ with hp₁ | ⟨d₁, hd₁, -, -⟩
    · rwa [← hp₁]
    · rcases hok with hnone | hok
      · rw [hd₁] at hnone
        cases hnone
      · exact .inr hok

theorem mono {moveOk' : Nat → Prop} (hm : ∀ d, moveOk d → moveOk' d)
    (h : Reassigned nodes moveOk e₁ e₂) : Reassigned nodes moveOk' e₁ e₂ := by
  obtain ⟨ha, hp | ⟨d, hd, hcap, hok⟩⟩ := h
  · exact ⟨ha, .inl hp⟩
  · exact ⟨ha, .inr ⟨d, hd, hcap, hok.imp_right (hm d)⟩⟩

theorem forall₂_rfl (l : List PublicIp) : List.Forall₂ (Reassigned nodes moveOk) l l :=
  List.forall₂_same.mpr fun e _ => refl e

theorem forall₂_trans {l₁ l₂ l₃ : List PublicIp} (h₁ : List.Forall₂ (Reassigned nodes moveOk) l₁ l₂)
    (h₂ : List.Forall₂ (Reassigned nodes moveOk) l₂ l₃) :
    List.Forall₂ (Reassigned nodes moveOk) l₁ l₃ :=
  Lib.forall₂_trans (fun _ _ _ h h' => h.trans h') h₁ h₂

theorem forall₂_mono {moveOk' : Nat → Prop} (hm : ∀ d, moveOk d → moveOk' d) {l₁ l₂ : List PublicIp}
    (h : List.Forall₂ (Reassigned nodes moveOk) l₁ l₂) :
    List.Forall₂ (Reassigned nodes moveOk') l₁ l₂ :=
  h.imp fun _ _ => mono hm

/-- A pass keeps the addresses of the list, in their order. -/
theorem map_addr {l₁ l₂ : List PublicIp} (h : List.Forall₂ (Reassigned nodes moveOk) l₁ l₂) :
    l₂.map (·.addr) = l₁.map (·.addr) := by
  induction h with
  | nil => rfl
  | cons hab _ ih => rw [List.map_cons, List.map_cons, hab.1, ih]

/-- `tmp_ip->pnn = d` for a node `d` that can take the address over. -/
theorem setIpPnn {ips : List PublicIp} {i d : Nat} {e : PublicIp} (hi : ips[i]? = some e)
    (hcap : canNodeTakeoverIp nodes d e = true) (hok : e.pnn = none ∨ moveOk d) :
    List.Forall₂ (Reassigned nodes moveOk) ips (Ctdb.setIpPnn ips i (some d)) := by
  refine Lib.forall₂_modify (fun x _ => refl x) fun h => ?_
  have he : ips[i] = e := by
    rw [List.getElem?_eq_getElem h] at hi
    exact Option.some.inj hi
  rw [he]
  exact ⟨rfl, .inr ⟨d, rfl, hcap, hok⟩⟩

end Reassigned

/-! ## Hostable and settled lists -/

/-- Every address with a holder is on a node that can host it. -/
def Hostable (nodes : List TakeoverNode) (ips : List PublicIp) : Prop :=
  ∀ e ∈ ips, ∀ n, e.pnn = some n → canNodeHostIp nodes n e = true

/-- No address without a holder could be taken over by any node. -/
def Settled (nodes : List TakeoverNode) (ips : List PublicIp) : Prop :=
  ∀ e ∈ ips, e.pnn = none → ∀ n < nodes.length, canNodeTakeoverIp nodes n e = false

section Lists

variable {nodes : List TakeoverNode} {moveOk : Nat → Prop} {l l' : List PublicIp}

theorem Hostable.reassigned (h : Hostable nodes l)
    (hr : List.Forall₂ (Reassigned nodes moveOk) l l') : Hostable nodes l' := by
  intro e' he' n hn
  obtain ⟨e, he, ha, hp⟩ := Forall₂.exists_of_mem_right hr he'
  rw [canNodeHostIp_addr ha]
  rcases hp with hp | ⟨d, hd, hcap, -⟩
  · exact h e he n (hp ▸ hn)
  · rw [hd, Option.some.injEq] at hn
    rw [← hn]
    exact canNodeHostIp_of_takeover hcap

theorem Settled.reassigned (h : Settled nodes l)
    (hr : List.Forall₂ (Reassigned nodes moveOk) l l') : Settled nodes l' := by
  intro e' he' hnone n hn
  obtain ⟨e, he, ha, hp⟩ := Forall₂.exists_of_mem_right hr he'
  rw [canNodeTakeoverIp_addr ha]
  rcases hp with hp | ⟨d, hd, -, -⟩
  · exact h e he (hp ▸ hnone) n hn
  · rw [hd] at hnone
    cases hnone

theorem hostable_unassignUnsuitableIps (l : List PublicIp) :
    Hostable nodes (unassignUnsuitableIps nodes l) := by
  intro e he n hn
  obtain ⟨ip, -, rfl⟩ := List.mem_map.mp he
  -- an entry keeps its holder only when the holder can host it
  cases hp : ip.pnn with
  | none => simp [hp] at hn
  | some p =>
      by_cases hc : canNodeHostIp nodes p ip = true
      · simp only [hp, hc, Bool.not_true, Bool.false_eq_true, if_false] at hn ⊢
        rw [Option.some.injEq] at hn
        rwa [← hn]
      · simp [hp, hc] at hn

theorem map_addr_unassignUnsuitableIps (l : List PublicIp) :
    (unassignUnsuitableIps nodes l).map (·.addr) = l.map (·.addr) := by
  rw [unassignUnsuitableIps, List.map_map]
  refine List.map_congr_left fun ip _ => ?_
  simp only [Function.comp_apply]
  split
  · rfl
  · split <;> rfl

end Lists

/-! ## `find_takeover_node` -/

section FindTakeoverNode

variable {nodes : List TakeoverNode} {ip : PublicIp} {allIps : List PublicIp}

theorem findTakeoverNode_some {n : Nat} (h : findTakeoverNode nodes ip allIps = some n) :
    canNodeTakeoverIp nodes n ip = true := by
  obtain ⟨⟨m, num⟩, hb, rfl⟩ := Option.map_eq_some_iff.mp h
  -- every node the search keeps can take the address over
  refine List.foldlRecOn (motive := fun best : Option (Nat × Nat) =>
      ∀ b, best = some b → canNodeTakeoverIp nodes b.1 ip = true) _ _ (fun _ h => by cases h)
    (fun best hbest i _ => ?_) _ hb
  intro b hstep
  dsimp only at hstep
  split at hstep
  · exact hbest b hstep
  · next hcap =>
      simp only [Bool.not_eq_true', Bool.not_eq_false] at hcap
      split at hstep
      · cases hstep
        exact hcap
      · split at hstep
        · cases hstep
          exact hcap
        · exact hbest b hstep

theorem findTakeoverNode_none (h : findTakeoverNode nodes ip allIps = none) :
    ∀ n < nodes.length, canNodeTakeoverIp nodes n ip = false := by
  have hnone := (foldl_eq_none_iff (p := fun i => canNodeTakeoverIp nodes i ip = true) ?_ _ _).mp
    (Option.map_eq_none_iff.mp h)
  · intro n hn
    simpa using hnone.2 n (List.mem_range.mpr hn)
  · intro best i
    by_cases hcap : canNodeTakeoverIp nodes i ip = true
    · simp only [hcap, Bool.not_true, Bool.false_eq_true, if_false, not_true_eq_false, and_false,
        iff_false]
      split <;> (try split) <;> simp_all
    · simp [hcap]

end FindTakeoverNode

/-! ## `basic_allocate_unassigned` and `basic_failback` -/

section Basic

variable {nodes : List TakeoverNode}

theorem length_basicAllocateAt (ips : List PublicIp) (i : Nat) :
    (basicAllocateAt nodes ips i).length = ips.length := by
  unfold basicAllocateAt
  split
  · split
    · split <;> simp
    · rfl
  · rfl

theorem getElem?_basicAllocateAt_ne (ips : List PublicIp) {i j : Nat} (h : i ≠ j) :
    (basicAllocateAt nodes ips i)[j]? = ips[j]? := by
  unfold basicAllocateAt
  split
  · split
    · split
      · rw [getElem?_setIpPnn, if_neg h]
      · rfl
    · rfl
  · rfl

theorem basicAllocateAt_reassigned (ips : List PublicIp) (i : Nat) :
    List.Forall₂ (Reassigned nodes fun _ => False) ips (basicAllocateAt nodes ips i) := by
  unfold basicAllocateAt
  split
  · next ip hi =>
      split
      · next hnone =>
          split
          · next pnn hfind => exact Reassigned.setIpPnn hi (findTakeoverNode_some hfind) (.inl hnone)
          · exact Reassigned.forall₂_rfl _
      · exact Reassigned.forall₂_rfl _
  · exact Reassigned.forall₂_rfl _

/-- The entry the loop body has just visited has a holder, or no node can
take its address over. -/
theorem basicAllocateAt_settles (ips : List PublicIp) (i : Nat) {e : PublicIp}
    (he : (basicAllocateAt nodes ips i)[i]? = some e) (hnone : e.pnn = none) :
    ∀ n < nodes.length, canNodeTakeoverIp nodes n e = false := by
  unfold basicAllocateAt at he
  split at he
  · next ip hi =>
      split at he
      · split at he
        · rw [getElem?_setIpPnn, if_pos rfl, hi, Option.map_some, Option.some.injEq] at he
          rw [← he] at hnone
          cases hnone
        · next hfind =>
            rw [hi, Option.some.injEq] at he
            rw [← he]
            exact findTakeoverNode_none hfind
      · next hsome =>
          rw [hi, Option.some.injEq] at he
          rw [← he] at hnone
          exact absurd hnone hsome
  · next hi =>
      rw [hi] at he
      cases he

theorem length_foldl_basicAllocateAt (l : List Nat) (ips : List PublicIp) :
    (l.foldl (basicAllocateAt nodes) ips).length = ips.length := by
  induction l generalizing ips with
  | nil => rfl
  | cons i l ih => rw [List.foldl_cons, ih, length_basicAllocateAt]

theorem foldl_basicAllocateAt_reassigned (l : List Nat) (ips : List PublicIp) :
    List.Forall₂ (Reassigned nodes fun _ => False) ips (l.foldl (basicAllocateAt nodes) ips) := by
  induction l generalizing ips with
  | nil => exact Reassigned.forall₂_rfl _
  | cons i l ih => exact Reassigned.forall₂_trans (basicAllocateAt_reassigned ips i) (ih _)

/-- After the first `k` rounds of the loop, the first `k` entries are settled:
later rounds write other positions only. -/
theorem foldl_basicAllocateAt_settles (ips : List PublicIp) :
    ∀ k, ∀ j < k, ∀ e, ((List.range k).foldl (basicAllocateAt nodes) ips)[j]? = some e →
      e.pnn = none → ∀ n < nodes.length, canNodeTakeoverIp nodes n e = false
  | 0, _, hj, _, _, _ => absurd hj (Nat.not_lt_zero _)
  | k + 1, j, hj, e, he, hnone => by
      rw [List.range_succ, List.foldl_append, List.foldl_cons, List.foldl_nil] at he
      by_cases hjk : j = k
      · subst hjk
        exact basicAllocateAt_settles _ _ he hnone
      · rw [getElem?_basicAllocateAt_ne _ (Ne.symm hjk)] at he
        exact foldl_basicAllocateAt_settles ips k j (by omega) e he hnone

theorem basicAllocateUnassigned_reassigned (ips : List PublicIp) :
    List.Forall₂ (Reassigned nodes fun _ => False) ips (basicAllocateUnassigned nodes ips) :=
  foldl_basicAllocateAt_reassigned _ ips

theorem settled_basicAllocateUnassigned (ips : List PublicIp) :
    Settled nodes (basicAllocateUnassigned nodes ips) := by
  intro e he hnone
  obtain ⟨j, hj⟩ := List.mem_iff_getElem?.mp he
  have hlt : j < ips.length := by
    have := (List.getElem?_eq_some_iff.mp hj).1
    rwa [basicAllocateUnassigned, length_foldl_basicAllocateAt] at this
  exact foldl_basicAllocateAt_settles ips ips.length j hlt e hj hnone

/-- A pass of `basic_failback` hands one address to `find_takeover_node`,
which gives it a node that can take it over or leaves it where it is. -/
theorem basicFailbackPass_reassigned {ips ips' : List PublicIp}
    (h : basicFailbackPass nodes ips = some ips') :
    List.Forall₂ (Reassigned nodes fun _ => True) ips ips' := by
  obtain ⟨ip, -, hip⟩ := List.exists_of_findSome?_eq_some h
  dsimp only at hip
  split at hip
  · cases hip
  split at hip
  · cases hip
  split at hip
  · obtain ⟨⟨tmp, j⟩, hfind, hmove⟩ := Option.map_eq_some_iff.mp hip
    have hj : ips[j]? = some tmp := List.mem_zipIdx_iff_getElem?.mp (List.mem_of_find?_eq_some hfind)
    dsimp only at hmove
    split at hmove
    · next pnn hpnn =>
        rw [← hmove]
        exact Reassigned.setIpPnn hj (findTakeoverNode_some hpnn) (.inr trivial)
    · rw [← hmove]
      exact Reassigned.forall₂_rfl _
  · cases hip

theorem basicFailbackLoop_reassigned :
    ∀ (retriesLeft : Nat) (ips : List PublicIp),
      List.Forall₂ (Reassigned nodes fun _ => True) ips (basicFailbackLoop nodes retriesLeft ips)
  | 0, ips => Reassigned.forall₂_rfl ips
  | retriesLeft + 1, ips => by
      rw [basicFailbackLoop]
      split
      · next ips' hpass =>
          exact Reassigned.forall₂_trans (basicFailbackPass_reassigned hpass)
            (basicFailbackLoop_reassigned retriesLeft ips')
      · exact Reassigned.forall₂_rfl ips

end Basic

/-! ## LCP2 -/

section Lcp2

variable {nodes : List TakeoverNode}

/-- Giving a holder to an address without one leaves one fewer such address. -/
theorem countP_setIpPnn_of_none {d : Nat} :
    ∀ {ips : List PublicIp} {i : Nat} {e : PublicIp}, ips[i]? = some e → e.pnn = none →
      (setIpPnn ips i (some d)).countP (·.pnn == none) + 1 = ips.countP (·.pnn == none)
  | [], _, _, hi, _ => by cases hi
  | x :: l, 0, e, hi, hnone => by
      rw [List.getElem?_cons_zero, Option.some.injEq] at hi
      subst hi
      simp [setIpPnn, hnone]
  | x :: l, i + 1, e, hi, hnone => by
      rw [List.getElem?_cons_succ] at hi
      have ih := countP_setIpPnn_of_none (d := d) hi hnone
      simp only [setIpPnn, List.modify_succ_cons, List.countP_cons] at ih ⊢
      omega

/-- `lcp2_allocate_unassigned` only chooses an address without a holder and a
node that can take it over, and records that node's imbalance plus the
address's distance sum to it. -/
theorem lcp2BestUnassigned_some {ips : List PublicIp} {imbalances : List UInt32} {m : Lcp2Move}
    (h : lcp2BestUnassigned nodes ips imbalances = some m) :
    ∃ e, ips[m.ip]? = some e ∧ e.pnn = none ∧ canNodeTakeoverIp nodes m.node e = true ∧
      m.imbl = imbalances.getD m.node 0 + ipDistance2Sum e.addr m.ip ips.zipIdx m.node := by
  unfold lcp2BestUnassigned at h
  refine List.foldlRecOn (motive := fun best : Option Lcp2Move => ∀ m, best = some m →
      ∃ e, ips[m.ip]? = some e ∧ e.pnn = none ∧ canNodeTakeoverIp nodes m.node e = true ∧
        m.imbl = imbalances.getD m.node 0 + ipDistance2Sum e.addr m.ip ips.zipIdx m.node)
    _ _ (fun _ h => by cases h) (fun best hbest x hx => ?_) m h
  obtain ⟨ip, i⟩ := x
  have hi : ips[i]? = some ip := List.mem_zipIdx_iff_getElem?.mp hx
  dsimp only
  split
  · exact hbest
  · next hnone =>
      -- the inner loop over the destination nodes keeps the same property
      refine List.foldlRecOn (motive := fun best : Option Lcp2Move => ∀ m, best = some m →
          ∃ e, ips[m.ip]? = some e ∧ e.pnn = none ∧ canNodeTakeoverIp nodes m.node e = true ∧
            m.imbl = imbalances.getD m.node 0 + ipDistance2Sum e.addr m.ip ips.zipIdx m.node)
        _ _ hbest fun best hbest dstnode _ => ?_
      intro m hm
      split at hm
      · exact hbest m hm
      · next hcap =>
          simp only [Bool.not_eq_true', Bool.not_eq_false] at hcap
          have hnew : ∃ e, ips[i]? = some e ∧ e.pnn = none ∧
              canNodeTakeoverIp nodes dstnode e = true ∧
              imbalances.getD dstnode 0 + ipDistance2Sum ip.addr i ips.zipIdx dstnode =
                imbalances.getD dstnode 0 + ipDistance2Sum e.addr i ips.zipIdx dstnode :=
            ⟨ip, hi, not_not.mp hnone, hcap, rfl⟩
          split at hm
          · split at hm
            · cases hm
              exact hnew
            · exact hbest m hm
          · cases hm
            exact hnew

/-- When the scan finds nothing, no address without a holder can be taken over. -/
theorem settled_of_lcp2BestUnassigned_none {ips : List PublicIp} {imbalances : List UInt32}
    (h : lcp2BestUnassigned nodes ips imbalances = none) : Settled nodes ips := by
  unfold lcp2BestUnassigned at h
  have hnone := (foldl_eq_none_iff (p := fun x : PublicIp × Nat =>
    x.1.pnn = none ∧ ∃ d ∈ List.range nodes.length, canNodeTakeoverIp nodes d x.1 = true)
    (fun acc x => ?_) _ _).mp h
  · intro e he hpnn n hn
    obtain ⟨i, hi⟩ := List.mem_iff_getElem?.mp he
    have := hnone.2 _ ((List.mem_zipIdx_iff_getElem? (x := (e, i))).mpr hi)
    simp only [hpnn, true_and, not_exists, not_and, List.mem_range, Bool.not_eq_true] at this
    exact this n hn
  · obtain ⟨ip, i⟩ := x
    dsimp only
    split
    · next hsome => simp [hsome]
    · next hpnn =>
        -- the inner loop finds nothing exactly when no node can take the address over
        refine (foldl_eq_none_iff (p := fun d => canNodeTakeoverIp nodes d ip = true)
          (fun acc d => ?_) _ _).trans ?_
        · by_cases hcap : canNodeTakeoverIp nodes d ip = true
          · simp only [hcap, Bool.not_true, Bool.false_eq_true, if_false, not_true_eq_false,
              and_false, iff_false]
            split <;> (try split) <;> simp_all
          · simp [hcap]
        · simp only [not_not] at hpnn
          simp [hpnn]

theorem lcp2AllocateUnassignedLoop_reassigned :
    ∀ (fuel : Nat) (st : List PublicIp × List UInt32),
      List.Forall₂ (Reassigned nodes fun _ => False) st.1 (lcp2AllocateUnassignedLoop nodes fuel st).1
  | 0, st => Reassigned.forall₂_rfl st.1
  | fuel + 1, (ips, imbalances) => by
      rw [lcp2AllocateUnassignedLoop]
      split
      · exact Reassigned.forall₂_rfl ips
      · next m hm =>
          obtain ⟨e, hi, hnone, hcap, -⟩ := lcp2BestUnassigned_some hm
          have hstep : List.Forall₂ (Reassigned nodes fun _ => False) ips
              (setIpPnn ips m.ip (some m.node)) :=
            Reassigned.setIpPnn hi hcap (.inl hnone)
          dsimp only
          split
          · exact Reassigned.forall₂_trans hstep (lcp2AllocateUnassignedLoop_reassigned fuel
              (setIpPnn ips m.ip (some m.node), imbalances.set m.node m.imbl))
          · exact hstep

/-- With more rounds than addresses without a holder, the loop stops by its
own test: nothing is left that a node could take over. -/
theorem settled_lcp2AllocateUnassignedLoop :
    ∀ (fuel : Nat) (st : List PublicIp × List UInt32), st.1.countP (·.pnn == none) < fuel →
      Settled nodes (lcp2AllocateUnassignedLoop nodes fuel st).1
  | 0, _, hfuel => absurd hfuel (Nat.not_lt_zero _)
  | fuel + 1, (ips, imbalances), hfuel => by
      rw [lcp2AllocateUnassignedLoop]
      split
      · next hm => exact settled_of_lcp2BestUnassigned_none hm
      · next m hm =>
          obtain ⟨e, hi, hnone, -, -⟩ := lcp2BestUnassigned_some hm
          have hcount := countP_setIpPnn_of_none (d := m.node) hi hnone
          dsimp only
          split
          · exact settled_lcp2AllocateUnassignedLoop fuel
              (setIpPnn ips m.ip (some m.node), imbalances.set m.node m.imbl)
              (by dsimp only at hfuel ⊢; omega)
          · next hany =>
              intro e' he' hpnn
              exact absurd (List.any_eq_true.mpr ⟨e', he', by simp [hpnn]⟩) hany

theorem settled_lcp2AllocateUnassigned (ips : List PublicIp) (imbalances : List UInt32) :
    Settled nodes (lcp2AllocateUnassigned nodes ips imbalances).1 :=
  settled_lcp2AllocateUnassignedLoop _ _
    (Nat.lt_succ_of_le (List.countP_le_length))

/-- `lcp2_failback_candidate` only moves an address of the source node to a
rebalance candidate that can take it over and to which the address costs
less than it costs the source. -/
theorem lcp2FailbackCandidate_some {ips : List PublicIp} {srcnode : Nat} {candimbl : UInt32}
    {imbalances : List UInt32} {candidates : List Bool} {st : List PublicIp × List UInt32}
    (h : lcp2FailbackCandidate nodes ips srcnode candimbl imbalances candidates = some st) :
    ∃ i d e, ips[i]? = some e ∧ e.pnn = some srcnode ∧ candidates.getD d false = true ∧
      canNodeTakeoverIp nodes d e = true ∧
      ipDistance2Sum e.addr i ips.zipIdx d < ipDistance2Sum e.addr i ips.zipIdx srcnode ∧
      st.1 = setIpPnn ips i (some d) := by
  unfold lcp2FailbackCandidate at h
  split at h
  next srcimbl best hfold =>
  obtain ⟨m, hm, rfl⟩ := Option.map_eq_some_iff.mp h
  -- the search keeps only moves of an address of the source to a candidate
  -- that can take it and to which it costs less
  have hbest : ∀ m, (srcimbl, best).2 = some m → ∃ e, ips[m.ip]? = some e ∧
      e.pnn = some srcnode ∧ candidates.getD m.dstnode false = true ∧
      canNodeTakeoverIp nodes m.dstnode e = true ∧
      ipDistance2Sum e.addr m.ip ips.zipIdx m.dstnode <
        ipDistance2Sum e.addr m.ip ips.zipIdx srcnode := by
    rw [← hfold]
    refine List.foldlRecOn (motive := fun r : UInt32 × Option Lcp2Failback => ∀ m, r.2 = some m →
        ∃ e, ips[m.ip]? = some e ∧ e.pnn = some srcnode ∧
          candidates.getD m.dstnode false = true ∧ canNodeTakeoverIp nodes m.dstnode e = true ∧
          ipDistance2Sum e.addr m.ip ips.zipIdx m.dstnode <
            ipDistance2Sum e.addr m.ip ips.zipIdx srcnode)
      _ _ (fun _ h => by cases h) fun r hr x hx => ?_
    obtain ⟨ip, i⟩ := x
    have hi : ips[i]? = some ip := List.mem_zipIdx_iff_getElem?.mp hx
    dsimp only
    split
    · exact hr
    · next hsrc =>
      refine List.foldlRecOn (motive := fun best : Option Lcp2Failback => ∀ m, best = some m →
          ∃ e, ips[m.ip]? = some e ∧ e.pnn = some srcnode ∧
            candidates.getD m.dstnode false = true ∧ canNodeTakeoverIp nodes m.dstnode e = true ∧
            ipDistance2Sum e.addr m.ip ips.zipIdx m.dstnode <
              ipDistance2Sum e.addr m.ip ips.zipIdx srcnode)
        _ _ hr fun best hbest dstnode _ => ?_
      intro m hm
      split at hm
      · exact hbest m hm
      · next hcand =>
          split at hm
          · exact hbest m hm
          · next hcap =>
              simp only [Bool.not_eq_true', Bool.not_eq_false] at hcand hcap
              rcases ite_eq_iff.mp hm with ⟨hcond, hm⟩ | ⟨-, hm⟩
              · cases hm
                exact ⟨ip, hi, not_not.mp hsrc, hcand, hcap, hcond.2.1⟩
              · exact hbest m hm
  obtain ⟨e, hi, hsrc, hcand, hcap, hcost⟩ := hbest m hm
  exact ⟨m.ip, m.dstnode, e, hi, hsrc, hcand, hcap, hcost, rfl⟩

/-- A round of `lcp2_failback` moves one address, to a rebalance candidate. -/
theorem lcp2FailbackRound_reassigned {candidates : List Bool} {st st' : List PublicIp × List UInt32}
    (h : lcp2FailbackRound nodes candidates st = some st') :
    List.Forall₂ (Reassigned nodes fun d => candidates.getD d false = true) st.1 st'.1 := by
  obtain ⟨⟨imbalance, pnn⟩, -, hmove⟩ := List.exists_of_findSome?_eq_some h
  obtain ⟨i, d, e, hi, -, hcand, hcap, -, hst⟩ := lcp2FailbackCandidate_some hmove
  rw [hst]
  exact Reassigned.setIpPnn hi hcap (.inr hcand)

theorem lcp2Failback_reassigned {candidates : List Bool} :
    ∀ (fuel : Nat) {st st' : List PublicIp × List UInt32},
      lcp2Failback nodes candidates fuel st = some st' →
        List.Forall₂ (Reassigned nodes fun d => candidates.getD d false = true) st.1 st'.1
  | 0, _, _, h => by cases h
  | fuel + 1, st, st', h => by
      rw [lcp2Failback] at h
      split at h
      · cases h
        exact Reassigned.forall₂_rfl _
      · split at h
        · next st₁ hround =>
            exact Reassigned.forall₂_trans (lcp2FailbackRound_reassigned hround)
              (lcp2Failback_reassigned fuel h)
        · cases h
          exact Reassigned.forall₂_rfl _


end Lcp2

/-! ## The rebalance candidates -/

section Candidates

theorem getD_set_true {c : List Bool} {p d : Nat} (h : (c.set p true).getD d false = true) :
    c.getD d false = true ∨ p = d := by
  rw [List.getD_eq_getElem?_getD, List.getElem?_set] at h
  split at h
  · exact .inr ‹_›
  · exact .inl (by rwa [List.getD_eq_getElem?_getD])

theorem getD_set_false {c : List Bool} {p d : Nat} (h : (c.set p false).getD d false = true) :
    c.getD d false = true ∧ p ≠ d := by
  rw [List.getD_eq_getElem?_getD, List.getElem?_set] at h
  split at h
  · split at h <;> simp at h
  · exact ⟨by rwa [List.getD_eq_getElem?_getD], ‹_›⟩

/-- The second step of `lcp2_init` clears every node that holds an address. -/
theorem candidate_of_foldl_clear {d : Nat} :
    ∀ (ips : List PublicIp) (c : List Bool),
      (ips.foldl (fun c ip => match ip.pnn with
        | some pnn => c.set pnn false
        | none => c) c).getD d false = true →
      c.getD d false = true ∧ ∀ e ∈ ips, e.pnn ≠ some d
  | [], _, h => ⟨h, fun _ he => absurd he List.not_mem_nil⟩
  | ip :: ips, c, h => by
      rw [List.foldl_cons] at h
      obtain ⟨hc, hrest⟩ := candidate_of_foldl_clear ips _ h
      -- the head cleared its holder, so that holder is not `d`
      have hhead : c.getD d false = true ∧ ip.pnn ≠ some d := by
        cases hp : ip.pnn with
        | none =>
            simp only [hp] at hc
            exact ⟨hc, by simp⟩
        | some p =>
            simp only [hp] at hc
            obtain ⟨hc, hpd⟩ := getD_set_false hc
            exact ⟨hc, fun h => hpd (Option.some.inj h)⟩
      refine ⟨hhead.1, fun e he => ?_⟩
      rcases List.mem_cons.mp he with rfl | he
      · exact hhead.2
      · exact hrest e he

/-- The third step of `lcp2_init` makes candidates of the forced nodes only. -/
theorem candidate_of_foldl_force {numnodes d : Nat} :
    ∀ (force : List UInt32) (c : List Bool),
      (force.foldl (fun c pnn => if pnn.toNat ≥ numnodes then c else c.set pnn.toNat true) c).getD
        d false = true →
      c.getD d false = true ∨ ∃ f ∈ force, f.toNat = d
  | [], _, h => .inl h
  | f :: force, c, h => by
      rw [List.foldl_cons] at h
      rcases candidate_of_foldl_force force _ h with hc | ⟨f', hf', hd⟩
      · split at hc
        · exact .inl hc
        · rcases getD_set_true hc with hc | hd
          · exact .inl hc
          · exact .inr ⟨f, List.mem_cons_self, hd⟩
      · exact .inr ⟨f', .tail _ hf', hd⟩

/-- A rebalance candidate of `lcp2_init` held no address, or was forced. -/
theorem lcp2Init_candidate {numnodes d : Nat} {ips : List PublicIp}
    {force : Option (List UInt32)} (h : (lcp2Init numnodes ips force).2.getD d false = true) :
    (∀ e ∈ ips, e.pnn ≠ some d) ∨ ∃ f ∈ force.getD [], f.toNat = d := by
  unfold lcp2Init at h
  cases force with
  | none => exact .inl (candidate_of_foldl_clear ips _ h).2
  | some force =>
      rcases candidate_of_foldl_force force _ h with hc | hf
      · exact .inl (candidate_of_foldl_clear ips _ hc).2
      · exact .inr hf

end Candidates

/-! ## The allocators -/

section Allocators

variable {nodes : List TakeoverNode}

theorem ipAllocDeterministicIps_placed (allIps : List PublicIp) :
    Hostable nodes (ipAllocDeterministicIps nodes allIps) ∧
      Settled nodes (ipAllocDeterministicIps nodes allIps) :=
  ⟨(hostable_unassignUnsuitableIps _).reassigned (basicAllocateUnassigned_reassigned _),
    settled_basicAllocateUnassigned _⟩

theorem ipAllocNondeterministicIps_placed (tunables : TakeoverTunables) (allIps : List PublicIp) :
    Hostable nodes (ipAllocNondeterministicIps nodes tunables allIps) ∧
      Settled nodes (ipAllocNondeterministicIps nodes tunables allIps) := by
  have hh := (hostable_unassignUnsuitableIps allIps).reassigned
    (basicAllocateUnassigned_reassigned (unassignUnsuitableIps nodes allIps))
  have hs := @settled_basicAllocateUnassigned nodes (unassignUnsuitableIps nodes allIps)
  unfold ipAllocNondeterministicIps
  dsimp only
  split
  · exact ⟨hh, hs⟩
  · -- `basic_failback` moves addresses only to nodes that can take them over
    have hr := @basicFailbackLoop_reassigned nodes (allIps.length + 5)
      (basicAllocateUnassigned nodes (unassignUnsuitableIps nodes allIps))
    exact ⟨hh.reassigned hr, hs.reassigned hr⟩

theorem map_addr_ipAllocDeterministicIps (allIps : List PublicIp) :
    (ipAllocDeterministicIps nodes allIps).map (·.addr) = allIps.map (·.addr) := by
  unfold ipAllocDeterministicIps
  rw [Reassigned.map_addr (basicAllocateUnassigned_reassigned _), map_addr_unassignUnsuitableIps, List.map_map]
  -- the modulo step keeps the addresses
  calc allIps.zipIdx.map (fun p => p.1.addr) = (allIps.zipIdx.map Prod.fst).map (·.addr) := by
        rw [List.map_map]
        rfl
    _ = allIps.map (·.addr) := by rw [List.zipIdx_map_fst]

theorem map_addr_ipAllocNondeterministicIps (tunables : TakeoverTunables) (allIps : List PublicIp) :
    (ipAllocNondeterministicIps nodes tunables allIps).map (·.addr) = allIps.map (·.addr) := by
  have hbasic := Reassigned.map_addr (@basicAllocateUnassigned_reassigned nodes
    (unassignUnsuitableIps nodes allIps))
  rw [map_addr_unassignUnsuitableIps] at hbasic
  unfold ipAllocNondeterministicIps
  dsimp only
  split
  · exact hbasic
  · rw [basicFailback, Reassigned.map_addr (@basicFailbackLoop_reassigned nodes (allIps.length + 5)
      (basicAllocateUnassigned nodes (unassignUnsuitableIps nodes allIps))), hbasic]

/-- What `ip_alloc_lcp2` does to the list `unassign_unsuitable_ips` leaves: an
entry keeps its holder or gets a node that can take its address over, and an
entry with a holder moves only to a rebalance candidate, and only when
`NoIPFailback` is off; and no address without a holder is left that a node
could take over. -/
theorem ipAllocLcp2_reassigned {fuel : Nat} {tunables : TakeoverTunables} {allIps : List PublicIp}
    {force : Option (List UInt32)} {result : List PublicIp}
    (h : ipAllocLcp2 nodes fuel tunables allIps force = some result) :
    List.Forall₂ (Reassigned nodes fun d =>
        (lcp2Init nodes.length (unassignUnsuitableIps nodes allIps) force).2.getD d false = true ∧
          tunables.noIpFailback ≠ 1)
      (unassignUnsuitableIps nodes allIps) result ∧ Settled nodes result := by
  unfold ipAllocLcp2 at h
  dsimp only at h
  have hr := @lcp2AllocateUnassignedLoop_reassigned nodes
    ((unassignUnsuitableIps nodes allIps).length + 1)
    (unassignUnsuitableIps nodes allIps,
      (lcp2Init nodes.length (unassignUnsuitableIps nodes allIps) force).1)
  have hs := @settled_lcp2AllocateUnassigned nodes (unassignUnsuitableIps nodes allIps)
    (lcp2Init nodes.length (unassignUnsuitableIps nodes allIps) force).1
  split at h
  · -- no failback: only the allocation ran
    cases h
    exact ⟨Reassigned.forall₂_mono (fun _ hf => hf.elim) hr, hs⟩
  · next hfailback =>
      obtain ⟨st, hst, rfl⟩ := Option.map_eq_some_iff.mp h
      have hmoves := lcp2Failback_reassigned fuel hst
      exact ⟨Reassigned.forall₂_trans (Reassigned.forall₂_mono (fun _ hf => hf.elim) hr)
        (Reassigned.forall₂_mono (fun d hd => ⟨hd, hfailback⟩) hmoves), hs.reassigned hmoves⟩

end Allocators

/-- Two lists with the same addresses in the same order. -/
theorem forall₂_addr_of_map_eq : ∀ {l₁ l₂ : List PublicIp}, l₂.map (·.addr) = l₁.map (·.addr) →
    List.Forall₂ (fun ip ip' => ip'.addr = ip.addr) l₁ l₂
  | [], [], _ => .nil
  | _ :: _, _ :: _, h => by
      rw [List.map_cons, List.map_cons, List.cons.injEq] at h
      exact .cons h.1 (forall₂_addr_of_map_eq h.2)
  | [], _ :: _, h => by cases h
  | _ :: _, [], h => by cases h

theorem ctdbTakeoverRunCore_hostable {fuel : Nat} {tunables : TakeoverTunables}
    {nodes : List TakeoverNode} {force : Option (List UInt32)} {allIps : List PublicIp}
    (h : ctdbTakeoverRunCore fuel tunables nodes force = some allIps) :
    List.Forall₂ (fun ip ip' => ip'.addr = ip.addr) (createMergedIpList nodes) allIps ∧
      (∀ ip ∈ allIps, ∀ n, ip.pnn = some n → n < nodes.length ∧ canNodeHostIp nodes n ip = true) ∧
      ∀ ip ∈ allIps, ip.pnn = none → ∀ n < nodes.length, canNodeTakeoverIp nodes n ip = false := by
  -- every allocator keeps the merged list's addresses and places them
  have hplaced : allIps.map (·.addr) = (createMergedIpList nodes).map (·.addr) ∧
      Hostable nodes allIps ∧ Settled nodes allIps := by
    unfold ctdbTakeoverRunCore at h
    split at h
    · obtain ⟨hr, hs⟩ := ipAllocLcp2_reassigned h
      exact ⟨(Reassigned.map_addr hr).trans (map_addr_unassignUnsuitableIps _),
        (hostable_unassignUnsuitableIps _).reassigned hr, hs⟩
    · split at h
      · cases h
        exact ⟨map_addr_ipAllocDeterministicIps _, ipAllocDeterministicIps_placed _⟩
      · cases h
        exact ⟨map_addr_ipAllocNondeterministicIps _ _, ipAllocNondeterministicIps_placed _ _⟩
  obtain ⟨haddr, hh, hs⟩ := hplaced
  exact ⟨forall₂_addr_of_map_eq haddr, fun ip hip n hn => ⟨lt_of_canNodeHostIp (hh ip hip n hn), hh ip hip n hn⟩, hs⟩

/-- Two nodes that can both host the addresses 10.0.0.1 and 10.0.0.2; node 0
holds both and node 1 has just come up. -/
def sampleCluster : List TakeoverNode :=
  [⟨⟨false, false⟩, false, some [((.inet 0x0A000001 0), 0), ((.inet 0x0A000002 0), 0)],
      some [(.inet 0x0A000001 0), (.inet 0x0A000002 0)]⟩,
    ⟨⟨false, false⟩, false, some [((.inet 0x0A000001 0), 0), ((.inet 0x0A000002 0), 0)],
      some [(.inet 0x0A000001 0), (.inet 0x0A000002 0)]⟩]

/-- LCP2 moves one of the two addresses to the new node. -/
theorem ctdbTakeoverRunCore_hostable_two :
    ∃ allIps, ctdbTakeoverRunCore 4 ⟨1, 0, 0⟩ sampleCluster none = some allIps ∧
      (List.Forall₂ (fun ip ip' => ip'.addr = ip.addr) (createMergedIpList sampleCluster) allIps ∧
        (∀ ip ∈ allIps, ∀ n, ip.pnn = some n →
          n < sampleCluster.length ∧ canNodeHostIp sampleCluster n ip = true) ∧
        ∀ ip ∈ allIps, ip.pnn = none →
          ∀ n < sampleCluster.length, canNodeTakeoverIp sampleCluster n ip = false) :=
  ⟨_, rfl, @ctdbTakeoverRunCore_hostable 4 ⟨1, 0, 0⟩ sampleCluster none _ rfl⟩

theorem ipAllocLcp2_no_gratuitous_moves {fuel : Nat} {tunables : TakeoverTunables}
    {nodes : List TakeoverNode} {allIps : List PublicIp} {force : Option (List UInt32)}
    {result : List PublicIp} (h : ipAllocLcp2 nodes fuel tunables allIps force = some result) :
    List.Forall₂ (fun ip ip' => ip'.addr = ip.addr ∧ ∀ s, ip.pnn = some s → ∃ d, ip'.pnn = some d ∧
        (d = s ∨ (∀ x ∈ unassignUnsuitableIps nodes allIps, x.pnn ≠ some d) ∨
          ∃ f ∈ force.getD [], f.toNat = d) ∧
        (tunables.noIpFailback = 1 → d = s))
      (unassignUnsuitableIps nodes allIps) result := by
  refine (ipAllocLcp2_reassigned h).1.imp fun ip ip' hr => ⟨hr.1, fun s hs => ?_⟩
  rcases hr.2 with hkeep | ⟨d, hd, -, hnone | ⟨hcand, hfailback⟩⟩
  · exact ⟨s, hkeep.trans hs, .inl rfl, fun _ => rfl⟩
  · rw [hs] at hnone
    cases hnone
  · -- a move goes to a candidate of `lcp2_init`, and only when failback is on
    exact ⟨d, hd, .inr (lcp2Init_candidate hcand), fun h1 => absurd h1 hfailback⟩

theorem ipAllocLcp2_no_gratuitous_moves_two :
    ∃ result, ipAllocLcp2 sampleCluster 4 ⟨1, 0, 0⟩ (createMergedIpList sampleCluster) none =
        some result ∧
      List.Forall₂ (fun ip ip' => ip'.addr = ip.addr ∧ ∀ s, ip.pnn = some s → ∃ d, ip'.pnn = some d ∧
          (d = s ∨ (∀ x ∈ unassignUnsuitableIps sampleCluster (createMergedIpList sampleCluster),
              x.pnn ≠ some d) ∨ ∃ f ∈ (none : Option (List UInt32)).getD [], f.toNat = d) ∧
          ((⟨1, 0, 0⟩ : TakeoverTunables).noIpFailback = 1 → d = s))
        (unassignUnsuitableIps sampleCluster (createMergedIpList sampleCluster)) result :=
  ⟨_, rfl, @ipAllocLcp2_no_gratuitous_moves 4 ⟨1, 0, 0⟩ sampleCluster
    (createMergedIpList sampleCluster) none _ rfl⟩

end Ctdb

import Ctdb.Node.Keepalive
import Ctdb.Lib.Mask

/-!
# What the keepalive knows about the other nodes

Every event acts on each node alone: what it does to the node at pnn `j`
depends on that node and nothing else (`getElem?_keepaliveStep`), and none
of them changes the length of the node list. The run theorems follow one
node through a run.

`num_connected` is kept as the number of other nodes that are connected, in
32-bit arithmetic: each change of a node's disconnected bit comes with a step
of the counter, except for the daemon's own node, which the walk skips and
the transport never reports dead (`keepaliveRun_numConnected`).

A node that goes silent is marked dead by the `KeepaliveLimit + 1`-th walk
after it: the first walk may still see the packets it sent before, and every
later one raises its `dead_count` by one (`keepaliveRun_silent_dead`). The
counter cannot wrap on the way, since a connected node's `dead_count` is
below the limit of the last walk. A node that is heard between any two walks
is never marked dead by a walk with a limit of at least one
(`keepaliveRun_heard_connected`); with a limit of zero every walk marks every
connected node dead, whatever it sent (`ctdbCheckForDeadNodes_limit_zero`).
-/

namespace Ctdb

open Lib

/-! ## One node at a time -/

section Nodes

variable {ownPnn : Nat} {keepaliveLimit numConnected : UInt32} {pnn : Nat} {node : CtdbNode}

theorem ctdbNodeDead_node (n n' : UInt32) (node : CtdbNode) :
    (ctdbNodeDead n node).2 = (ctdbNodeDead n' node).2 := by
  unfold ctdbNodeDead
  split <;> rfl

theorem ctdbNodeConnected_node (n n' : UInt32) (node : CtdbNode) :
    (ctdbNodeConnected n node).2 = (ctdbNodeConnected n' node).2 := by
  unfold ctdbNodeConnected
  split <;> rfl

/-- What the walk does to a node does not depend on `num_connected`. -/
theorem checkNode_node (n n' : UInt32) :
    (checkNode ownPnn keepaliveLimit n pnn node).2.1 = (checkNode ownPnn keepaliveLimit n' pnn node).2.1 := by
  unfold checkNode
  split_ifs <;> simp only [ctdbNodeDead_node n n', ctdbNodeConnected_node n n']
  -- what is left is the test against the limit
  all_goals split <;> rfl

end Nodes

theorem length_checkForDeadNodesLoop (ownPnn : Nat) (keepaliveLimit : UInt32) :
    ∀ (pnn : Nat) (n : UInt32) (nodes : List CtdbNode),
      (checkForDeadNodesLoop ownPnn keepaliveLimit pnn n nodes).2.1.length = nodes.length
  | _, _, [] => rfl
  | pnn, n, node :: nodes => by
      simp only [checkForDeadNodesLoop, List.length_cons,
        length_checkForDeadNodesLoop ownPnn keepaliveLimit (pnn + 1) _ nodes]

theorem getElem?_checkForDeadNodesLoop (ownPnn : Nat) (keepaliveLimit : UInt32) :
    ∀ (pnn : Nat) (n : UInt32) (nodes : List CtdbNode) (k : Nat),
      (checkForDeadNodesLoop ownPnn keepaliveLimit pnn n nodes).2.1[k]? =
        nodes[k]?.map fun node => (checkNode ownPnn keepaliveLimit 0 (pnn + k) node).2.1
  | _, _, [], _ => rfl
  | pnn, n, node :: nodes, 0 => by
      simp only [checkForDeadNodesLoop, List.getElem?_cons_zero, Option.map_some, Nat.add_zero,
        checkNode_node n 0]
  | pnn, n, node :: nodes, k + 1 => by
      simp only [checkForDeadNodesLoop, List.getElem?_cons_succ,
        getElem?_checkForDeadNodesLoop ownPnn keepaliveLimit (pnn + 1) _ nodes k]
      congr 2
      funext node
      rw [Nat.add_right_comm, Nat.add_assoc]

theorem getElem?_ctdbRecvPkt (ctdb : KeepaliveCtx) (srcnode operation hopcount : UInt32) (j : Nat) :
    (ctdbRecvPkt ctdb srcnode operation hopcount).nodes[j]? = ctdb.nodes[j]?.map fun node =>
      if srcnode.toNat = j ∧ (operation ≠ CTDB_REQ_CALL ∨ hopcount = 0) then
        { node with rxCnt := node.rxCnt + 1 } else node := by
  unfold ctdbRecvPkt
  by_cases hvalid : srcnode.toNat < ctdb.nodes.length
  · by_cases hcounted : operation ≠ CTDB_REQ_CALL ∨ hopcount = 0
    · rw [if_pos hvalid, if_pos hcounted, List.getElem?_modify]
      simp only [hcounted, and_true]
      rfl
    · rw [if_pos hvalid, if_neg hcounted]
      simp [hcounted]
  · -- a packet from past the node list counts for no node
    rw [if_neg hvalid]
    by_cases hj : srcnode.toNat = j
    · subst hj
      simp [List.getElem?_eq_none (Nat.le_of_not_lt hvalid)]
    · simp [hj]

theorem length_ctdbRecvPkt (ctdb : KeepaliveCtx) (srcnode operation hopcount : UInt32) :
    (ctdbRecvPkt ctdb srcnode operation hopcount).nodes.length = ctdb.nodes.length := by
  unfold ctdbRecvPkt
  split_ifs <;> simp

theorem getElem?_transportNodeDead (ctdb : KeepaliveCtx) (pnn j : Nat) :
    (transportNodeDead ctdb pnn).nodes[j]? = ctdb.nodes[j]?.map fun node =>
      if pnn = j then (ctdbNodeDead 0 node).2 else node := by
  unfold transportNodeDead
  cases hnode : ctdb.nodes[pnn]? with
  | none =>
      by_cases hj : pnn = j
      · subst hj
        simp [hnode]
      · simp [hj]
  | some node =>
      dsimp only
      rw [List.getElem?_set]
      by_cases hj : pnn = j
      · subst hj
        rw [if_pos rfl, if_pos (List.getElem?_eq_some_iff.mp hnode).1, hnode]
        simp [ctdbNodeDead_node _ 0]
      · simp [hj]

theorem length_transportNodeDead (ctdb : KeepaliveCtx) (pnn : Nat) :
    (transportNodeDead ctdb pnn).nodes.length = ctdb.nodes.length := by
  unfold transportNodeDead
  split <;> simp

theorem length_ctdbControlModflags (ctdb : KeepaliveCtx) (c : NodeFlagChange) :
    (ctdbControlModflags ctdb c).2.nodes.length = ctdb.nodes.length := by
  unfold ctdbControlModflags
  split <;> simp

theorem getElem?_ctdbControlModflags_of_ne (ctdb : KeepaliveCtx) (c : NodeFlagChange) {j : Nat}
    (hj : c.pnn.toNat ≠ j) : (ctdbControlModflags ctdb c).2.nodes[j]? = ctdb.nodes[j]? := by
  unfold ctdbControlModflags
  split
  · rfl
  · simp [hj]

/-- `ctdb_control_modflags` writes only flags. -/
theorem ctdbControlModflags_counters (ctdb : KeepaliveCtx) (c : NodeFlagChange) (j : Nat) :
    (ctdbControlModflags ctdb c).2.nodes[j]?.map (fun node => (node.deadCount, node.rxCnt)) =
      ctdb.nodes[j]?.map fun node => (node.deadCount, node.rxCnt) := by
  by_cases hj : c.pnn.toNat = j
  · subst hj
    unfold ctdbControlModflags
    cases hnode : ctdb.nodes[c.pnn.toNat]? with
    | none => simp [hnode]
    | some node => simp [(List.getElem?_eq_some_iff.mp hnode).1]
  · rw [getElem?_ctdbControlModflags_of_ne ctdb c hj]

/-- The disconnected bit of another node is the daemon's own business. -/
theorem ctdbControlModflags_disconnected (ctdb : KeepaliveCtx) (c : NodeFlagChange) {j : Nat}
    (hown : j ≠ ctdb.pnn) :
    (ctdbControlModflags ctdb c).2.nodes[j]?.map (·.flags &&& NODE_FLAGS_DISCONNECTED) =
      ctdb.nodes[j]?.map (·.flags &&& NODE_FLAGS_DISCONNECTED) := by
  by_cases hj : c.pnn.toNat = j
  · subst hj
    unfold ctdbControlModflags
    cases hnode : ctdb.nodes[c.pnn.toNat]? with
    | none => simp [hnode]
    | some node =>
        simp only [List.getElem?_set, hnode, (List.getElem?_eq_some_iff.mp hnode).1, if_true, hown,
          ne_eq, not_false_eq_true, if_false, Option.map_some, and_not_or_and_and_self]
  · rw [getElem?_ctdbControlModflags_of_ne ctdb c hj]

/-! ## `num_connected` -/

/-- Whether the node at pnn `j` counts in `num_connected`: it is connected,
and not the daemon's own. -/
def countsConnected (ownPnn j : Nat) (node : CtdbNode) : Nat :=
  if j ≠ ownPnn ∧ node.flags &&& NODE_FLAGS_DISCONNECTED = 0 then 1 else 0

/-- The nodes from pnn `j` on that count in `num_connected`. -/
def connectedFrom (ownPnn : Nat) : Nat → List CtdbNode → Nat
  | _, [] => 0
  | j, node :: nodes => countsConnected ownPnn j node + connectedFrom ownPnn (j + 1) nodes

/-- The other nodes that are connected. -/
def KeepaliveCtx.connectedPeers (ctdb : KeepaliveCtx) : Nat := connectedFrom ctdb.pnn 0 ctdb.nodes

theorem connectedFrom_le_length (ownPnn : Nat) :
    ∀ (j : Nat) (nodes : List CtdbNode), connectedFrom ownPnn j nodes ≤ nodes.length
  | _, [] => le_rfl
  | j, node :: nodes => by
      have := connectedFrom_le_length ownPnn (j + 1) nodes
      have : countsConnected ownPnn j node ≤ 1 := by unfold countsConnected; split <;> omega
      simp only [connectedFrom, List.length_cons]
      omega

/-- Two node lists that count alike node by node count alike. -/
theorem connectedFrom_congr (ownPnn : Nat) :
    ∀ (j : Nat) (nodes nodes' : List CtdbNode), nodes.length = nodes'.length →
      (∀ k, nodes[k]?.map (countsConnected ownPnn (j + k)) = nodes'[k]?.map (countsConnected ownPnn (j + k))) →
      connectedFrom ownPnn j nodes = connectedFrom ownPnn j nodes'
  | _, [], [], _, _ => rfl
  | j, node :: nodes, node' :: nodes', hlen, h => by
      have hhead := h 0
      simp only [List.getElem?_cons_zero, Option.map_some, Option.some.injEq, Nat.add_zero] at hhead
      have htail := connectedFrom_congr ownPnn (j + 1) nodes nodes' (by simpa using hlen) fun k => by
        simpa [Nat.add_right_comm, Nat.add_assoc] using h (k + 1)
      simp only [connectedFrom, hhead, htail]
  | _, [], _ :: _, hlen, _ => by simp at hlen
  | _, _ :: _, [], hlen, _ => by simp at hlen

/-- Writing one node changes the count by what that node counts. -/
theorem connectedFrom_set (ownPnn : Nat) (node' : CtdbNode) :
    ∀ (j : Nat) (nodes : List CtdbNode) (k : Nat) (hk : k < nodes.length),
      connectedFrom ownPnn j (nodes.set k node') + countsConnected ownPnn (j + k) nodes[k] =
        connectedFrom ownPnn j nodes + countsConnected ownPnn (j + k) node'
  | _, [], _, hk => by simp at hk
  | j, node :: nodes, 0, _ => by
      simp only [List.set_cons_zero, connectedFrom, List.getElem_cons_zero, Nat.add_zero]
      omega
  | j, node :: nodes, k + 1, hk => by
      have ih := connectedFrom_set ownPnn node' (j + 1) nodes k (by simpa using hk)
      rw [show j + 1 + k = j + (k + 1) by omega] at ih
      simp only [List.set_cons_succ, connectedFrom, List.getElem_cons_succ]
      omega

section Counter

variable {ownPnn j : Nat} (n : UInt32) (node : CtdbNode)

/-- `ctdb_node_dead` steps the counter with the node's disconnected bit. -/
theorem ctdbNodeDead_count (hj : j ≠ ownPnn) :
    (ctdbNodeDead n node).1 + UInt32.ofNat (countsConnected ownPnn j node) =
      n + UInt32.ofNat (countsConnected ownPnn j (ctdbNodeDead n node).2) := by
  unfold ctdbNodeDead
  split
  · rfl
  · next hdisc =>
      have hdisc' : (node.flags ||| (NODE_FLAGS_DISCONNECTED ||| NODE_FLAGS_UNHEALTHY)) &&&
          NODE_FLAGS_DISCONNECTED ≠ 0 := or_and_ne_zero _ (by decide)
      simp only [countsConnected, ne_eq, hj, not_false_eq_true, true_and, not_not.mp hdisc, if_true, hdisc',
        if_false]
      grind

theorem ctdbNodeConnected_count (hj : j ≠ ownPnn) :
    (ctdbNodeConnected n node).1 + UInt32.ofNat (countsConnected ownPnn j node) =
      n + UInt32.ofNat (countsConnected ownPnn j (ctdbNodeConnected n node).2) := by
  unfold ctdbNodeConnected
  split
  · rfl
  · next hdisc =>
      have hconn : ((node.flags &&& ~~~NODE_FLAGS_DISCONNECTED) ||| NODE_FLAGS_UNHEALTHY) &&&
          NODE_FLAGS_DISCONNECTED = 0 := by
        rw [or_and_of_disjoint _ (by decide), and_not_and_self]
      simp only [countsConnected, ne_eq, hj, not_false_eq_true, true_and, hdisc, if_false, hconn, if_true]
      grind

/-- A pass of the walk steps the counter with the node's disconnected bit. -/
theorem checkNode_count (keepaliveLimit : UInt32) :
    (checkNode ownPnn keepaliveLimit n j node).1 + UInt32.ofNat (countsConnected ownPnn j node) =
      n + UInt32.ofNat (countsConnected ownPnn j (checkNode ownPnn keepaliveLimit n j node).2.1) := by
  unfold checkNode
  split_ifs with hdel hown hdisc hrx
  · rfl
  · rfl
  · exact ctdbNodeConnected_count n node hown
  · rfl
  all_goals
    -- the counters of a connected node are reset before the test, its flags kept
    dsimp only
    split
    · exact ctdbNodeDead_count n _ hown
    · rfl

end Counter

theorem checkForDeadNodesLoop_count (ownPnn : Nat) (keepaliveLimit : UInt32) :
    ∀ (j : Nat) (n : UInt32) (nodes : List CtdbNode),
      (checkForDeadNodesLoop ownPnn keepaliveLimit j n nodes).1 + UInt32.ofNat (connectedFrom ownPnn j nodes) =
        n + UInt32.ofNat (connectedFrom ownPnn j (checkForDeadNodesLoop ownPnn keepaliveLimit j n nodes).2.1)
  | _, _, [] => rfl
  | j, n, node :: nodes => by
      have hnode := @checkNode_count ownPnn j n node keepaliveLimit
      have hrest := checkForDeadNodesLoop_count ownPnn keepaliveLimit (j + 1)
        (checkNode ownPnn keepaliveLimit n j node).1 nodes
      simp only [checkForDeadNodesLoop, connectedFrom, UInt32.ofNat_add]
      grind

/-! ## The walk and the steps as a whole -/

@[simp] theorem ctdbCheckForDeadNodes_pnn (ctdb : KeepaliveCtx) (keepaliveLimit : UInt32) :
    (ctdbCheckForDeadNodes ctdb keepaliveLimit).1.pnn = ctdb.pnn :=
  rfl

theorem getElem?_ctdbCheckForDeadNodes (ctdb : KeepaliveCtx) (keepaliveLimit : UInt32) (j : Nat) :
    (ctdbCheckForDeadNodes ctdb keepaliveLimit).1.nodes[j]? =
      ctdb.nodes[j]?.map fun node => (checkNode ctdb.pnn keepaliveLimit 0 j node).2.1 := by
  have h := getElem?_checkForDeadNodesLoop ctdb.pnn keepaliveLimit 0 ctdb.numConnected ctdb.nodes j
  rw [Nat.zero_add] at h
  exact h

/-- The walk keeps `num_connected` in step with the nodes it marks dead or
connected. -/
theorem ctdbCheckForDeadNodes_count (ctdb : KeepaliveCtx) (keepaliveLimit : UInt32) :
    (ctdbCheckForDeadNodes ctdb keepaliveLimit).1.numConnected + UInt32.ofNat ctdb.connectedPeers =
      ctdb.numConnected + UInt32.ofNat (ctdbCheckForDeadNodes ctdb keepaliveLimit).1.connectedPeers :=
  checkForDeadNodesLoop_count ctdb.pnn keepaliveLimit 0 ctdb.numConnected ctdb.nodes

@[simp] theorem ctdbRecvPkt_pnn (ctdb : KeepaliveCtx) (srcnode operation hopcount : UInt32) :
    (ctdbRecvPkt ctdb srcnode operation hopcount).pnn = ctdb.pnn := by
  unfold ctdbRecvPkt
  split_ifs <;> rfl

@[simp] theorem transportNodeDead_pnn (ctdb : KeepaliveCtx) (pnn : Nat) :
    (transportNodeDead ctdb pnn).pnn = ctdb.pnn := by
  unfold transportNodeDead
  split <;> rfl

@[simp] theorem ctdbControlModflags_pnn (ctdb : KeepaliveCtx) (c : NodeFlagChange) :
    (ctdbControlModflags ctdb c).2.pnn = ctdb.pnn := by
  unfold ctdbControlModflags
  split <;> rfl

@[simp] theorem keepaliveStep_pnn (ctdb : KeepaliveCtx) (e : KeepaliveEvent) :
    (keepaliveStep ctdb e).pnn = ctdb.pnn := by
  cases e <;> simp [keepaliveStep]

@[simp] theorem length_keepaliveStep (ctdb : KeepaliveCtx) (e : KeepaliveEvent) :
    (keepaliveStep ctdb e).nodes.length = ctdb.nodes.length := by
  cases e with
  | recvPkt => exact length_ctdbRecvPkt ..
  | checkForDeadNodes => exact length_checkForDeadNodesLoop ..
  | nodeDead => exact length_transportNodeDead ..
  | modflags => exact length_ctdbControlModflags ..

/-! ## The invariant -/

/-- No `dead_count` is at the largest value, so that raising it does not
wrap. -/
def DeadCountsBelow (ctdb : KeepaliveCtx) : Prop :=
  ∀ (k : Nat) (node : CtdbNode), ctdb.nodes[k]? = some node → node.deadCount < 0xFFFFFFFF

/-- What every state reached from the start keeps: `num_connected` counts the
other nodes that are connected, in 32-bit arithmetic, and the `dead_count`s
do not wrap. -/
structure KeepaliveInv (ctdb : KeepaliveCtx) : Prop where
  numConnected : ctdb.numConnected = UInt32.ofNat ctdb.connectedPeers
  deadCount : DeadCountsBelow ctdb

theorem connectedFrom_eq_zero (ownPnn : Nat) :
    ∀ (j : Nat) (nodes : List CtdbNode), (∀ (k : Nat) (node : CtdbNode), nodes[k]? = some node →
      j + k ≠ ownPnn → node.flags &&& NODE_FLAGS_DISCONNECTED ≠ 0) → connectedFrom ownPnn j nodes = 0
  | _, [], _ => rfl
  | j, node :: nodes, h => by
      have hhead : countsConnected ownPnn j node = 0 := by
        have := h 0 node rfl
        unfold countsConnected
        split_ifs with hc
        · exact absurd hc.2 (this hc.1)
        · rfl
      have htail := connectedFrom_eq_zero ownPnn (j + 1) nodes fun k node hk hne =>
        h (k + 1) node hk (by omega)
      simp only [connectedFrom, hhead, htail]

/-- Every node is added disconnected and with a `dead_count` of 0, and only
the daemon's own is connected. -/
theorem keepaliveInv_start (pnn : Nat) (deleted : List Bool) (startAsDisabled startAsStopped : Bool) :
    KeepaliveInv (keepaliveStart pnn deleted startAsDisabled startAsStopped) := by
  have hadded : ∀ (k : Nat) (node : CtdbNode),
      (keepaliveStart pnn deleted startAsDisabled startAsStopped).nodes[k]? = some node →
        node.deadCount = 0 ∧ (k ≠ pnn → node.flags &&& NODE_FLAGS_DISCONNECTED ≠ 0) := by
    intro k node hk
    simp only [keepaliveStart, initialiseNodeFlags, List.getElem?_modify, List.getElem?_map] at hk
    cases hb : deleted[k]? with
    | none => simp [hb] at hk
    | some b =>
        simp only [hb, Option.map_some, Option.map_eq_map, Option.some.injEq] at hk
        subst hk
        by_cases hp : pnn = k
        · -- the daemon's own node: only its flags are written
          rw [if_pos hp]
          exact ⟨by cases b <;> rfl, fun hne => absurd hp.symm hne⟩
        · rw [if_neg hp]
          exact ⟨by cases b <;> rfl, fun _ => by cases b <;> decide⟩
  refine ⟨?_, fun k node hk => by rw [(hadded k node hk).1]; decide⟩
  have hzero : (keepaliveStart pnn deleted startAsDisabled startAsStopped).connectedPeers = 0 :=
    connectedFrom_eq_zero _ 0 _ fun k node hk hne => (hadded k node hk).2 (by rw [Nat.zero_add] at hne; exact hne)
  rw [hzero]
  rfl

theorem ctdbNodeDead_of_connected (n : UInt32) (node : CtdbNode)
    (h : node.flags &&& NODE_FLAGS_DISCONNECTED = 0) :
    ctdbNodeDead n node = (n - 1, { node with
      flags := node.flags ||| (NODE_FLAGS_DISCONNECTED ||| NODE_FLAGS_UNHEALTHY), rxCnt := 0, deadCount := 0 }) := by
  unfold ctdbNodeDead
  rw [if_neg (not_not.mpr h)]

theorem ctdbNodeDead_deadCount (n : UInt32) (node : CtdbNode) :
    (ctdbNodeDead n node).2.deadCount = node.deadCount ∨ (ctdbNodeDead n node).2.deadCount = 0 := by
  unfold ctdbNodeDead
  split
  · exact Or.inl rfl
  · exact Or.inr rfl

theorem ctdbNodeConnected_deadCount (n : UInt32) (node : CtdbNode) :
    (ctdbNodeConnected n node).2.deadCount = node.deadCount ∨ (ctdbNodeConnected n node).2.deadCount = 0 := by
  unfold ctdbNodeConnected
  split
  · exact Or.inl rfl
  · exact Or.inr rfl

theorem lt_max_of_lt {x y : UInt32} (h : x < y) : x < 0xFFFFFFFF := by
  have := y.toNat_lt
  rw [UInt32.lt_iff_toNat_lt] at h ⊢
  simp only [UInt32.reduceToNat]
  omega

/-- A `dead_count` below the largest value stays below it through a pass of
the walk: it is cleared, or raised to below the limit. -/
theorem checkNode_deadCount {ownPnn j : Nat} {keepaliveLimit n : UInt32} {node : CtdbNode}
    (hd : node.deadCount < 0xFFFFFFFF) :
    (checkNode ownPnn keepaliveLimit n j node).2.1.deadCount < 0xFFFFFFFF := by
  have hzero : (0 : UInt32) < 0xFFFFFFFF := by decide
  unfold checkNode
  split_ifs with hdel hown hdisc
  · exact hd
  · exact hd
  · show (ctdbNodeConnected n node).2.deadCount < _
    rcases ctdbNodeConnected_deadCount n node with h | h <;> rw [h]
    · exact hd
    · exact hzero
  · exact hd
  all_goals
    dsimp only
    split
    · -- marked dead: its counters are cleared
      rw [ctdbNodeDead_of_connected n ⟨node.flags, _, 0⟩ (not_not.mp hdisc)]
      exact hzero
    · next hlt => exact lt_max_of_lt (UInt32.not_le.mp hlt)

/-- Two states whose nodes other than the daemon's own have the same
disconnected bits count the same nodes as connected. -/
theorem connectedPeers_congr {ctdb ctdb' : KeepaliveCtx} (hpnn : ctdb'.pnn = ctdb.pnn)
    (hlen : ctdb'.nodes.length = ctdb.nodes.length)
    (h : ∀ k, k ≠ ctdb.pnn → ctdb'.nodes[k]?.map (·.flags &&& NODE_FLAGS_DISCONNECTED) =
      ctdb.nodes[k]?.map (·.flags &&& NODE_FLAGS_DISCONNECTED)) :
    ctdb'.connectedPeers = ctdb.connectedPeers := by
  unfold KeepaliveCtx.connectedPeers
  rw [hpnn]
  refine connectedFrom_congr ctdb.pnn 0 _ _ hlen fun k => ?_
  rw [Nat.zero_add]
  by_cases hk : k = ctdb.pnn
  · -- the daemon's own node counts for nothing, whatever its flags
    have hown : countsConnected ctdb.pnn k = fun _ => 0 := funext fun node => by simp [countsConnected, hk]
    rw [hown]
    cases hlt : decide (k < ctdb.nodes.length)
    · have hge : ctdb.nodes.length ≤ k := by simpa using hlt
      rw [List.getElem?_eq_none (hlen ▸ hge), List.getElem?_eq_none hge]
    · have hlt : k < ctdb.nodes.length := by simpa using hlt
      rw [List.getElem?_eq_getElem (hlen ▸ hlt), List.getElem?_eq_getElem hlt]
      rfl
  · have hcount : countsConnected ctdb.pnn k =
        (fun b => if b = 0 then 1 else 0) ∘ (·.flags &&& NODE_FLAGS_DISCONNECTED) := by
      funext node
      simp [countsConnected, hk]
    rw [hcount, ← Option.map_map, ← Option.map_map, h k hk]

namespace DeadCountsBelow

variable {ctdb : KeepaliveCtx} (h : DeadCountsBelow ctdb)
include h

/-- An event that does to each node what a function of it does keeps the
bound when the function does. -/
theorem of_map {ctdb' : KeepaliveCtx} {f : Nat → CtdbNode → CtdbNode}
    (hmap : ∀ k, ctdb'.nodes[k]? = ctdb.nodes[k]?.map (f k))
    (hf : ∀ k node, node.deadCount < 0xFFFFFFFF → (f k node).deadCount < 0xFFFFFFFF) :
    DeadCountsBelow ctdb' := by
  intro k node hk
  rw [hmap, Option.map_eq_some_iff] at hk
  obtain ⟨node₀, hk₀, rfl⟩ := hk
  exact hf k node₀ (h k node₀ hk₀)

theorem recvPkt (srcnode operation hopcount : UInt32) :
    DeadCountsBelow (ctdbRecvPkt ctdb srcnode operation hopcount) :=
  h.of_map (getElem?_ctdbRecvPkt ctdb srcnode operation hopcount) fun _ _ hd => by
    split
    · exact hd
    · exact hd

theorem checkForDeadNodes (keepaliveLimit : UInt32) :
    DeadCountsBelow (ctdbCheckForDeadNodes ctdb keepaliveLimit).1 :=
  h.of_map (getElem?_ctdbCheckForDeadNodes ctdb keepaliveLimit) fun _ _ hd => checkNode_deadCount hd

theorem nodeDead (pnn : Nat) : DeadCountsBelow (transportNodeDead ctdb pnn) :=
  h.of_map (getElem?_transportNodeDead ctdb pnn) fun _ node hd => by
    split
    · rcases ctdbNodeDead_deadCount 0 node with h0 | h0 <;> rw [h0]
      · exact hd
      · decide
    · exact hd

theorem modflags (c : NodeFlagChange) : DeadCountsBelow (ctdbControlModflags ctdb c).2 := by
  intro k node hk
  have hc := ctdbControlModflags_counters ctdb c k
  rw [hk, Option.map_some] at hc
  obtain ⟨node₀, hk₀, heq⟩ := Option.map_eq_some_iff.mp hc.symm
  have hsame : node.deadCount = node₀.deadCount := (Prod.mk.inj heq).1.symm
  rw [hsame]
  exact h k node₀ hk₀

theorem step (e : KeepaliveEvent) : DeadCountsBelow (keepaliveStep ctdb e) := by
  cases e with
  | recvPkt srcnode operation hopcount => exact h.recvPkt srcnode operation hopcount
  | checkForDeadNodes keepaliveLimit => exact h.checkForDeadNodes keepaliveLimit
  | nodeDead pnn => exact h.nodeDead pnn
  | modflags c => exact h.modflags c

end DeadCountsBelow

namespace KeepaliveInv

variable {ctdb : KeepaliveCtx} (h : KeepaliveInv ctdb)
include h

theorem recvPkt (srcnode operation hopcount : UInt32) :
    KeepaliveInv (ctdbRecvPkt ctdb srcnode operation hopcount) := by
  -- a packet writes only a counter of the node it comes from
  have hflags : ∀ k : Nat, (ctdbRecvPkt ctdb srcnode operation hopcount).nodes[k]?.map
      (fun node : CtdbNode => node.flags &&& NODE_FLAGS_DISCONNECTED) =
        ctdb.nodes[k]?.map (fun node : CtdbNode => node.flags &&& NODE_FLAGS_DISCONNECTED) := by
    intro k
    rw [getElem?_ctdbRecvPkt, Option.map_map]
    congr 1
    funext node
    simp only [Function.comp_apply]
    split <;> rfl
  have hpeers := connectedPeers_congr (ctdbRecvPkt_pnn ..) (length_ctdbRecvPkt ..) fun k _ => hflags k
  refine ⟨?_, h.deadCount.recvPkt srcnode operation hopcount⟩
  rw [hpeers, ← h.numConnected]
  unfold ctdbRecvPkt
  split_ifs <;> rfl

theorem checkForDeadNodes (keepaliveLimit : UInt32) :
    KeepaliveInv (ctdbCheckForDeadNodes ctdb keepaliveLimit).1 := by
  refine ⟨?_, h.deadCount.checkForDeadNodes keepaliveLimit⟩
  have hcount := ctdbCheckForDeadNodes_count ctdb keepaliveLimit
  rw [h.numConnected, UInt32.add_comm (UInt32.ofNat _)] at hcount
  exact add_right_cancel hcount

theorem nodeDead {pnn : Nat} (hpnn : pnn ≠ ctdb.pnn) : KeepaliveInv (transportNodeDead ctdb pnn) := by
  refine ⟨?_, h.deadCount.nodeDead pnn⟩
  unfold transportNodeDead
  cases hnode : ctdb.nodes[pnn]? with
  | none => exact h.numConnected
  | some node =>
      obtain ⟨hlt, rfl⟩ := List.getElem?_eq_some_iff.mp hnode
      have hset := connectedFrom_set ctdb.pnn (ctdbNodeDead ctdb.numConnected ctdb.nodes[pnn]).2 0 ctdb.nodes pnn hlt
      rw [Nat.zero_add] at hset
      have hdead := ctdbNodeDead_count ctdb.numConnected ctdb.nodes[pnn] hpnn
      show (ctdbNodeDead ctdb.numConnected ctdb.nodes[pnn]).1 = UInt32.ofNat
        (connectedFrom ctdb.pnn 0 (ctdb.nodes.set pnn (ctdbNodeDead ctdb.numConnected ctdb.nodes[pnn]).2))
      -- the counter and the count both move by what the node counted
      have hsum : (ctdbNodeDead ctdb.numConnected ctdb.nodes[pnn]).1 +
          UInt32.ofNat (countsConnected ctdb.pnn pnn ctdb.nodes[pnn]) = UInt32.ofNat
            (connectedFrom ctdb.pnn 0 (ctdb.nodes.set pnn (ctdbNodeDead ctdb.numConnected ctdb.nodes[pnn]).2)) +
          UInt32.ofNat (countsConnected ctdb.pnn pnn ctdb.nodes[pnn]) := by
        rw [hdead, ← UInt32.ofNat_add, hset, UInt32.ofNat_add]
        exact congrArg (· + _) h.numConnected
      exact add_right_cancel hsum

theorem modflags (c : NodeFlagChange) : KeepaliveInv (ctdbControlModflags ctdb c).2 := by
  have hpeers := connectedPeers_congr (ctdbControlModflags_pnn ..) (length_ctdbControlModflags ..)
    fun k hk => ctdbControlModflags_disconnected ctdb c hk
  refine ⟨?_, h.deadCount.modflags c⟩
  rw [hpeers, ← h.numConnected]
  unfold ctdbControlModflags
  split <;> rfl

end KeepaliveInv

/-! ## Runs -/

@[simp] theorem keepaliveRun_nil (ctdb : KeepaliveCtx) : keepaliveRun ctdb [] = ctdb := rfl

@[simp] theorem keepaliveRun_cons (ctdb : KeepaliveCtx) (e : KeepaliveEvent) (evs : List KeepaliveEvent) :
    keepaliveRun ctdb (e :: evs) = keepaliveRun (keepaliveStep ctdb e) evs :=
  rfl

theorem keepaliveRun_append (ctdb : KeepaliveCtx) (evs evs' : List KeepaliveEvent) :
    keepaliveRun ctdb (evs ++ evs') = keepaliveRun (keepaliveRun ctdb evs) evs' :=
  List.foldl_append

@[simp] theorem keepaliveRun_pnn (ctdb : KeepaliveCtx) (evs : List KeepaliveEvent) :
    (keepaliveRun ctdb evs).pnn = ctdb.pnn := by
  induction evs generalizing ctdb with
  | nil => rfl
  | cons e evs ih => rw [keepaliveRun_cons, ih, keepaliveStep_pnn]

@[simp] theorem length_keepaliveRun (ctdb : KeepaliveCtx) (evs : List KeepaliveEvent) :
    (keepaliveRun ctdb evs).nodes.length = ctdb.nodes.length := by
  induction evs generalizing ctdb with
  | nil => rfl
  | cons e evs ih => rw [keepaliveRun_cons, ih, length_keepaliveStep]

/-- Every event keeps the invariant, but a report from the transport that the
daemon's own node is dead: that one takes a node off the counter that is not
on it. -/
theorem keepaliveStep_inv {ctdb : KeepaliveCtx} (h : KeepaliveInv ctdb) {e : KeepaliveEvent}
    (he : e ≠ .nodeDead ctdb.pnn) : KeepaliveInv (keepaliveStep ctdb e) := by
  cases e with
  | recvPkt srcnode operation hopcount => exact h.recvPkt srcnode operation hopcount
  | checkForDeadNodes keepaliveLimit => exact h.checkForDeadNodes keepaliveLimit
  | nodeDead pnn =>
      refine h.nodeDead fun hpnn => he ?_
      rw [hpnn]
  | modflags c => exact h.modflags c

theorem keepaliveRun_inv {ctdb : KeepaliveCtx} (h : KeepaliveInv ctdb) {evs : List KeepaliveEvent}
    (hown : ∀ e ∈ evs, e ≠ .nodeDead ctdb.pnn) : KeepaliveInv (keepaliveRun ctdb evs) := by
  induction evs generalizing ctdb with
  | nil => exact h
  | cons e evs ih =>
      rw [keepaliveRun_cons]
      refine ih (keepaliveStep_inv h (hown e List.mem_cons_self)) fun e' he' => ?_
      rw [keepaliveStep_pnn]
      exact hown e' (List.mem_cons_of_mem _ he')

theorem DeadCountsBelow.run {ctdb : KeepaliveCtx} (h : DeadCountsBelow ctdb) (evs : List KeepaliveEvent) :
    DeadCountsBelow (keepaliveRun ctdb evs) := by
  induction evs generalizing ctdb with
  | nil => exact h
  | cons e evs ih => exact ih (h.step e)

/-- Whatever packets come in, whatever limits the walks use and whatever flags
the recovery master pushes, as long as the transport does not report the
daemon's own node dead, `num_connected` is the number of other nodes that are
connected. -/
theorem keepaliveRun_numConnected (pnn : Nat) {deleted : List Bool} (startAsDisabled startAsStopped : Bool)
    (hlen : deleted.length < 2 ^ 32) {evs : List KeepaliveEvent} (hown : ∀ e ∈ evs, e ≠ .nodeDead pnn) :
    (keepaliveRun (keepaliveStart pnn deleted startAsDisabled startAsStopped) evs).numConnected.toNat =
      (keepaliveRun (keepaliveStart pnn deleted startAsDisabled startAsStopped) evs).connectedPeers := by
  have h := keepaliveRun_inv (keepaliveInv_start pnn deleted startAsDisabled startAsStopped) hown
  have hle := connectedFrom_le_length (keepaliveRun (keepaliveStart pnn deleted startAsDisabled startAsStopped) evs).pnn
    0 (keepaliveRun (keepaliveStart pnn deleted startAsDisabled startAsStopped) evs).nodes
  have hnodes : (keepaliveStart pnn deleted startAsDisabled startAsStopped).nodes.length = deleted.length := by
    simp [keepaliveStart, initialiseNodeFlags]
  rw [length_keepaliveRun, hnodes] at hle
  rw [h.numConnected, UInt32.toNat_ofNat', Nat.mod_eq_of_lt]
  exact lt_of_le_of_lt hle hlen

theorem keepaliveRun_numConnected_one_peer :
    (keepaliveRun (keepaliveStart 0 [false, false, true] false false)
      [.recvPkt 1 9 0, .checkForDeadNodes 5]).numConnected.toNat = 1 := by
  rw [keepaliveRun_numConnected 0 false false (by decide) (by decide)]
  rfl

/-! ## One node through a run -/

/-- After `ctdb_node_dead` a node is disconnected; it keeps its deleted bit. -/
theorem ctdbNodeDead_flags (n : UInt32) (node : CtdbNode) :
    (ctdbNodeDead n node).2.flags &&& NODE_FLAGS_DISCONNECTED ≠ 0 ∧
      (ctdbNodeDead n node).2.flags &&& NODE_FLAGS_DELETED = node.flags &&& NODE_FLAGS_DELETED := by
  unfold ctdbNodeDead
  split
  · next hdisc => exact ⟨hdisc, rfl⟩
  · exact ⟨or_and_ne_zero _ (by decide), or_and_of_disjoint _ (by decide)⟩

/-- After `ctdb_node_connected` a node is connected; it keeps its deleted bit. -/
theorem ctdbNodeConnected_flags (n : UInt32) (node : CtdbNode) :
    (ctdbNodeConnected n node).2.flags &&& NODE_FLAGS_DISCONNECTED = 0 ∧
      (ctdbNodeConnected n node).2.flags &&& NODE_FLAGS_DELETED = node.flags &&& NODE_FLAGS_DELETED := by
  unfold ctdbNodeConnected
  split
  · next hdisc => exact ⟨hdisc, rfl⟩
  · refine ⟨?_, ?_⟩
    · rw [or_and_of_disjoint _ (by decide), and_not_and_self]
    · rw [or_and_of_disjoint _ (by decide), and_not_and_of_disjoint _ (by decide)]

section Walk

variable {ownPnn j : Nat} {keepaliveLimit n : UInt32} {node : CtdbNode}
  (hdel : node.flags &&& NODE_FLAGS_DELETED = 0) (hj : j ≠ ownPnn)
include hdel hj

/-- The walk over another node that is connected: `dead_count` is raised when
nothing was heard and cleared otherwise, `rx_cnt` is cleared, and the node is
marked dead when `dead_count` reaches the limit. -/
theorem checkNode_of_connected (hdisc : node.flags &&& NODE_FLAGS_DISCONNECTED = 0) :
    (checkNode ownPnn keepaliveLimit n j node).2.1 =
      let node' := { node with deadCount := if node.rxCnt = 0 then node.deadCount + 1 else 0, rxCnt := 0 }
      if node'.deadCount ≥ keepaliveLimit then (ctdbNodeDead 0 node').2 else node' := by
  unfold checkNode
  rw [if_neg (not_not.mpr hdel), if_neg hj, if_neg (not_not.mpr hdisc)]
  dsimp only
  -- heard or not, then marked dead or not
  split_ifs
  · exact ctdbNodeDead_node n 0 _
  · rfl
  · exact ctdbNodeDead_node n 0 _
  · rfl

/-- The walk over another node that is disconnected: it is marked connected
when it has been heard since, and left alone otherwise. -/
theorem checkNode_of_disconnected (hdisc : node.flags &&& NODE_FLAGS_DISCONNECTED ≠ 0) :
    (checkNode ownPnn keepaliveLimit n j node).2.1 =
      if node.rxCnt ≠ 0 then (ctdbNodeConnected 0 node).2 else node := by
  unfold checkNode
  rw [if_neg (not_not.mpr hdel), if_neg hj, if_pos hdisc]
  split
  · exact ctdbNodeConnected_node n 0 _
  · rfl

end Walk

/-! ## A silent node is marked dead -/

/-- An event in which the node at pnn `j` is not heard from and its flags are
not pushed, and which, if it is a walk, uses a limit of at most
`keepaliveLimit`. -/
def SilentFor (j : Nat) (keepaliveLimit : UInt32) : KeepaliveEvent → Prop
  | .recvPkt srcnode operation hopcount => ¬ (srcnode.toNat = j ∧ (operation ≠ CTDB_REQ_CALL ∨ hopcount = 0))
  | .checkForDeadNodes limit => limit ≤ keepaliveLimit
  | .nodeDead _ => True
  | .modflags c => c.pnn.toNat ≠ j

instance SilentFor.decidable (j : Nat) (keepaliveLimit : UInt32) :
    (e : KeepaliveEvent) → Decidable (SilentFor j keepaliveLimit e)
  | .recvPkt srcnode operation hopcount =>
      inferInstanceAs (Decidable (¬ (srcnode.toNat = j ∧ (operation ≠ CTDB_REQ_CALL ∨ hopcount = 0))))
  | .checkForDeadNodes limit => inferInstanceAs (Decidable (limit ≤ keepaliveLimit))
  | .nodeDead _ => inferInstanceAs (Decidable True)
  | .modflags c => inferInstanceAs (Decidable (c.pnn.toNat ≠ j))

def KeepaliveEvent.isWalk : KeepaliveEvent → Bool
  | .checkForDeadNodes _ => true
  | _ => false

/-- Where a node is after `k` walks without being heard: marked dead, with
nothing heard since; or connected and not deleted, and after a walk with
nothing heard since and a `dead_count` of at least `k - 1`, below the limit. -/
def SilentAfter (keepaliveLimit : UInt32) (k : Nat) (node : CtdbNode) : Prop :=
  (node.flags &&& NODE_FLAGS_DISCONNECTED ≠ 0 ∧ node.rxCnt = 0) ∨
    (node.flags &&& NODE_FLAGS_DISCONNECTED = 0 ∧ node.flags &&& NODE_FLAGS_DELETED = 0 ∧
      (k = 0 ∧ node.deadCount < 0xFFFFFFFF ∨
        0 < k ∧ node.rxCnt = 0 ∧ k - 1 ≤ node.deadCount.toNat ∧ node.deadCount < keepaliveLimit))

namespace SilentAfter

variable {keepaliveLimit : UInt32} {k : Nat} {node : CtdbNode}

theorem nodeDead (h : SilentAfter keepaliveLimit k node) :
    SilentAfter keepaliveLimit k (ctdbNodeDead 0 node).2 := by
  rcases h with ⟨hdisc, hrx⟩ | ⟨hconn, -, -⟩
  · left
    unfold ctdbNodeDead
    rw [if_pos hdisc]
    exact ⟨hdisc, hrx⟩
  · left
    rw [ctdbNodeDead_of_connected 0 node hconn]
    exact ⟨or_and_ne_zero _ (by decide), rfl⟩

/-- A walk with a limit of at most `keepaliveLimit` takes a silent node one
walk further: a dead one stays dead, and a connected one has its
`dead_count` raised, or is marked dead. -/
theorem walk {ownPnn j : Nat} {limit n : UInt32} (hj : j ≠ ownPnn) (hlimit : limit ≤ keepaliveLimit)
    (h : SilentAfter keepaliveLimit k node) :
    SilentAfter keepaliveLimit (k + 1) (checkNode ownPnn limit n j node).2.1 := by
  rcases h with ⟨hdisc, hrx⟩ | ⟨hconn, hdel, hk⟩
  · left
    by_cases hdel : node.flags &&& NODE_FLAGS_DELETED = 0
    · rw [checkNode_of_disconnected hdel hj hdisc, if_neg (not_not.mpr hrx)]
      exact ⟨hdisc, hrx⟩
    · unfold checkNode
      rw [if_pos hdel]
      exact ⟨hdisc, hrx⟩
  · rw [checkNode_of_connected hdel hj hconn]
    -- `d'` is the raised or cleared `dead_count`
    generalize hd : (if node.rxCnt = 0 then node.deadCount + 1 else 0) = d'
    dsimp only
    split
    · left
      rw [ctdbNodeDead_of_connected 0 ⟨node.flags, d', 0⟩ hconn]
      exact ⟨or_and_ne_zero _ (by decide), rfl⟩
    · next hlt =>
        right
        refine ⟨hconn, hdel, Or.inr ⟨Nat.succ_pos k, rfl, ?_, UInt32.lt_of_lt_of_le (UInt32.not_le.mp hlt) hlimit⟩⟩
        rcases hk with ⟨rfl, -⟩ | ⟨-, hrx, hle, hbelow⟩
        · exact Nat.zero_le _
        · -- `dead_count` is below the limit, so raising it does not wrap
          have hmax := lt_max_of_lt hbelow
          rw [UInt32.lt_iff_toNat_lt] at hmax
          simp only [UInt32.reduceToNat] at hmax
          rw [← hd, if_pos hrx, UInt32.toNat_add, UInt32.toNat_one, Nat.mod_eq_of_lt (by omega)]
          omega

end SilentAfter

theorem silentAfter_keepaliveStep {ctdb : KeepaliveCtx} {j : Nat} (hj : j ≠ ctdb.pnn) {keepaliveLimit : UInt32}
    {k : Nat} {node : CtdbNode} (hnode : ctdb.nodes[j]? = some node) (h : SilentAfter keepaliveLimit k node)
    {e : KeepaliveEvent} (he : SilentFor j keepaliveLimit e) :
    ∃ node', (keepaliveStep ctdb e).nodes[j]? = some node' ∧
      SilentAfter keepaliveLimit (k + if e.isWalk then 1 else 0) node' := by
  cases e with
  | recvPkt srcnode operation hopcount =>
      refine ⟨node, ?_, h⟩
      simp only [keepaliveStep, getElem?_ctdbRecvPkt, hnode, Option.map_some]
      rw [if_neg he]
  | checkForDeadNodes limit =>
      refine ⟨(checkNode ctdb.pnn limit 0 j node).2.1, ?_, h.walk hj he⟩
      simp only [keepaliveStep, getElem?_ctdbCheckForDeadNodes, hnode, Option.map_some]
  | nodeDead pnn =>
      simp only [keepaliveStep, getElem?_transportNodeDead, hnode, Option.map_some]
      split
      · exact ⟨_, rfl, h.nodeDead⟩
      · exact ⟨node, rfl, h⟩
  | modflags c =>
      refine ⟨node, ?_, h⟩
      rw [keepaliveStep, getElem?_ctdbControlModflags_of_ne ctdb c he, hnode]

theorem silentAfter_keepaliveRun {j : Nat} {keepaliveLimit : UInt32} :
    ∀ (evs : List KeepaliveEvent) {ctdb : KeepaliveCtx} {k : Nat} {node : CtdbNode}, j ≠ ctdb.pnn →
      ctdb.nodes[j]? = some node → SilentAfter keepaliveLimit k node →
      (∀ e ∈ evs, SilentFor j keepaliveLimit e) →
      ∃ node', (keepaliveRun ctdb evs).nodes[j]? = some node' ∧
        SilentAfter keepaliveLimit (k + evs.countP KeepaliveEvent.isWalk) node'
  | [], _, _, node, _, hnode, h, _ => ⟨node, hnode, h⟩
  | e :: evs, ctdb, k, node, hj, hnode, h, hsilent => by
      obtain ⟨node₁, hnode₁, h₁⟩ := silentAfter_keepaliveStep hj hnode h (hsilent e List.mem_cons_self)
      obtain ⟨node', hnode', h'⟩ := silentAfter_keepaliveRun evs (by rw [keepaliveStep_pnn]; exact hj) hnode₁ h₁
        fun e' he' => hsilent e' (List.mem_cons_of_mem _ he')
      refine ⟨node', hnode', ?_⟩
      rw [List.countP_cons]
      have hk : k + (if e.isWalk then 1 else 0) + evs.countP KeepaliveEvent.isWalk =
          k + (evs.countP KeepaliveEvent.isWalk + if e.isWalk = true then 1 else 0) := by
        split <;> omega
      rw [← hk]
      exact h'

/-- A node that is connected, in any state the daemon can reach, and then is
not heard from through `KeepaliveLimit + 1` walks is marked dead by then: the
first walk may still count what it sent before, and each later one raises its
`dead_count`. The walks may use smaller limits, and the transport may report
the node dead on the way. -/
theorem keepaliveRun_silent_dead {pnn j : Nat} {deleted : List Bool} {startAsDisabled startAsStopped : Bool}
    (evs₀ evs : List KeepaliveEvent) (keepaliveLimit : UInt32) {node : CtdbNode} (hj : j ≠ pnn)
    (hnode : (keepaliveRun (keepaliveStart pnn deleted startAsDisabled startAsStopped) evs₀).nodes[j]? = some node)
    (hconn : node.flags &&& NODE_FLAGS_DISCONNECTED = 0) (hdel : node.flags &&& NODE_FLAGS_DELETED = 0)
    (hsilent : ∀ e ∈ evs, SilentFor j keepaliveLimit e)
    (hwalks : keepaliveLimit.toNat < evs.countP KeepaliveEvent.isWalk) :
    ∃ node', (keepaliveRun (keepaliveStart pnn deleted startAsDisabled startAsStopped) (evs₀ ++ evs)).nodes[j]? =
      some node' ∧ node'.flags &&& NODE_FLAGS_DISCONNECTED ≠ 0 := by
  have hbelow := (keepaliveInv_start pnn deleted startAsDisabled startAsStopped).deadCount.run evs₀ j node hnode
  have h₀ : SilentAfter keepaliveLimit 0 node := Or.inr ⟨hconn, hdel, Or.inl ⟨rfl, hbelow⟩⟩
  obtain ⟨node', hnode', h'⟩ := silentAfter_keepaliveRun evs (by rw [keepaliveRun_pnn]; exact hj) hnode h₀ hsilent
  rw [keepaliveRun_append]
  refine ⟨node', hnode', ?_⟩
  rcases h' with ⟨hdisc, -⟩ | ⟨-, -, hk⟩
  · exact hdisc
  · -- connected after more walks than the limit: `dead_count` would have reached it
    exfalso
    rcases hk with ⟨hk, -⟩ | ⟨-, -, hle, hlt⟩
    · omega
    · rw [UInt32.lt_iff_toNat_lt] at hlt
      omega

theorem keepaliveRun_silent_dead_three_walks :
    ∃ node', (keepaliveRun (keepaliveStart 0 [false, false] false false)
      (([.recvPkt 1 9 0, .checkForDeadNodes 2] : List KeepaliveEvent) ++
        [.checkForDeadNodes 2, .checkForDeadNodes 2, .checkForDeadNodes 2])).nodes[1]? =
        some node' ∧ node'.flags &&& NODE_FLAGS_DISCONNECTED ≠ 0 :=
  keepaliveRun_silent_dead [.recvPkt 1 9 0, .checkForDeadNodes 2]
    [.checkForDeadNodes 2, .checkForDeadNodes 2, .checkForDeadNodes 2] 2 (by decide)
    (show _ = some ⟨2, 0, 1⟩ from rfl) (by decide) (by decide) (by decide) (by decide)

/-! ## A node that is heard stays connected -/

/-- What an event asks of a run in which the node at pnn `j` is heard before
each walk, `n` and `m` being the packets counted from it since the last walk,
and since the last walk or report of its death: a walk needs a limit of at
least one, one packet since the report and fewer than `2 ^ 31` since the last
walk; the recovery master does not push the node's flags. -/
def heardOk (j n m : Nat) : KeepaliveEvent → Bool
  | .checkForDeadNodes keepaliveLimit => 0 < keepaliveLimit && 0 < m && n < 2 ^ 31
  | .modflags c => c.pnn.toNat != j
  | _ => true

/-- The counts after an event. -/
def heardCounts (j n m : Nat) : KeepaliveEvent → Nat × Nat
  | .recvPkt srcnode operation hopcount =>
      if srcnode.toNat = j ∧ (operation ≠ CTDB_REQ_CALL ∨ hopcount = 0) then (n + 1, m + 1) else (n, m)
  | .checkForDeadNodes _ => (0, 0)
  | .nodeDead pnn => (n, if pnn = j then 0 else m)
  | .modflags _ => (n, m)

/-- The node at pnn `j` is heard before each walk of the run. -/
def heardBeforeWalks (j : Nat) : Nat → Nat → List KeepaliveEvent → Bool
  | _, _, [] => true
  | n, m, e :: evs =>
      heardOk j n m e && heardBeforeWalks j (heardCounts j n m e).1 (heardCounts j n m e).2 evs

/-- Where a node that is heard is between two walks, `n` and `m` as in
`heardOk`: not deleted, and either connected, with no report of its death
since the last walk and `rx_cnt` holding the `n` packets over what was left
from before that walk, or marked dead since the last walk, with `rx_cnt`
holding the packets since then. -/
def HeardSince (n m : Nat) (node : CtdbNode) : Prop :=
  node.flags &&& NODE_FLAGS_DELETED = 0 ∧
    ((node.flags &&& NODE_FLAGS_DISCONNECTED = 0 ∧ m = n ∧ ∃ c < 2 ^ 31, node.rxCnt = UInt32.ofNat (c + n)) ∨
      (node.flags &&& NODE_FLAGS_DISCONNECTED ≠ 0 ∧ ∃ r, m ≤ r ∧ r ≤ n ∧ node.rxCnt = UInt32.ofNat r))

theorem ctdbNodeConnected_rxCnt (n : UInt32) (node : CtdbNode) : (ctdbNodeConnected n node).2.rxCnt = node.rxCnt := by
  unfold ctdbNodeConnected
  split <;> rfl

theorem ofNat_ne_zero {x : Nat} (hpos : 0 < x) (hlt : x < 2 ^ 32) : UInt32.ofNat x ≠ 0 := by
  intro h
  have := congrArg UInt32.toNat h
  rw [UInt32.toNat_ofNat', Nat.mod_eq_of_lt hlt] at this
  simp at this
  omega

namespace HeardSince

variable {n m : Nat} {node : CtdbNode}

theorem recvPkt (h : HeardSince n m node) : HeardSince (n + 1) (m + 1) { node with rxCnt := node.rxCnt + 1 } := by
  obtain ⟨hdel, ⟨hconn, rfl, c, hc, hrx⟩ | ⟨hdisc, r, hmr, hrn, hrx⟩⟩ := h
  · refine ⟨hdel, Or.inl ⟨hconn, rfl, c, hc, ?_⟩⟩
    rw [hrx, ← Nat.add_assoc, UInt32.ofNat_add (c + m) 1]
    rfl
  · refine ⟨hdel, Or.inr ⟨hdisc, r + 1, by omega, by omega, ?_⟩⟩
    rw [hrx, UInt32.ofNat_add r 1]
    rfl

theorem nodeDead (h : HeardSince n m node) : HeardSince n 0 (ctdbNodeDead 0 node).2 := by
  obtain ⟨hdel, ⟨hconn, -, -⟩ | ⟨hdisc, r, -, hrn, hrx⟩⟩ := h
  · rw [ctdbNodeDead_of_connected 0 node hconn]
    refine ⟨by rw [or_and_of_disjoint _ (by decide)]; exact hdel,
      Or.inr ⟨or_and_ne_zero _ (by decide), 0, le_rfl, Nat.zero_le n, rfl⟩⟩
  · unfold ctdbNodeDead
    rw [if_pos hdisc]
    exact ⟨hdel, Or.inr ⟨hdisc, r, Nat.zero_le r, hrn, hrx⟩⟩

/-- A walk that finds a node heard since the last walk leaves it connected. -/
theorem walk {ownPnn j : Nat} {keepaliveLimit : UInt32} (n' : UInt32) (hj : j ≠ ownPnn) (hlimit : 0 < keepaliveLimit)
    (hm : 0 < m) (hn : n < 2 ^ 31) (h : HeardSince n m node) :
    (checkNode ownPnn keepaliveLimit n' j node).2.1.flags &&& NODE_FLAGS_DISCONNECTED = 0 ∧
      HeardSince 0 0 (checkNode ownPnn keepaliveLimit n' j node).2.1 := by
  obtain ⟨hdel, ⟨hconn, rfl, c, hc, hrx⟩ | ⟨hdisc, r, hmr, hrn, hrx⟩⟩ := h
  · -- heard: `dead_count` is cleared, which is below any limit but zero
    have hheard : node.rxCnt ≠ 0 := by
      rw [hrx]
      exact ofNat_ne_zero (by omega) (by omega)
    rw [checkNode_of_connected hdel hj hconn]
    dsimp only
    rw [if_neg hheard, if_neg (UInt32.not_le.mpr hlimit)]
    exact ⟨hconn, hdel, Or.inl ⟨hconn, rfl, 0, by omega, rfl⟩⟩
  · -- heard since it was marked dead: it is marked connected, and keeps its `rx_cnt`
    have hheard : node.rxCnt ≠ 0 := by
      rw [hrx]
      exact ofNat_ne_zero (by omega) (by omega)
    rw [checkNode_of_disconnected hdel hj hdisc, if_pos hheard]
    obtain ⟨hconn', hdel'⟩ := ctdbNodeConnected_flags 0 node
    refine ⟨hconn', hdel'.trans hdel, Or.inl ⟨hconn', rfl, r, by omega, ?_⟩⟩
    rw [ctdbNodeConnected_rxCnt, hrx]
    rfl

end HeardSince

theorem heardSince_keepaliveStep {ctdb : KeepaliveCtx} {j : Nat} (hj : j ≠ ctdb.pnn) {n m : Nat}
    {node : CtdbNode} (hnode : ctdb.nodes[j]? = some node) (h : HeardSince n m node) {e : KeepaliveEvent}
    (hok : heardOk j n m e = true) :
    ∃ node', (keepaliveStep ctdb e).nodes[j]? = some node' ∧
      HeardSince (heardCounts j n m e).1 (heardCounts j n m e).2 node' ∧
      (e.isWalk = true → node'.flags &&& NODE_FLAGS_DISCONNECTED = 0) := by
  cases e with
  | recvPkt srcnode operation hopcount =>
      simp only [keepaliveStep, getElem?_ctdbRecvPkt, hnode, Option.map_some, heardCounts]
      split
      · exact ⟨_, rfl, h.recvPkt, fun hwalk => absurd hwalk Bool.false_ne_true⟩
      · exact ⟨node, rfl, h, fun hwalk => absurd hwalk Bool.false_ne_true⟩
  | checkForDeadNodes keepaliveLimit =>
      simp only [heardOk, Bool.and_eq_true, decide_eq_true_eq] at hok
      obtain ⟨⟨hlimit, hm⟩, hn⟩ := hok
      obtain ⟨hconn, h'⟩ := h.walk 0 hj hlimit hm hn
      refine ⟨_, ?_, h', fun _ => hconn⟩
      simp only [keepaliveStep, getElem?_ctdbCheckForDeadNodes, hnode, Option.map_some]
  | nodeDead pnn =>
      simp only [keepaliveStep, getElem?_transportNodeDead, hnode, Option.map_some, heardCounts]
      split
      · exact ⟨_, rfl, h.nodeDead, fun hwalk => absurd hwalk Bool.false_ne_true⟩
      · exact ⟨node, rfl, h, fun hwalk => absurd hwalk Bool.false_ne_true⟩
  | modflags c =>
      simp only [heardOk, bne_iff_ne, ne_eq] at hok
      refine ⟨node, ?_, h, fun hwalk => absurd hwalk Bool.false_ne_true⟩
      rw [keepaliveStep, getElem?_ctdbControlModflags_of_ne ctdb c hok, hnode]

theorem heardSince_keepaliveRun {j : Nat} (keepaliveLimit : UInt32) :
    ∀ (evs : List KeepaliveEvent) {ctdb : KeepaliveCtx} {n m : Nat} {node : CtdbNode}, j ≠ ctdb.pnn →
      ctdb.nodes[j]? = some node → HeardSince n m node →
      heardBeforeWalks j n m (evs ++ [.checkForDeadNodes keepaliveLimit]) = true →
      ∃ node', (keepaliveRun ctdb (evs ++ [.checkForDeadNodes keepaliveLimit])).nodes[j]? = some node' ∧
        node'.flags &&& NODE_FLAGS_DISCONNECTED = 0
  | [], ctdb, n, m, node, hj, hnode, h, hheard => by
      simp only [List.nil_append, heardBeforeWalks, Bool.and_true] at hheard
      obtain ⟨node', hnode', -, hconn⟩ := heardSince_keepaliveStep hj hnode h hheard
      exact ⟨node', hnode', hconn rfl⟩
  | e :: evs, ctdb, n, m, node, hj, hnode, h, hheard => by
      simp only [List.cons_append, heardBeforeWalks, Bool.and_eq_true] at hheard
      obtain ⟨node₁, hnode₁, h₁, -⟩ := heardSince_keepaliveStep hj hnode h hheard.1
      exact heardSince_keepaliveRun keepaliveLimit evs (by rw [keepaliveStep_pnn]; exact hj) hnode₁ h₁ hheard.2

theorem getElem?_keepaliveStart_of_ne {pnn j : Nat} (deleted : List Bool) (startAsDisabled startAsStopped : Bool)
    (hj : j ≠ pnn) :
    (keepaliveStart pnn deleted startAsDisabled startAsStopped).nodes[j]? = deleted[j]?.map CtdbNode.added := by
  simp [keepaliveStart, initialiseNodeFlags, Ne.symm hj]

/-- A node that is heard before every walk, at least once since the last walk
and since the transport last reported it dead, is connected after every walk
whose limit is at least one. The `2 ^ 31` bound on the packets between two
walks is there because `rx_cnt` is a 32-bit counter that is not cleared when
the node is marked connected again, so it may count two intervals' packets. -/
theorem keepaliveRun_heard_connected {pnn j : Nat} {deleted : List Bool} (startAsDisabled startAsStopped : Bool)
    (evs : List KeepaliveEvent) (keepaliveLimit : UInt32) (hj : j ≠ pnn) (hlive : deleted[j]? = some false)
    (hheard : heardBeforeWalks j 0 0 (evs ++ [.checkForDeadNodes keepaliveLimit]) = true) :
    ∃ node, (keepaliveRun (keepaliveStart pnn deleted startAsDisabled startAsStopped)
      (evs ++ [.checkForDeadNodes keepaliveLimit])).nodes[j]? = some node ∧
        node.flags &&& NODE_FLAGS_DISCONNECTED = 0 := by
  have hnode : (keepaliveStart pnn deleted startAsDisabled startAsStopped).nodes[j]? = some (CtdbNode.added false) := by
    rw [getElem?_keepaliveStart_of_ne deleted startAsDisabled startAsStopped hj, hlive, Option.map_some]
  -- every node starts disconnected, with nothing heard
  have h₀ : HeardSince 0 0 (CtdbNode.added false) :=
    ⟨by decide, Or.inr ⟨by decide, 0, le_rfl, le_rfl, rfl⟩⟩
  exact heardSince_keepaliveRun keepaliveLimit evs hj hnode h₀ hheard

theorem keepaliveRun_heard_connected_twice :
    ∃ node, (keepaliveRun (keepaliveStart 0 [false, false] false false)
      (([.recvPkt 1 9 0, .checkForDeadNodes 1, .recvPkt 1 9 0] : List KeepaliveEvent) ++
        [.checkForDeadNodes 1])).nodes[1]? = some node ∧
        node.flags &&& NODE_FLAGS_DISCONNECTED = 0 :=
  keepaliveRun_heard_connected false false [.recvPkt 1 9 0, .checkForDeadNodes 1, .recvPkt 1 9 0] 1 (by decide) rfl
    (by decide)

/-- With a limit of zero every walk marks every connected node dead, whatever
it sent, since `dead_count >= 0` holds of any unsigned count: the bound of
`keepaliveRun_heard_connected` needs a limit of at least one. -/
theorem ctdbCheckForDeadNodes_limit_zero (ctdb : KeepaliveCtx) {j : Nat} {node : CtdbNode} (hj : j ≠ ctdb.pnn)
    (hnode : ctdb.nodes[j]? = some node) (hconn : node.flags &&& NODE_FLAGS_DISCONNECTED = 0)
    (hdel : node.flags &&& NODE_FLAGS_DELETED = 0) :
    ∃ node', (ctdbCheckForDeadNodes ctdb 0).1.nodes[j]? = some node' ∧
      node'.flags &&& NODE_FLAGS_DISCONNECTED ≠ 0 := by
  refine ⟨_, by rw [getElem?_ctdbCheckForDeadNodes, hnode, Option.map_some], ?_⟩
  rw [checkNode_of_connected hdel hj hconn]
  dsimp only
  rw [if_pos UInt32.zero_le]
  exact (ctdbNodeDead_flags 0 _).1

end Ctdb

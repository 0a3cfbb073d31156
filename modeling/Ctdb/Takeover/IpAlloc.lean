import Ctdb.Takeover.SockAddr

/-!
# Public IP allocation (`server/ctdb_takeover.c`)

`ctdb_takeover_run_core` decides which node will hold each public address.
It merges the addresses the nodes know of into one list, one entry per
address, holding the node that reports itself as its holder or -1, and then
runs one of three allocators on that list: LCP2, the deterministic one, or
the non-deterministic one, chosen by the tunables. Each rewrites the `pnn` of
the entries in several passes.

A node can *host* an address when it is not `NOIPHOST` and lists the address
among its available ones, and can *take it over* when, besides, it is not
`NOIPTAKEOVER`. All passes first drop the holders that can no longer host
their address (`unassign_unsuitable_ips`), then give the addresses without a
holder to nodes that can take them over, and may then move addresses to even
the load out.

An address is a `ctdb_sock_addr` (SockAddr.lean). The tree that merges the
lists is keyed by its `ip_key`, so two addresses with one key are one entry
there, and `ip_distance` compares keys; `can_node_host_ip` compares addresses
with `ctdb_same_ip` instead, which takes `::ffff:a.b.c.d` for `a.b.c.d` and
tells `a.b.c.d` from `::a.b.c.d`, the IPv6 address with the same key. A node's
`pnn` is its position in the
node list, and `ipflags` has one entry per node. An entry of the merged list
is told apart from the others by its position, as the source tells it by its
pointer. `qsort` is the stable sort of the C library (`msort`). The loop of
`lcp2_failback` is not known to end (see `ipAllocLcp2`); it runs on fuel, and
a run that uses it up is `none`.
-/

namespace Ctdb

/-- `struct ctdb_ipflags`. -/
structure IpFlags where
  noiptakeover : Bool
  noiphost : Bool
  deriving DecidableEq, Repr

/-- An entry of `struct ctdb_public_ip_list`; `none` is -1. -/
structure PublicIp where
  pnn : Option Nat
  addr : CtdbSockAddr
  deriving DecidableEq, Repr

/-- What the takeover run reads of a node. -/
structure TakeoverNode where
  ipflags : IpFlags
  /-- `NODE_FLAGS_DELETED`. -/
  deleted : Bool
  /-- `known_public_ips`: each address with the node it is reported on. -/
  knownPublicIps : Option (List (CtdbSockAddr × Nat))
  availablePublicIps : Option (List CtdbSockAddr)
  deriving DecidableEq, Repr

structure TakeoverTunables where
  lcp2PublicIpAssignment : UInt32
  deterministicPublicIps : UInt32
  noIpFailback : UInt32
  deriving DecidableEq, Repr

/-- `tmp_ip->pnn = pnn` on the entry at position `i`. -/
def setIpPnn (ips : List PublicIp) (i : Nat) (pnn : Option Nat) : List PublicIp :=
  ips.modify i fun ip => { ip with pnn }

/-! ## Nodes and addresses -/

section Nodes

variable (nodes : List TakeoverNode)

/-- `node_ip_coverage`. -/
def nodeIpCoverage (pnn : Nat) (ips : List PublicIp) : Nat :=
  ips.countP (·.pnn == some pnn)

/-- `can_node_host_ip`. -/
def canNodeHostIp (pnn : Nat) (ip : PublicIp) : Bool :=
  match nodes[pnn]? with
  | none => false
  | some node =>
      if node.ipflags.noiphost then false
      else
        match node.availablePublicIps with
        | none => false
        | some publicIps => publicIps.any (ctdbSameIp ip.addr)

/-- `can_node_takeover_ip`. -/
def canNodeTakeoverIp (pnn : Nat) (ip : PublicIp) : Bool :=
  match nodes[pnn]? with
  | none => false
  | some node => if node.ipflags.noiptakeover then false else canNodeHostIp nodes pnn ip

/-- `find_takeover_node`: of the nodes that can take `ip` over, the first with
the fewest addresses, or `none` for -1. -/
def findTakeoverNode (ip : PublicIp) (allIps : List PublicIp) : Option Nat :=
  ((List.range nodes.length).foldl (fun (best : Option (Nat × Nat)) i =>
    -- "verify that this node can serve this ip"
    if !canNodeTakeoverIp nodes i ip then best
    else
      let num := nodeIpCoverage i allIps
      match best with
      | none => some (i, num)
      | some (_, min) => if num < min then some (i, num) else best) none).map Prod.fst

/-- `unassign_unsuitable_ips`. -/
def unassignUnsuitableIps (allIps : List PublicIp) : List PublicIp :=
  allIps.map fun ip =>
    match ip.pnn with
    | none => ip
    | some pnn => if !canNodeHostIp nodes pnn ip then { ip with pnn := none } else ip

/-- `add_ip_callback` inserting `ip` in the tree of addresses, keyed by
`ip_key`: a later entry with the key of an earlier one replaces it, and keeps
its holder when it names none itself. -/
def addIp (tree : List PublicIp) (ip : PublicIp) : List PublicIp :=
  match tree.find? (ipKey ·.addr == ipKey ip.addr) with
  | none => tree ++ [ip]
  | some prev =>
      tree.map fun t =>
        if ipKey t.addr = ipKey ip.addr then (if ip.pnn = none then { ip with pnn := prev.pnn } else ip) else t

/-- `create_merged_ip_list`. -/
def createMergedIpList : List PublicIp :=
  let tree := nodes.zipIdx.foldl (fun tree (node, i) =>
    if node.deleted then tree
    else
      match node.knownPublicIps with
      -- "there were no public ips for this node"
      | none => tree
      | some publicIps =>
          publicIps.foldl (fun tree (addr, pnn) =>
            -- "Do not use information about IP addresses hosted on other nodes"
            addIp tree ⟨if pnn = i then some pnn else none, addr⟩) tree) []
  -- the traversal visits the keys in increasing order and pushes each on the front
  (tree.insertionSort fun a b => (ipKey a.addr).toNat ≤ (ipKey b.addr).toNat).reverse

end Nodes

/-! ## The basic allocators -/

section Basic

variable (nodes : List TakeoverNode)

/-- The body of `basic_allocate_unassigned`'s loop, at the entry at
position `i`. -/
def basicAllocateAt (ips : List PublicIp) (i : Nat) : List PublicIp :=
  match ips[i]? with
  | some ip =>
      if ip.pnn = none then
        match findTakeoverNode nodes ip ips with
        | some pnn => setIpPnn ips i (some pnn)
        -- "Failed to find node to cover ip"
        | none => ips
      else ips
  | none => ips

/-- `basic_allocate_unassigned`. -/
def basicAllocateUnassigned (allIps : List PublicIp) : List PublicIp :=
  (List.range allIps.length).foldl (basicAllocateAt nodes) allIps

/-- For `basic_failback`: of the nodes that can take `ip` over, the first with
the most addresses, the most, and the fewest. -/
def coverageSpread (ip : PublicIp) (allIps : List PublicIp) : Option (Nat × Nat × Nat) :=
  (List.range nodes.length).foldl (fun acc i =>
    -- "only check nodes that can actually serve this ip"
    if !canNodeTakeoverIp nodes i ip then acc
    else
      let num := nodeIpCoverage i allIps
      match acc with
      | none => some (i, num, num)
      | some (maxnode, maxnum, minnum) =>
          let (maxnode, maxnum) := if num > maxnum then (i, num) else (maxnode, maxnum)
          some (maxnode, maxnum, if num < minnum then num else minnum)) none

/-- One pass of `basic_failback` up to its `goto try_again`: at the first
address whose possible holders differ by two or more addresses, the first
address of the most loaded of them goes to `find_takeover_node`. `none` when
the pass finds nothing to move. -/
def basicFailbackPass (allIps : List PublicIp) : Option (List PublicIp) :=
  allIps.findSome? fun ip =>
    if ip.pnn = none then none
    else
      match coverageSpread nodes ip allIps with
      -- "Could not find maxnode"
      | none => none
      | some (maxnode, maxnum, minnum) =>
          if maxnum > minnum + 1 then
            -- "Reassign one of maxnode's VNNs"
            (allIps.zipIdx.find? (·.1.pnn == some maxnode)).map fun (tmp, j) =>
              match findTakeoverNode nodes tmp allIps with
              | some pnn => setIpPnn allIps j (some pnn)
              | none => allIps
          else none

/-- `basic_failback`'s `goto try_again` loop; `retriesLeft` counts down from
`num_ips + 5`, the bound on `retries`. -/
def basicFailbackLoop : Nat → List PublicIp → List PublicIp
  | 0, ips => ips
  | retriesLeft + 1, ips =>
      match basicFailbackPass nodes ips with
      | some ips' => basicFailbackLoop retriesLeft ips'
      | none => ips

/-- `basic_failback`. -/
def basicFailback (allIps : List PublicIp) (numIps : Nat) : List PublicIp :=
  basicFailbackLoop nodes (numIps + 5) allIps

/-- `ip_alloc_deterministic_ips`. -/
def ipAllocDeterministicIps (allIps : List PublicIp) : List PublicIp :=
  let allIps := allIps.zipIdx.map fun (ip, i) => { ip with pnn := some (i % nodes.length) }
  basicAllocateUnassigned nodes (unassignUnsuitableIps nodes allIps)

/-- `ip_alloc_nondeterministic_ips`. -/
def ipAllocNondeterministicIps (tunables : TakeoverTunables) (allIps : List PublicIp) :
    List PublicIp :=
  let numIps := allIps.length
  let allIps := basicAllocateUnassigned nodes (unassignUnsuitableIps nodes allIps)
  -- "If we don't want IPs to fail back then don't rebalance IPs."
  if tunables.noIpFailback = 1 then allIps else basicFailback nodes allIps numIps

end Basic

/-! ## LCP2 -/

/-- `ip_distance`'s count of leading zeroes of a nonzero word, added to
`distance`; 32 rounds are more than the loop makes. -/
def clzLoop : Nat → UInt32 → UInt32 → UInt32
  | 0, _, distance => distance
  | fuel + 1, x, distance =>
      if x &&& ((1 : UInt32) <<< 31) = 0 then clzLoop fuel (x <<< 1) (distance + 1) else distance

/-- `ip_distance`: the leading zeroes of each word of the XOR of the two
addresses' keys, summed over the words. -/
def ipDistance (ip1 ip2 : CtdbSockAddr) : UInt32 :=
  ((ipKey ip1).words.zip (ipKey ip2).words).foldl (fun distance (a, b) =>
    let x := a ^^^ b
    if x = 0 then distance + 32 else clzLoop 32 x distance) 0

/-- `ip_distance_2_sum` for the address of the entry at position `self`, over
the entries `ips` with their positions. -/
def ipDistance2Sum (ip : CtdbSockAddr) (self : Nat) (ips : List (PublicIp × Nat)) (pnn : Nat) : UInt32 :=
  ips.foldl (fun sum (t, j) =>
    if t.pnn ≠ some pnn then sum
    -- "We never calculate the distance between an address and itself."
    else if j = self then sum
    else
      let d := ipDistance ip t.addr
      sum + d * d) 0

/-- `lcp2_imbalance`: each address paired with the later ones. -/
def lcp2Imbalance (allIps : List PublicIp) (pnn : Nat) : UInt32 :=
  allIps.zipIdx.foldl (fun imbalance (t, i) =>
    if t.pnn ≠ some pnn then imbalance
    else imbalance + ipDistance2Sum t.addr i (allIps.zipIdx.drop (i + 1)) pnn) 0

/-- `lcp2_init`: the imbalance of each node, and the rebalance candidates. -/
def lcp2Init (numnodes : Nat) (allIps : List PublicIp) (forceRebalanceNodes : Option (List UInt32)) :
    List UInt32 × List Bool :=
  let imbalances := (List.range numnodes).map (lcp2Imbalance allIps)
  -- "First step: assume all nodes are candidates"
  let candidates := List.replicate numnodes true
  -- "2nd step: if a node has IPs assigned then it must have been healthy before"
  let candidates := allIps.foldl (fun c ip =>
    match ip.pnn with
    | some pnn => c.set pnn false
    | none => c) candidates
  match forceRebalanceNodes with
  | none => (imbalances, candidates)
  | some force =>
      -- "3rd step: if a node is forced to re-balance then we allow failback onto the node"
      (imbalances, force.foldl (fun c pnn =>
        if pnn.toNat ≥ numnodes then c else c.set pnn.toNat true) candidates)

/-- The cheapest move `lcp2_allocate_unassigned` has found so far. -/
structure Lcp2Move where
  ip : Nat
  node : Nat
  imbl : UInt32
  dsum : UInt32
  deriving DecidableEq, Repr

section Lcp2

variable (nodes : List TakeoverNode)

/-- One scan of `lcp2_allocate_unassigned`: over each address without a
holder and each node that can take it over, the first move of least
`dstdsum`. -/
def lcp2BestUnassigned (allIps : List PublicIp) (imbalances : List UInt32) : Option Lcp2Move :=
  allIps.zipIdx.foldl (fun best (ip, i) =>
    if ip.pnn ≠ none then best
    else
      (List.range nodes.length).foldl (fun best dstnode =>
        -- "only check nodes that can actually takeover this ip"
        if !canNodeTakeoverIp nodes dstnode ip then best
        else
          let dstdsum := ipDistance2Sum ip.addr i allIps.zipIdx dstnode
          let dstimbl := imbalances.getD dstnode 0 + dstdsum
          match best with
          | some m => if dstdsum < m.dsum then some ⟨i, dstnode, dstimbl, dstdsum⟩ else best
          | none => some ⟨i, dstnode, dstimbl, dstdsum⟩) best) none

/-- The `while (have_unassigned && should_loop)` loop of
`lcp2_allocate_unassigned`. Each round that goes on gives one more address a
holder, so `allIps.length + 1` rounds are always enough. -/
def lcp2AllocateUnassignedLoop : Nat → List PublicIp × List UInt32 → List PublicIp × List UInt32
  | 0, st => st
  | fuel + 1, (allIps, imbalances) =>
      match lcp2BestUnassigned nodes allIps imbalances with
      | none => (allIps, imbalances)
      | some m =>
          let allIps := setIpPnn allIps m.ip (some m.node)
          let imbalances := imbalances.set m.node m.imbl
          if allIps.any (·.pnn == none) then lcp2AllocateUnassignedLoop fuel (allIps, imbalances)
          else (allIps, imbalances)

/-- `lcp2_allocate_unassigned`. -/
def lcp2AllocateUnassigned (allIps : List PublicIp) (imbalances : List UInt32) :
    List PublicIp × List UInt32 :=
  lcp2AllocateUnassignedLoop nodes (allIps.length + 1) (allIps, imbalances)

/-- The move `lcp2_failback_candidate` has found so far. -/
structure Lcp2Failback where
  ip : Nat
  srcimbl : UInt32
  dstnode : Nat
  dstimbl : UInt32
  deriving DecidableEq, Repr

/-- `lcp2_failback_candidate` for `srcnode`, whose imbalance is `candimbl`:
the move of one of its addresses to a rebalance candidate that lowers the
imbalance most, and the state after it, or `none` when no move helps. The
imbalance recorded for `srcnode` is `srcimbl` as the loop leaves it, that of
the last address of `srcnode` in the list. -/
def lcp2FailbackCandidate (allIps : List PublicIp) (srcnode : Nat) (candimbl : UInt32)
    (imbalances : List UInt32) (candidates : List Bool) : Option (List PublicIp × List UInt32) :=
  let (srcimbl, best) := allIps.zipIdx.foldl (fun (srcimbl, best) (ip, i) =>
    -- "Only consider addresses on srcnode."
    if ip.pnn ≠ some srcnode then (srcimbl, best)
    else
      let srcdsum := ipDistance2Sum ip.addr i allIps.zipIdx srcnode
      let srcimbl := candimbl - srcdsum
      let best := (List.range nodes.length).foldl (fun (best : Option Lcp2Failback) dstnode =>
        if !candidates.getD dstnode false then best
        else if !canNodeTakeoverIp nodes dstnode ip then best
        else
          let dstdsum := ipDistance2Sum ip.addr i allIps.zipIdx dstnode
          let dstimbl := imbalances.getD dstnode 0 + dstdsum
          let better := match best with
            | none => true
            | some m => srcimbl + dstimbl < m.srcimbl + m.dstimbl
          if dstimbl < candimbl ∧ dstdsum < srcdsum ∧ better = true then some ⟨i, srcimbl, dstnode, dstimbl⟩
          else best) best
      (srcimbl, best)) ((0 : UInt32), none)
  best.map fun m =>
    (setIpPnn allIps m.ip (some m.dstnode), (imbalances.set srcnode srcimbl).set m.dstnode m.dstimbl)

/-- One round of `lcp2_failback`: the nodes by decreasing imbalance, stopping at
the first of imbalance 0, and the first of them with a move. -/
def lcp2FailbackRound (candidates : List Bool) (st : List PublicIp × List UInt32) :
    Option (List PublicIp × List UInt32) :=
  let lips := ((List.range nodes.length).map fun i => (st.2.getD i 0, i)).insertionSort
    fun a b => b.1 ≤ a.1
  -- "This means that all nodes had 0 or 1 addresses, so can't be imbalanced."
  (lips.takeWhile (·.1 ≠ 0)).findSome? fun (imbalance, pnn) =>
    lcp2FailbackCandidate nodes st.1 pnn imbalance st.2 candidates

/-- `lcp2_failback`'s `goto try_again` loop, on fuel. -/
def lcp2Failback (candidates : List Bool) :
    Nat → List PublicIp × List UInt32 → Option (List PublicIp × List UInt32)
  | 0, _ => none
  | fuel + 1, st =>
      -- "It is only worth continuing if we have suitable target nodes"
      if !(candidates.take nodes.length).any id then some st
      else
        match lcp2FailbackRound nodes candidates st with
        | some st' => lcp2Failback candidates fuel st'
        | none => some st

/-- `ip_alloc_lcp2`, with `fuel` rounds for `lcp2_failback`. -/
def ipAllocLcp2 (fuel : Nat) (tunables : TakeoverTunables) (allIps : List PublicIp)
    (forceRebalanceNodes : Option (List UInt32)) : Option (List PublicIp) :=
  let allIps := unassignUnsuitableIps nodes allIps
  let (imbalances, candidates) := lcp2Init nodes.length allIps forceRebalanceNodes
  let (allIps, imbalances) := lcp2AllocateUnassigned nodes allIps imbalances
  -- "If we don't want IPs to fail back then don't rebalance IPs."
  if tunables.noIpFailback = 1 then some allIps
  else (lcp2Failback nodes candidates fuel (allIps, imbalances)).map Prod.fst

end Lcp2

/-- `ctdb_takeover_run_core`: the merged list with each entry's new holder. -/
def ctdbTakeoverRunCore (fuel : Nat) (tunables : TakeoverTunables) (nodes : List TakeoverNode)
    (forceRebalanceNodes : Option (List UInt32)) : Option (List PublicIp) :=
  let allIps := createMergedIpList nodes
  if tunables.lcp2PublicIpAssignment = 1 then
    ipAllocLcp2 nodes fuel tunables allIps forceRebalanceNodes
  else if tunables.deterministicPublicIps = 1 then some (ipAllocDeterministicIps nodes allIps)
  else some (ipAllocNondeterministicIps nodes tunables allIps)

end Ctdb

import Ctdb.Takeover.IpAlloc

/-!
# The deterministic allocation does not look at the holders

With `DeterministicIPs` set (and LCP2 off), `ctdb_takeover_run_core` hands
every public address out again: `ip_alloc_deterministic_ips` first gives the
`i`-th address of the merged list to node `i mod numnodes` and only then reads
the holders, which are by then its own. So what the nodes report about who
holds which address cannot change the outcome; only the addresses and their
order can, and they do not depend on the holders either.

The proof splits along the data. The allocator reads the nodes only through
`can_node_host_ip` and `can_node_takeover_ip`, which do not read
`known_public_ips` (`TakeoverNode.hostView`); it reads its input list only
through the addresses, as it overwrites every holder first
(`ipAllocDeterministicIps_of_map_addr`); and `create_merged_ip_list` builds a
list whose addresses are those of its tree of keys, a fold of
`insertAddr` over the addresses the nodes report, sorted
(`map_addr_createMergedIpList`).
-/

namespace Ctdb

/-- A node as the capability tests see it: without the addresses it reports. -/
def TakeoverNode.hostView (n : TakeoverNode) : TakeoverNode := { n with knownPublicIps := none }

/-- Everything a node tells the takeover run except which node it reports as
the holder of each of its known addresses. -/
def TakeoverNode.withoutHolders (n : TakeoverNode) : TakeoverNode × Option (List CtdbSockAddr) :=
  (n.hostView, n.knownPublicIps.map (List.map Prod.fst))

/-! ## The allocator reads the nodes only through the capability tests -/

section HostView

variable (nodes : List TakeoverNode)

theorem canNodeHostIp_hostView :
    canNodeHostIp (nodes.map TakeoverNode.hostView) = canNodeHostIp nodes := by
  funext pnn ip
  simp only [canNodeHostIp, List.getElem?_map]
  cases nodes[pnn]? <;> rfl

theorem canNodeTakeoverIp_hostView :
    canNodeTakeoverIp (nodes.map TakeoverNode.hostView) = canNodeTakeoverIp nodes := by
  funext pnn ip
  simp only [canNodeTakeoverIp, canNodeHostIp_hostView, List.getElem?_map]
  cases nodes[pnn]? <;> rfl

theorem findTakeoverNode_hostView :
    findTakeoverNode (nodes.map TakeoverNode.hostView) = findTakeoverNode nodes := by
  funext ip allIps
  simp only [findTakeoverNode, canNodeTakeoverIp_hostView, List.length_map]

theorem basicAllocateUnassigned_hostView :
    basicAllocateUnassigned (nodes.map TakeoverNode.hostView) = basicAllocateUnassigned nodes := by
  have hat : basicAllocateAt (nodes.map TakeoverNode.hostView) = basicAllocateAt nodes := by
    funext ips i
    simp only [basicAllocateAt, findTakeoverNode_hostView]
  funext allIps
  simp only [basicAllocateUnassigned, hat]

theorem ipAllocDeterministicIps_hostView :
    ipAllocDeterministicIps (nodes.map TakeoverNode.hostView) = ipAllocDeterministicIps nodes := by
  have hunassign :
      unassignUnsuitableIps (nodes.map TakeoverNode.hostView) = unassignUnsuitableIps nodes := by
    funext allIps
    simp only [unassignUnsuitableIps, canNodeHostIp_hostView]
  funext allIps
  simp only [ipAllocDeterministicIps, hunassign, basicAllocateUnassigned_hostView, List.length_map]

end HostView

/-! ## The allocator reads its input only through the addresses -/

theorem ipAllocDeterministicIps_of_map_addr (nodes : List TakeoverNode) {l₁ l₂ : List PublicIp}
    (h : l₁.map (·.addr) = l₂.map (·.addr)) :
    ipAllocDeterministicIps nodes l₁ = ipAllocDeterministicIps nodes l₂ := by
  -- the modulo step keeps nothing of an entry but its address
  have reset : ∀ f : PublicIp × Nat → PublicIp, (∀ ip i, f (ip, i) = ⟨some (i % nodes.length), ip.addr⟩) →
      ∀ l : List PublicIp, l.zipIdx.map f =
        (l.map (·.addr)).zipIdx.map fun p => (⟨some (p.2 % nodes.length), p.1⟩ : PublicIp) := by
    intro f hf l
    rw [List.zipIdx_map, List.map_map]
    exact List.map_congr_left fun p _ => hf p.1 p.2
  simp only [ipAllocDeterministicIps]
  rw [reset _ (fun _ _ => rfl) l₁, reset _ (fun _ _ => rfl) l₂, h]

/-! ## The addresses of the merged list -/

/-- The tree of `create_merged_ip_list` seen by its addresses: an address
takes the place of the one with its key, or comes last. -/
def insertAddr (addrs : List CtdbSockAddr) (a : CtdbSockAddr) : List CtdbSockAddr :=
  if addrs.any (ipKey · == ipKey a) then addrs.map fun x => if ipKey x = ipKey a then a else x
  else addrs ++ [a]

theorem map_addr_addIp (tree : List PublicIp) (ip : PublicIp) :
    (addIp tree ip).map (·.addr) = insertAddr (tree.map (·.addr)) ip.addr := by
  unfold addIp insertAddr
  cases hf : tree.find? (ipKey ·.addr == ipKey ip.addr) with
  | none =>
      have hnot : (tree.map (·.addr)).any (ipKey · == ipKey ip.addr) = false := by
        rw [List.find?_eq_none] at hf
        simpa using hf
      rw [hnot, if_neg Bool.false_ne_true, List.map_append]
      rfl
  | some prev =>
      have hin : (tree.map (·.addr)).any (ipKey · == ipKey ip.addr) = true := by
        rw [List.any_map, List.any_eq_true]
        exact ⟨prev, List.mem_of_find?_eq_some hf, List.find?_some hf⟩
      rw [hin, if_pos rfl, List.map_map, List.map_map]
      -- an entry replaced by `ip` has `ip`'s address
      refine List.map_congr_left fun t _ => ?_
      simp only [Function.comp_apply]
      split
      · split <;> rfl
      · rfl

/-- The addresses `create_merged_ip_list` keeps, one for each key in the
order it first meets the key, from what `withoutHolders` keeps of each node. -/
def mergedAddrs (views : List (TakeoverNode × Option (List CtdbSockAddr))) : List CtdbSockAddr :=
  views.foldl (fun addrs (node, known) =>
    if node.deleted then addrs
    else
      match known with
      | none => addrs
      | some known => known.foldl insertAddr addrs) []

theorem map_addr_createMergedIpList (nodes : List TakeoverNode) :
    (createMergedIpList nodes).map (·.addr) =
      ((mergedAddrs (nodes.map TakeoverNode.withoutHolders)).insertionSort
        fun a b => (ipKey a).toNat ≤ (ipKey b).toNat).reverse := by
  -- one node's addresses, whatever holder each names
  have hknown : ∀ g : List PublicIp → CtdbSockAddr × Nat → List PublicIp,
      (∀ tree e, (g tree e).map (·.addr) = insertAddr (tree.map (·.addr)) e.1) →
      ∀ (publicIps : List (CtdbSockAddr × Nat)) (tree : List PublicIp),
        (publicIps.foldl g tree).map (·.addr) =
          (publicIps.map Prod.fst).foldl insertAddr (tree.map (·.addr)) := by
    intro g hg publicIps
    induction publicIps with
    | nil => intro tree; rfl
    | cons e rest ih =>
        intro tree
        simp only [List.foldl_cons, List.map_cons, ih, hg]
  -- the nodes one by one, each step seen through `withoutHolders`
  have htree : ∀ (g : List PublicIp → TakeoverNode × Nat → List PublicIp)
      (k : List CtdbSockAddr → TakeoverNode × Option (List CtdbSockAddr) → List CtdbSockAddr),
      (∀ tree e, (g tree e).map (·.addr) = k (tree.map (·.addr)) e.1.withoutHolders) →
      ∀ (l : List (TakeoverNode × Nat)) (tree : List PublicIp),
        (l.foldl g tree).map (·.addr) = (l.map fun e => e.1.withoutHolders).foldl k (tree.map (·.addr)) := by
    intro g k hg l
    induction l with
    | nil => intro tree; rfl
    | cons e rest ih =>
        intro tree
        simp only [List.foldl_cons, List.map_cons, ih, hg]
  have hviews : nodes.zipIdx.map (fun e => e.1.withoutHolders) =
      nodes.map TakeoverNode.withoutHolders := by
    change nodes.zipIdx.map (TakeoverNode.withoutHolders ∘ Prod.fst) = _
    rw [← List.map_map, List.zipIdx_map_fst]
  unfold createMergedIpList mergedAddrs
  rw [List.map_reverse, List.map_insertionSort (fun a b : PublicIp => (ipKey a.addr).toNat ≤ (ipKey b.addr).toNat)
    (fun a b : CtdbSockAddr => (ipKey a).toNat ≤ (ipKey b).toNat) (fun ip : PublicIp => ip.addr) _
    (fun _ _ _ _ => Iff.rfl), ← hviews]
  congr 2
  refine htree _ _ ?_ nodes.zipIdx []
  intro tree e
  obtain ⟨node, i⟩ := e
  simp only [TakeoverNode.withoutHolders, TakeoverNode.hostView]
  by_cases hd : node.deleted
  · simp only [hd, if_true]
  · simp only [hd, if_false, Bool.false_eq_true]
    cases node.knownPublicIps with
    | none => rfl
    | some publicIps => exact hknown _ (fun tree e => map_addr_addIp tree _) publicIps tree

/-! ## The run -/

theorem ctdbTakeoverRunCore_deterministic_eq {fuel : Nat} {tunables : TakeoverTunables}
    {nodes₁ nodes₂ : List TakeoverNode} {force : Option (List UInt32)}
    (hlcp2 : tunables.lcp2PublicIpAssignment = 0) (hdet : tunables.deterministicPublicIps = 1)
    (hsame : nodes₁.map TakeoverNode.withoutHolders = nodes₂.map TakeoverNode.withoutHolders) :
    ctdbTakeoverRunCore fuel tunables nodes₁ force = ctdbTakeoverRunCore fuel tunables nodes₂ force := by
  have hview : nodes₁.map TakeoverNode.hostView = nodes₂.map TakeoverNode.hostView := by
    have := congrArg (List.map Prod.fst) hsame
    simpa only [List.map_map, Function.comp_def, TakeoverNode.withoutHolders] using this
  have haddr : (createMergedIpList nodes₁).map (·.addr) = (createMergedIpList nodes₂).map (·.addr) := by
    rw [map_addr_createMergedIpList, map_addr_createMergedIpList, hsame]
  have hrun : ∀ nodes, ctdbTakeoverRunCore fuel tunables nodes force =
      some (ipAllocDeterministicIps nodes (createMergedIpList nodes)) := by
    intro nodes
    simp only [ctdbTakeoverRunCore]
    rw [if_neg (by rw [hlcp2]; decide), if_pos hdet]
  rw [hrun, hrun, ipAllocDeterministicIps_of_map_addr nodes₁ haddr,
    ← ipAllocDeterministicIps_hostView nodes₁, hview, ipAllocDeterministicIps_hostView]

/-- The two addresses of two nodes, reported on node 0 by both. -/
def sampleHolders : List TakeoverNode :=
  [⟨⟨false, false⟩, false, some [((.inet 0x0A000001 0), 0), ((.inet 0x0A000002 0), 0)],
      some [(.inet 0x0A000001 0), (.inet 0x0A000002 0)]⟩,
    ⟨⟨false, false⟩, false, some [((.inet 0x0A000001 0), 0), ((.inet 0x0A000002 0), 0)],
      some [(.inet 0x0A000001 0), (.inet 0x0A000002 0)]⟩]

/-- The same cluster after the second address moved to node 1. -/
def sampleHoldersMoved : List TakeoverNode :=
  [⟨⟨false, false⟩, false, some [((.inet 0x0A000001 0), 0), ((.inet 0x0A000002 0), 1)],
      some [(.inet 0x0A000001 0), (.inet 0x0A000002 0)]⟩,
    ⟨⟨false, false⟩, false, some [((.inet 0x0A000001 0), 0), ((.inet 0x0A000002 0), 1)],
      some [(.inet 0x0A000001 0), (.inet 0x0A000002 0)]⟩]

theorem ctdbTakeoverRunCore_deterministic_eq_two :
    (⟨0, 1, 0⟩ : TakeoverTunables).lcp2PublicIpAssignment = 0 ∧
      (⟨0, 1, 0⟩ : TakeoverTunables).deterministicPublicIps = 1 ∧
      sampleHolders.map TakeoverNode.withoutHolders =
        sampleHoldersMoved.map TakeoverNode.withoutHolders ∧
      ctdbTakeoverRunCore 4 ⟨0, 1, 0⟩ sampleHolders none =
        ctdbTakeoverRunCore 4 ⟨0, 1, 0⟩ sampleHoldersMoved none :=
  ⟨rfl, rfl, by decide, ctdbTakeoverRunCore_deterministic_eq rfl rfl (by decide)⟩

end Ctdb

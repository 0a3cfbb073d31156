import Ctdb.Recovery.Pull

/-!
# Keepalives and dead nodes (`server/ctdb_keepalive.c`, `server/ctdb_server.c`,
`server/ctdbd.c`, `server/ctdb_monitor.c`)

A daemon learns that another node is alive from the packets it gets from it:
`ctdb_recv_pkt` counts each packet in the source node's `rx_cnt`, except a call
that was redirected here. Every `KeepaliveInterval` seconds
`ctdb_check_for_dead_nodes` walks the node list, skipping deleted nodes and
the daemon's own. A connected node that sent nothing since the last walk has
its `dead_count` raised, one that sent something has it cleared, and when
`dead_count` reaches `KeepaliveLimit` the node is marked dead
(`ctdb_node_dead`). Every connected node is sent a keepalive, so that a daemon
with nothing else to say is still heard. A disconnected node that has sent
something since it was marked dead is marked connected again
(`ctdb_node_connected`). `num_connected` counts the connected nodes.

Two more writers touch the same fields: the transport reports a node dead when
its connection fails, and `ctdb_control_modflags` writes the flags the recovery
master pushes, all but the disconnected bit of another node.

Nodes are kept by pnn, in the order of the nodes file. The walk reads the
limit each time it runs, since it is a tunable. Cancelling a dead node's
controls, restarting its connection, `tx_cnt` (which nothing reads), logging,
and what `ctdb_control_modflags` does besides writing the flags are not
modelled.
-/

namespace Ctdb

def NODE_FLAGS_UNHEALTHY : UInt32 := 0x00000002
def NODE_FLAGS_PERMANENTLY_DISABLED : UInt32 := 0x00000004
def NODE_FLAGS_DISABLED : UInt32 := NODE_FLAGS_UNHEALTHY ||| NODE_FLAGS_PERMANENTLY_DISABLED

def CTDB_REQ_CALL : UInt32 := 0

/-- The part of `struct ctdb_node` the keepalive reads and writes. -/
structure CtdbNode where
  flags : UInt32
  deadCount : UInt32
  rxCnt : UInt32
  deriving DecidableEq, Repr

/-- The part of `struct ctdb_context`: the daemon's own pnn, the nodes by pnn,
and `num_connected`. -/
structure KeepaliveCtx where
  pnn : Nat
  nodes : List CtdbNode
  numConnected : UInt32
  deriving DecidableEq, Repr

/-! ## Starting up -/

/-- A line of the nodes file as `ctdb_add_node` adds it, disconnected and
unhealthy, or as `ctdb_add_deleted_node` adds one that is commented out. -/
def CtdbNode.added (deleted : Bool) : CtdbNode :=
  if deleted then ⟨NODE_FLAGS_DELETED ||| NODE_FLAGS_DISCONNECTED, 0, 0⟩
  else ⟨NODE_FLAGS_DISCONNECTED ||| NODE_FLAGS_UNHEALTHY, 0, 0⟩

/-- `initialise_node_flags`: the daemon's own node is connected, and disabled or
stopped when it is to start so. -/
def initialiseNodeFlags (ctdb : KeepaliveCtx) (startAsDisabled startAsStopped : Bool) : KeepaliveCtx :=
  { ctdb with nodes := ctdb.nodes.modify ctdb.pnn fun node =>
      let flags := node.flags &&& ~~~NODE_FLAGS_DISCONNECTED
      let flags := if startAsDisabled then flags ||| NODE_FLAGS_DISABLED else flags
      let flags := if startAsStopped then flags ||| NODE_FLAGS_STOPPED else flags
      { node with flags } }

/-- The daemon once `ctdb_set_nlist` has read a nodes file whose lines are
commented out or not and `initialise_node_flags` has run. -/
def keepaliveStart (pnn : Nat) (deleted : List Bool) (startAsDisabled startAsStopped : Bool) :
    KeepaliveCtx :=
  initialiseNodeFlags ⟨pnn, deleted.map CtdbNode.added, 0⟩ startAsDisabled startAsStopped

/-! ## The functions -/

/-- `ctdb_recv_pkt`: a packet from `srcnode` counts for it, unless it is a
call that was redirected here. -/
def ctdbRecvPkt (ctdb : KeepaliveCtx) (srcnode operation hopcount : UInt32) : KeepaliveCtx :=
  -- `ctdb_validate_pnn`
  if srcnode.toNat < ctdb.nodes.length then
    if operation ≠ CTDB_REQ_CALL ∨ hopcount = 0 then
      { ctdb with nodes := ctdb.nodes.modify srcnode.toNat fun node => { node with rxCnt := node.rxCnt + 1 } }
    else ctdb
  else ctdb

/-- `ctdb_node_dead`: `num_connected` and the node after it. -/
def ctdbNodeDead (numConnected : UInt32) (node : CtdbNode) : UInt32 × CtdbNode :=
  if node.flags &&& NODE_FLAGS_DISCONNECTED ≠ 0 then (numConnected, node)
  else (numConnected - 1, { node with
    flags := node.flags ||| (NODE_FLAGS_DISCONNECTED ||| NODE_FLAGS_UNHEALTHY)
    rxCnt := 0
    deadCount := 0 })

/-- `ctdb_node_connected`. -/
def ctdbNodeConnected (numConnected : UInt32) (node : CtdbNode) : UInt32 × CtdbNode :=
  if node.flags &&& NODE_FLAGS_DISCONNECTED = 0 then (numConnected, node)
  else (numConnected + 1, { node with
    deadCount := 0
    flags := (node.flags &&& ~~~NODE_FLAGS_DISCONNECTED) ||| NODE_FLAGS_UNHEALTHY })

/-- The body of the loop of `ctdb_check_for_dead_nodes` for the node at `pnn`:
`num_connected`, the node, and whether it is sent a keepalive. -/
def checkNode (ownPnn : Nat) (keepaliveLimit numConnected : UInt32) (pnn : Nat) (node : CtdbNode) :
    UInt32 × CtdbNode × Bool :=
  if node.flags &&& NODE_FLAGS_DELETED ≠ 0 then (numConnected, node, false)
  else if pnn = ownPnn then (numConnected, node, false)
  else if node.flags &&& NODE_FLAGS_DISCONNECTED ≠ 0 then
    -- it might have come alive again; `rx_cnt` is left as it is
    if node.rxCnt ≠ 0 then
      let (numConnected, node) := ctdbNodeConnected numConnected node
      (numConnected, node, false)
    else (numConnected, node, false)
  else
    let deadCount := if node.rxCnt = 0 then node.deadCount + 1 else 0
    let node := { node with deadCount, rxCnt := 0 }
    if node.deadCount ≥ keepaliveLimit then
      let (numConnected, node) := ctdbNodeDead numConnected node
      (numConnected, node, true)
    else (numConnected, node, true)

/-- The loop of `ctdb_check_for_dead_nodes` from the node at `pnn` on:
`num_connected`, the nodes after their pass, and the pnns sent a keepalive. -/
def checkForDeadNodesLoop (ownPnn : Nat) (keepaliveLimit : UInt32) :
    Nat → UInt32 → List CtdbNode → UInt32 × List CtdbNode × List Nat
  | _, numConnected, [] => (numConnected, [], [])
  | pnn, numConnected, node :: nodes =>
      let (numConnected, node, sent) := checkNode ownPnn keepaliveLimit numConnected pnn node
      let (numConnected, nodes, rest) := checkForDeadNodesLoop ownPnn keepaliveLimit (pnn + 1) numConnected nodes
      (numConnected, node :: nodes, if sent then pnn :: rest else rest)

/-- `ctdb_check_for_dead_nodes`, with the limit the tunable holds when it runs:
the daemon after the walk and the pnns it sent a keepalive. -/
def ctdbCheckForDeadNodes (ctdb : KeepaliveCtx) (keepaliveLimit : UInt32) : KeepaliveCtx × List Nat :=
  let (numConnected, nodes, sent) := checkForDeadNodesLoop ctdb.pnn keepaliveLimit 0 ctdb.numConnected ctdb.nodes
  ({ ctdb with numConnected, nodes }, sent)

/-- The transport's `node_dead` upcall for the node at `pnn`. -/
def transportNodeDead (ctdb : KeepaliveCtx) (pnn : Nat) : KeepaliveCtx :=
  match ctdb.nodes[pnn]? with
  | none => ctdb
  | some node =>
      let (numConnected, node) := ctdbNodeDead ctdb.numConnected node
      { ctdb with numConnected, nodes := ctdb.nodes.set pnn node }

/-- `struct ctdb_node_flag_change`. -/
structure NodeFlagChange where
  pnn : UInt32
  newFlags : UInt32
  oldFlags : UInt32
  deriving DecidableEq, Repr

/-- The flags `ctdb_control_modflags` writes, and its answer: -1 for a pnn
past the node list. The disconnected bit of another node is kept, and the
daemon's own stopped and banned bits. -/
def ctdbControlModflags (ctdb : KeepaliveCtx) (c : NodeFlagChange) : Int × KeepaliveCtx :=
  match ctdb.nodes[c.pnn.toNat]? with
  | none => (-1, ctdb)
  | some node =>
      let oldFlags := node.flags
      let cOldFlags := if c.pnn.toNat ≠ ctdb.pnn then node.flags else c.oldFlags
      let flags := (c.newFlags &&& ~~~NODE_FLAGS_DISCONNECTED) ||| (cOldFlags &&& NODE_FLAGS_DISCONNECTED)
      let flags := if c.pnn.toNat = ctdb.pnn then
        (flags &&& ~~~NODE_FLAGS_STOPPED) ||| (oldFlags &&& NODE_FLAGS_STOPPED) else flags
      let flags := if c.pnn.toNat = ctdb.pnn then
        (flags &&& ~~~NODE_FLAGS_BANNED) ||| (oldFlags &&& NODE_FLAGS_BANNED) else flags
      (0, { ctdb with nodes := ctdb.nodes.set c.pnn.toNat { node with flags } })

/-! ## Runs -/

/-- What can happen to the daemon's view of the nodes: a packet comes in, the
keepalive timer fires with the limit of that moment, the transport reports a
node dead, or the recovery master pushes a node's flags. -/
inductive KeepaliveEvent
  | recvPkt (srcnode operation hopcount : UInt32)
  | checkForDeadNodes (keepaliveLimit : UInt32)
  | nodeDead (pnn : Nat)
  | modflags (c : NodeFlagChange)
  deriving DecidableEq, Repr

def keepaliveStep (ctdb : KeepaliveCtx) : KeepaliveEvent → KeepaliveCtx
  | .recvPkt srcnode operation hopcount => ctdbRecvPkt ctdb srcnode operation hopcount
  | .checkForDeadNodes keepaliveLimit => (ctdbCheckForDeadNodes ctdb keepaliveLimit).1
  | .nodeDead pnn => transportNodeDead ctdb pnn
  | .modflags c => (ctdbControlModflags ctdb c).2

def keepaliveRun (ctdb : KeepaliveCtx) (evs : List KeepaliveEvent) : KeepaliveCtx :=
  evs.foldl keepaliveStep ctdb

end Ctdb

import Ctdb.Recovery.Pull

/-!
# Electing the recovery master (`server/ctdb_recoverd.c`)

Every recovery daemon that wants to be recovery master broadcasts an
`election_message` with what `ctdb_election_data` makes of its node: how many
nodes of its node map are connected, the time it has had priority since, its
pnn and its own node flags. A node without `CTDB_CAP_RECMASTER` advertises no
connected nodes and the current time.

A daemon receiving such a message asks `ctdb_election_win` whether it would
rather win itself. It cannot win without the capability, or while banned or
stopped; it wins at once against a banned or stopped sender; otherwise it
compares the number of connected nodes, then the priority times (the earlier
wins), then the pnns, each as the sign of an `int`. `election_handler` then
either goes on campaigning or yields and makes the sender recovery master.

The counts and pnns are converted from `uint32_t` to `int` and subtracted
there (`Int32`, which wraps as the machine does). Times are compared with
`timeval_compare` and are held as integers.
-/

namespace Ctdb

/-- `CTDB_CAP_RECMASTER`. -/
def CTDB_CAP_RECMASTER : UInt32 := 0x00000001

/-- `struct timeval`, as `timeval_compare` reads it. -/
structure Timeval where
  sec : Int
  usec : Int
  deriving DecidableEq, Repr

/-- `timeval_compare`. -/
def timevalCompare (tv1 tv2 : Timeval) : Int32 :=
  if tv1.sec > tv2.sec then 1
  else if tv1.sec < tv2.sec then -1
  else if tv1.usec > tv2.usec then 1
  else if tv1.usec < tv2.usec then -1
  else 0

/-- `struct election_message`. -/
structure ElectionMessage where
  numConnected : UInt32
  priorityTime : Timeval
  pnn : UInt32
  nodeFlags : UInt32
  deriving DecidableEq, Repr

/-- What the election reads of `struct ctdb_recoverd` and its `ctdb_context`. -/
structure Recoverd where
  pnn : UInt32
  capabilities : UInt32
  priorityTime : Timeval
  nodeFlags : UInt32
  deriving DecidableEq, Repr

/-- `ctdb_election_data`, given the node map `ctdb_ctrl_getnodemap` returns
(the flags of each node, `none` when the control fails) and the current time:
the daemon with `node_flags` updated, and the message. An index past the
node map reads as flags 0. -/
def ctdbElectionData (rec : Recoverd) (nodemap : Option (List UInt32)) (now : Timeval) :
    Recoverd × ElectionMessage :=
  let em : ElectionMessage := ⟨0, rec.priorityTime, rec.pnn, 0⟩
  match nodemap with
  -- "unable to get node map"
  | none => (rec, em)
  | some nodes =>
      let nodeFlags := nodes.getD rec.pnn.toNat 0
      let numConnected := UInt32.ofNat (nodes.countP fun f => f &&& NODE_FLAGS_DISCONNECTED == 0)
      let em := { em with nodeFlags := nodeFlags, numConnected := numConnected }
      -- "we shouldnt try to win this election if we cant be a recmaster"
      if rec.capabilities &&& CTDB_CAP_RECMASTER = 0 then
        ({ rec with nodeFlags := nodeFlags }, { em with numConnected := 0, priorityTime := now })
      else ({ rec with nodeFlags := nodeFlags }, em)

/-- The test of `ctdb_election_win` once `ctdb_election_data` has made the
daemon's own message `myem`: whether it would rather win than the sender of
`em`. -/
def electionWinCheck (rec : Recoverd) (myem em : ElectionMessage) : Bool :=
  if rec.capabilities &&& CTDB_CAP_RECMASTER = 0 then false
  else if rec.nodeFlags &&& NODE_FLAGS_BANNED ≠ 0 then false
  else if rec.nodeFlags &&& NODE_FLAGS_STOPPED ≠ 0 then false
  else if em.nodeFlags &&& NODE_FLAGS_BANNED ≠ 0 then true
  else if em.nodeFlags &&& NODE_FLAGS_STOPPED ≠ 0 then true
  else
    -- "try to use the most connected node", "then the longest running node"
    let cmp : Int32 := myem.numConnected.toInt32 - em.numConnected.toInt32
    let cmp := if cmp = 0 then timevalCompare em.priorityTime myem.priorityTime else cmp
    let cmp := if cmp = 0 then myem.pnn.toInt32 - em.pnn.toInt32 else cmp
    cmp > 0

/-- `ctdb_election_win`: the daemon after `ctdb_election_data`, and the answer. -/
def ctdbElectionWin (rec : Recoverd) (nodemap : Option (List UInt32)) (now : Timeval)
    (em : ElectionMessage) : Recoverd × Bool :=
  let (rec, myem) := ctdbElectionData rec nodemap now
  (rec, electionWinCheck rec myem em)

/-- What `election_handler` does with an election message. -/
inductive ElectionAction
  /-- it would rather win: it sends its own election request -/
  | campaign
  /-- `ctdb_ctrl_setrecmaster` to the sender's pnn -/
  | yield (pnn : UInt32)
  deriving DecidableEq, Repr

/-- `election_handler`, as far as the election goes. -/
def electionHandler (rec : Recoverd) (nodemap : Option (List UInt32)) (now : Timeval)
    (em : ElectionMessage) : ElectionAction :=
  if (ctdbElectionWin rec nodemap now em).2 then .campaign else .yield em.pnn

end Ctdb

import Ctdb.Recovery.Pull

/-!
# Committing a persistent transaction (`server/ctdb_persistent.c`,
`server/ctdb_recover.c`, `client/ctdb_client.c`)

A client commits a transaction on a persistent database with one
`CTDB_CONTROL_TRANS3_COMMIT` to its own node. The node sends the
transaction's records in a `CTDB_CONTROL_UPDATE_RECORD` to every node of its
vnn map that is not inactive, and holds the commit in the database's
`persistent_state` until it can answer: with status 0 once every node sent
to has answered with status 0, with 1 when the commit's timer fires, and
with 2 when a recovery ends (`ctdb_persistent_finish_trans3_commits`).
While a recovery is running the answers and the timer are ignored. A node
that answers with an error does not count down `num_pending` but puts this
node into recovery, so that the recovery answers the commit.

When no node of the vnn map is active nothing is sent, `num_pending` is 0
right away, and the control returns 0 on the spot.

The state is one persistent database's: the recovery mode, the clients
with the database each has a commit running on, the commit in progress if
any, with the nodes whose `UPDATE_RECORD` is still unanswered, and, as
what the node has done so far, the replies it sent and the `UPDATE_RECORD`
controls it sent. The vnn map, the node flags and whether the transport is
up are fixed for a run.
-/

namespace Ctdb

/-- `CTDB_RECOVERY_NORMAL` and `CTDB_RECOVERY_ACTIVE`. -/
inductive RecoveryMode
  | normal
  | active
  deriving DecidableEq, Repr

/-- `struct ctdb_persistent_state` of a commit in progress. -/
structure PersistentState where
  /-- The `TRANS3_COMMIT` control to answer. -/
  c : Nat
  client : Nat
  /-- The nodes whose `UPDATE_RECORD` control has not called back. -/
  awaiting : List UInt32
  numPending : Nat
  numSent : Nat
  numFailed : Nat
  /-- The commit's timer has not fired. -/
  timerArmed : Bool
  deriving DecidableEq, Repr

/-- What the node's commits read and write of it. -/
structure Trans3Daemon where
  recoveryMode : RecoveryMode
  /-- Each connected client and its `db_id`, 0 when no commit of it runs. -/
  clients : List (Nat × UInt32)
  persistentState : Option PersistentState
  /-- The control replies sent, oldest first. -/
  replies : List (Nat × Int)
  /-- The `UPDATE_RECORD` controls sent: the commit and the node. -/
  updatesSent : List (Nat × UInt32)
  deriving DecidableEq, Repr

/-- What is fixed during a run: the persistent database, the vnn map, the
node map's flags, and whether the transport is up (`ctdb->methods`). -/
structure Trans3Config where
  dbId : UInt32
  vnnMap : List UInt32
  nodeFlags : UInt32 → UInt32
  transportUp : Bool

/-- The nodes `ctdb_control_trans3_commit` sends `UPDATE_RECORD` to. -/
def Trans3Config.targets (cfg : Trans3Config) : List UInt32 :=
  cfg.vnnMap.filter fun pnn => cfg.nodeFlags pnn &&& NODE_FLAGS_INACTIVE == 0

/-- Send the reply to control `c`. -/
def Trans3Daemon.reply (d : Trans3Daemon) (c : Nat) (status : Int) : Trans3Daemon :=
  { d with replies := d.replies ++ [(c, status)] }

/-- Set the `db_id` of client `client`. -/
def setClientDbId (clients : List (Nat × UInt32)) (client : Nat) (dbId : UInt32) :
    List (Nat × UInt32) :=
  clients.map fun e => if e.1 = client then (client, dbId) else e

/-- `talloc_free(state)`: the destructor clears the client's `db_id` and the
database's `persistent_state`; the timer and the unanswered controls go with
the state. -/
def Trans3Daemon.freeState (d : Trans3Daemon) (st : PersistentState) : Trans3Daemon :=
  { d with persistentState := none, clients := setClientDbId d.clients st.client 0 }

/-- `ctdb_control_trans3_commit` for control `c` of client `client` on
database `dbId`: the -1 and the 0 it returns are sent as replies at once. -/
def ctdbControlTrans3Commit (cfg : Trans3Config) (d : Trans3Daemon) (c client : Nat)
    (dbId : UInt32) : Trans3Daemon :=
  if d.recoveryMode ≠ .normal then d.reply c (-1)
  else
    match List.lookup client d.clients with
    | none => d.reply c (-1)
    | some clientDbId =>
        -- "trans3_commit active?"
        if clientDbId ≠ 0 then d.reply c (-1)
        -- "Unknown database"
        else if dbId ≠ cfg.dbId then d.reply c (-1)
        else if d.persistentState.isSome then d.reply c (-1)
        else
          match cfg.targets with
          -- nothing pending: the state is freed and 0 returned
          | [] => d.reply c 0
          | targets =>
              -- "Unable to send CTDB_CONTROL_UPDATE_RECORD"
              if !cfg.transportUp then d.reply c (-1)
              else
                { d with
                  persistentState :=
                    some ⟨c, client, targets, targets.length, targets.length, 0, true⟩
                  clients := setClientDbId d.clients client dbId
                  updatesSent := d.updatesSent ++ targets.map (c, ·) }

/-- `ctdb_persistent_callback`: node `pnn` has answered its `UPDATE_RECORD`
with `status`. -/
def ctdbPersistentCallback (d : Trans3Daemon) (pnn : UInt32) (status : Int) : Trans3Daemon :=
  match d.persistentState with
  | none => d
  | some st =>
      -- a control whose state is gone does not call back
      if pnn ∉ st.awaiting then d
      else
        let st := { st with awaiting := st.awaiting.erase pnn }
        -- "ignoring reply during recovery"
        if d.recoveryMode ≠ .normal then { d with persistentState := some st }
        else if status ≠ 0 then
          { d with
            persistentState := some { st with numFailed := st.numFailed + 1 }
            recoveryMode := .active }
        else
          let st := { st with numPending := st.numPending - 1 }
          if st.numPending ≠ 0 then { d with persistentState := some st }
          else (d.reply st.c 0).freeState st

/-- `ctdb_persistent_store_timeout`. -/
def ctdbPersistentStoreTimeout (d : Trans3Daemon) : Trans3Daemon :=
  match d.persistentState with
  | none => d
  | some st =>
      if !st.timerArmed then d
      -- "ignoring timeout during recovery": the timer does not fire again
      else if d.recoveryMode ≠ .normal then
        { d with persistentState := some { st with timerArmed := false } }
      else (d.reply st.c 1).freeState st

/-- `ctdb_persistent_finish_trans3_commits`, from `ctdb_control_end_recovery`. -/
def ctdbPersistentFinishTrans3Commits (d : Trans3Daemon) : Trans3Daemon :=
  if d.recoveryMode ≠ .normal then d
  else
    match d.persistentState with
    | none => d
    | some st => (d.reply st.c 2).freeState st

/-- What can happen next on the node. -/
inductive Trans3Event
  | trans3Commit (c client : Nat) (dbId : UInt32)
  | updateReply (pnn : UInt32) (status : Int)
  | commitTimeout
  | setRecoveryMode (mode : RecoveryMode)
  | endRecovery
  deriving DecidableEq, Repr

def trans3Step (cfg : Trans3Config) (d : Trans3Daemon) : Trans3Event → Trans3Daemon
  | .trans3Commit c client dbId => ctdbControlTrans3Commit cfg d c client dbId
  | .updateReply pnn status => ctdbPersistentCallback d pnn status
  | .commitTimeout => ctdbPersistentStoreTimeout d
  | .setRecoveryMode mode => { d with recoveryMode := mode }
  | .endRecovery => ctdbPersistentFinishTrans3Commits d

def trans3Run (cfg : Trans3Config) (d : Trans3Daemon) (events : List Trans3Event) : Trans3Daemon :=
  events.foldl (trans3Step cfg) d

/-- What `ctdb_transaction_commit` does once its control has been answered
(`ok` for `ret == 0`): `some ret` to return, `none` to send it again
(`goto again`). `newSeqnum` is the sequence number it then reads back from
its node's copy of the database, `none` where that read fails. -/
def transactionCommitOutcome (ok : Bool) (status : Int) (oldSeqnum : UInt64)
    (newSeqnum : Option UInt64) : Option Int :=
  if ok ∧ status = 0 then some 0
  else
    match newSeqnum with
    | none => some (-1)
    | some n =>
        -- "Database not yet updated, try again"
        if n = oldSeqnum then none
        else if n ≠ oldSeqnum + 1 then some (-1)
        else some 0

end Ctdb

import Ctdb.Lib.Bytes
import Ctdb.Lib.Mask
import Ctdb.Lib.Fold
import Ctdb.Lib.Entrywise
import Ctdb.Ltdb.Header
import Ctdb.Ltdb.Tdb
import Ctdb.Ltdb.StoreServer
import Ctdb.Ltdb.Access
import Ctdb.Marshall.Buffer
import Ctdb.Recovery.Pull
import Ctdb.Recovery.Push
import Ctdb.Client.Transaction
import Ctdb.Persistent.UpdateRecord
import Ctdb.Proofs.MarshallRoundTrip
import Ctdb.Proofs.MarshallBuilders
import Ctdb.Proofs.RecoveryPull
import Ctdb.Proofs.Recovery
import Ctdb.Proofs.Transaction
import Ctdb.Lib.Interleave
import Ctdb.Traverse.All
import Ctdb.Proofs.Traverse
import Ctdb.Freeze.Control
import Ctdb.Proofs.Freeze
import Ctdb.Io.Queue
import Ctdb.Proofs.Queue
import Ctdb.Takeover.SockAddr
import Ctdb.Takeover.IpAlloc
import Ctdb.Proofs.Takeover
import Ctdb.Proofs.Deterministic
import Ctdb.Lib.PairSum
import Ctdb.Proofs.Lcp2Table
import Ctdb.Proofs.IpKey
import Ctdb.Proofs.Lcp2Failback
import Ctdb.Vacuum.Remote
import Ctdb.Vacuum.DeleteList
import Ctdb.Proofs.Vacuum
import Ctdb.Proofs.Bounds
import Ctdb.Lock.Iterator
import Ctdb.Proofs.Lock
import Ctdb.Persistent.Trans3
import Ctdb.Proofs.Trans3
import Ctdb.Lib.RbZipper
import Ctdb.RbTree.Tree
import Ctdb.Proofs.RbBalance
import Ctdb.Proofs.RbOrder
import Ctdb.Proofs.RbMap
import Ctdb.RbTree.Array
import Ctdb.Lib.NestedMap
import Ctdb.Proofs.RbArray
import Ctdb.Lib.OnesComplement
import Ctdb.System.Tcp
import Ctdb.Proofs.Tcp
import Ctdb.Recovery.Election
import Ctdb.Lib.Tournament
import Ctdb.Proofs.Election
import Ctdb.Event.ScriptList
import Ctdb.Proofs.ScriptList
import Ctdb.RbTree.Heap
import Ctdb.Proofs.RbHeap
import Ctdb.Proofs.RbHeapShape
import Ctdb.Proofs.RbHeapRotate
import Ctdb.Proofs.RbHeapInsert
import Ctdb.Call.Deferral
import Ctdb.Proofs.Deferral
import Ctdb.Call.Revoke
import Ctdb.Proofs.Revoke
import Ctdb.Lock.Schedule
import Ctdb.Proofs.LockSchedule
import Ctdb.Proofs.LockBookkeeping
import Ctdb.Node.Keepalive
import Ctdb.Proofs.Keepalive
import Ctdb.Lib.Simulation
import Ctdb.Call.Migration
import Ctdb.Proofs.MigrationStore
import Ctdb.Proofs.MigrationDaemon
import Ctdb.Proofs.Migration
import Ctdb.Lib.Handoff
import Ctdb.Proofs.MigrationRun
import Ctdb.Proofs.MigrationSafety

import Ctdb.Proofs.MarshallBuilders

/-!
# The pulled recdb holds the latest copy of every record

What the recovery master has in its recdb after `pull_remote_database`,
key by key. The pull controls send every record of every node, header and
data as stored, and the merge loop reads them back (the marshall round
trip, `marshallRecordLoop_finish`). So the pull phase is a fold of one merge
step over the records of all nodes, node after node (`pullRemoteDatabase_eq`).

Each step touches one key, so under one key the fold sees only that key's
copies, one per node that has one, in node map order
(`fetch_pullRemoteDatabase`). The merge keeps the copy with the higher rsn,
whatever it does on equal rsns, so when one copy's rsn is strictly above all
the others the recdb ends with that copy (`Lib.foldl_keepsMax_eq`), and with
nothing when no node has the record.

The sizes of the records matter because they are marshalled, into buffers
talloc must be able to allocate. `RecoveryFits` asks it of all the nodes'
records in one buffer; each node's pull reply is smaller, and so is the
recdb, which each merge step grows by at most the record it stores
(`recdbSize_foldl_pullStep_le`).
-/

namespace Ctdb

open Lib

/-! ## What the nodes send -/

/-- What talloc lets a recovery allocate: the records of all the nodes,
marshalled into one buffer with `PullDBPreallocation` bytes on top, stay
below `MAX_TALLOC_SIZE`. -/
def RecoveryFits (prealloc : UInt32) (nodes : List ClusterNode) : Prop :=
  marshallBufferHeaderSize + (marshallBytes (nodes.flatMap fun n => pulledRecords n.ltdb)).length +
    prealloc.toNat < maxTallocSize

variable (rm : UInt32)

end Ctdb

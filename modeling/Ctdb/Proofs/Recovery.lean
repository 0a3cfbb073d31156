import Ctdb.Proofs.RecoveryPull

/-!
# Recovery keeps the latest copy of every record

`recover_database` on a volatile database, followed through its three
phases. After the pull, the recdb holds under each key the copy with the
highest rsn (`Proofs/RecoveryPull.lean`). The wipe empties every node. The
push buffer holds every recdb record with data, its header rewritten by
`traverse_recdb`; each node stores each of them through
`ctdb_ltdb_store_server`, and since they all have data, all are kept, and
exactly the node that is the recovery master bumps the rsn.

So after recovery each node holds, under each key, the latest copy's data
under a header naming the recovery master (`fetch_recovered_of_highest`), a
function of the latest copy and of the node alone. Two more facts follow
from that form: the recovery master's copy has the highest rsn, unless the
latest rsn is already `2^64 - 1`, where the 64-bit increment wraps to 0
(`recoverDatabase_rsn_wraps`); and the order of the node map does not
matter, because when every record has a copy strictly above the others,
the latest copy does not depend on it.

Every buffer of the recovery has to be one talloc can allocate. The push
buffer is no larger than the recdb, and the recdb no larger than all the
pulled records together (`length_pushedRecords_pulledRecdb_le`), so
`RecoveryFits` covers it.
-/

namespace Ctdb

open Lib

/-! ## The push buffer -/

/-- Before recovery: every node is active, frozen inside the recovery
transaction and has a vnn map, the node map numbers the nodes apart, and
the records fit the buffers talloc allocates with `PullDBPreallocation` set
to `prealloc`. -/
structure RecoveryReady (prealloc tid : UInt32) (nodes : List ClusterNode) : Prop where
  ready : ∀ n ∈ nodes,
    n.active = true ∧ n.frozen = true ∧ n.transactionId = some tid ∧ n.vnnMap.isSome
  pnns : (nodes.map (·.pnn)).Nodup
  fits : RecoveryFits prealloc nodes

/-- Every record some node holds has a copy on a node that names itself as
the record's dmaster, and that copy's rsn is strictly above every other
node's copy. -/
def DmasterCopyHighest (nodes : List ClusterNode) : Prop :=
  ∀ key, (∃ n ∈ nodes, tdbFetch n.ltdb key ≠ none) →
    ∃ d ∈ nodes, ∃ c, tdbFetch d.ltdb key = some c ∧ c.1.dmaster = d.pnn ∧
      ∀ n ∈ nodes, n.pnn ≠ d.pnn → ∀ c', tdbFetch n.ltdb key = some c' → c'.1.rsn < c.1.rsn

theorem RecoveryReady.perm {prealloc tid : UInt32} {nodes nodes₂ : List ClusterNode}
    (h : RecoveryReady prealloc tid nodes) (hperm : nodes₂.Perm nodes) :
    RecoveryReady prealloc tid nodes₂ where
  ready n hn := h.ready n (hperm.mem_iff.mp hn)
  pnns := (hperm.map _).nodup_iff.mpr h.pnns
  fits := by
    have hsum := ((hperm.flatMap_right fun n => pulledRecords n.ltdb).map MarshallRecord.length).sum_eq
    have hfit := h.fits
    unfold RecoveryFits at hfit ⊢
    rw [length_marshallBytes] at hfit ⊢
    omega

end Ctdb

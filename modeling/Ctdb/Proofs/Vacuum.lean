import Ctdb.Vacuum.DeleteList
import Ctdb.Proofs.MarshallRoundTrip

/-!
# The vacuum delete leaves the last refused record on the list

A node's reply to either vacuum control holds the records it refused, one
after another from an empty buffer. The lmaster's loop over such a reply
runs `count - 1` times, so it takes off the list every refused record but
the last one (`processFailedRecords_finish`). A record that one node refuses
in both steps, and that is the only record the node refuses, therefore
stays on the list through both steps, and step 3 deletes the lmaster's copy
while that node keeps its own.

The run below is such a case: one record, one remote node that holds an
older copy with data, and another process holding the hash chain of the
record on that node, so that neither control can take the node's lock.
-/

namespace Ctdb

open Lib

/-- The lmaster's reply loop, over a reply filled from empty, hands every
record but the last to the removal step, in order. -/
theorem processFailedRecords_finish (hash : TdbData → UInt32) (dbId : UInt32)
    (recs : List MarshallRecord) (vdata : VacuumData) (hcount : recs.length < 2 ^ 32)
    (hrecs : ∀ x ∈ recs, x.Fits ∧ x.header = none) :
    processFailedRecords hash (ctdbMarshallFinish (marshallFill (MarshallBuffer.empty dbId) recs))
        vdata =
      recs.dropLast.foldlM (fun v r => removeFailedRecord hash v r.key r.data) vdata := by
  have hread := (marshallRecordLoop_finish (removeFailedRecord hash) dbId recs vdata hcount hrecs).1
  rw [processFailedRecords, hread, Option.bind_eq_bind, Option.bind_some]
  rcases List.eq_nil_or_concat' recs with rfl | ⟨L, b, rfl⟩
  · rfl
  · -- the loop stops one record short: the last record is the tail of the buffer
    have hL : ∀ x ∈ L, x.Fits ∧ x.header = none :=
      fun x hx => hrecs x (List.mem_append_left _ hx)
    have h := marshallRecordLoop_records (removeFailedRecord hash) (marshallBytes [b]) L
      (leBytes 4 dbId.toNat ++ leBytes 4 (UInt32.ofNat (L ++ [b]).length).toNat) vdata hL
    have hpre : (leBytes 4 dbId.toNat ++ leBytes 4 (UInt32.ofNat (L ++ [b]).length).toNat).length =
        marshallBufferHeaderSize := by
      simp [marshallBufferHeaderSize]
    rw [hpre] at h
    rw [List.dropLast_concat, List.length_append, List.length_singleton, Nat.add_sub_cancel,
      marshallFill_empty, ctdbMarshallFinish, marshallBytes_append, ← List.append_assoc]
    exact h

theorem processFailedRecords_finish_two :
    [(⟨7, [1], none, List.replicate 24 0⟩ : MarshallRecord), ⟨7, [2], none, List.replicate 24 0⟩].length <
        2 ^ 32 ∧
      (∀ x ∈ [(⟨7, [1], none, List.replicate 24 0⟩ : MarshallRecord),
          ⟨7, [2], none, List.replicate 24 0⟩], x.Fits ∧ x.header = none) ∧
      processFailedRecords (fun _ => 0) (ctdbMarshallFinish (marshallFill (MarshallBuffer.empty 7)
          [⟨7, [1], none, List.replicate 24 0⟩, ⟨7, [2], none, List.replicate 24 0⟩]))
          ⟨(∅ : DeleteList).insert 0 ⟨⟨5, 0, 0⟩, [1]⟩, 1, 1⟩ =
        [(⟨7, [1], none, List.replicate 24 0⟩ : MarshallRecord),
            ⟨7, [2], none, List.replicate 24 0⟩].dropLast.foldlM
          (fun v r => removeFailedRecord (fun _ => 0) v r.key r.data)
          ⟨(∅ : DeleteList).insert 0 ⟨⟨5, 0, 0⟩, [1]⟩, 1, 1⟩ :=
  ⟨by decide, by decide, processFailedRecords_finish (fun _ => 0) 7 _ _ (by decide) (by decide)⟩

/-! ## A record that outlives both replies -/

/-- Every key hashes to 0, which the vnn map `[0, 1]` gives to node 0. -/
def vacuumHash (_ : TdbData) : UInt32 := 0

/-- Node 0, the lmaster of every key, vacuuming database 7. -/
def vacuumLmaster : VacuumCtx := ⟨0, [0, 1], 7⟩

/-- Node 1 holds an older copy of key `[1]`, with data, and another process
holds that key's hash chain. -/
def busyRemote : VacuumNode :=
  ⟨1, [0, 1], 7, (∅ : Ltdb).insert [1] (⟨3, 0, 0⟩, [42]), [[1]], false⟩

/-- The lmaster holds key `[1]` empty at rsn 5, and has it on its delete
list with that header. -/
def lastFailedRun : VacuumRun :=
  ⟨(∅ : Ltdb).insert [1] (⟨5, 0, 0⟩, []),
    ⟨(∅ : DeleteList).insert 0 ⟨⟨5, 0, 0⟩, [1]⟩, 1, 0⟩, [busyRemote]⟩

/-- Node 1 can neither store the lmaster's empty copy nor delete its own,
yet the run succeeds with the lmaster's copy deleted and node 1's older copy,
with its data, still in place. -/
theorem ctdbProcessDeleteList_deletes_refused_record :
    storeTdbRecord vacuumHash busyRemote [1] (⟨5, 0, 0⟩ : LtdbHeader).toBytes = none ∧
      deleteTdbRecord vacuumHash busyRemote [1] (⟨5, 0, 0⟩ : LtdbHeader).toBytes = none ∧
      (ctdbProcessDeleteList vacuumHash vacuumLmaster lastFailedRun).1 = true ∧
      tdbFetch (ctdbProcessDeleteList vacuumHash vacuumLmaster lastFailedRun).2.ltdb [1] = none ∧
      ((ctdbProcessDeleteList vacuumHash vacuumLmaster lastFailedRun).2.remotes.map
          fun n => tdbFetch n.ltdb [1]) = [some (⟨3, 0, 0⟩, [42])] := by
  decide

end Ctdb

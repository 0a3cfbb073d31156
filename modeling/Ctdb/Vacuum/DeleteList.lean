import Ctdb.Vacuum.Remote

/-!
# Deleting records cluster-wide (`server/ctdb_vacuum.c`)

Vacuuming collects, on the lmaster of each key, the empty records it is
also dmaster of into a delete list keyed by the key's hash.
`ctdb_process_delete_list` then deletes them in three steps, so that no
other node keeps an older copy that a recovery could bring back:

1. it bumps the rsn of each record that is still empty and still its own
   (`delete_marshall_traverse_first`), and sends the empty copies, under
   the headers it had recorded, to every active remote node to store;
2. it sends the records that are left to every active remote node to delete;
3. it deletes what is still left locally (`delete_record_traverse`), each
   record only if its copy still looks as step 1 left it.

After each of the first two steps, the records some node sent back as not
stored or not deleted are to be taken off the list. The loop that does this
is written `while (records->count-- > 1)` and so runs once less than the
reply has records: `processFailedRecords` models it as written.

The delete list is modelled as an association list from hash to record;
the traverses visit its entries in the order the list holds them.
`VacuumRun` is the lmaster's database, its vacuum data, and the active
remote nodes in node map order.
-/

namespace Ctdb

open Lib

/-- `struct delete_record_data`: the key and the header it had when it was
put on the list. -/
structure DeleteRecordData where
  hdr : LtdbHeader
  key : TdbData
  deriving DecidableEq, Repr

/-- The delete list, keyed by `ctdb_hash` of the key. -/
abbrev DeleteList := AList (fun _ : UInt32 => DeleteRecordData)

/-- The part of `struct vacuum_data` the delete reads and writes. -/
structure VacuumData where
  deleteList : DeleteList
  deleteCount : UInt32
  deleteLeft : UInt32

/-- The lmaster's own number, its vnn map and the database's id. -/
structure VacuumCtx where
  pnn : UInt32
  vnnMap : List UInt32
  dbId : UInt32

/-- The daemon's store context on the lmaster, for a volatile database. -/
def VacuumCtx.storeCtx (c : VacuumCtx) : StoreCtx := ⟨c.pnn, false, some c.vnnMap⟩

/-- The checks `delete_marshall_traverse_first` and `delete_record_traverse`
make of the local copy before they touch it: the record still exists and is
empty, carries no read-only flag, this node is still its dmaster and its
lmaster, and its rsn is `rsn`. The header, if all hold. -/
def emptyCopyUnchanged (hash : TdbData → UInt32) (c : VacuumCtx) (key : TdbData) (rsn : UInt64)
    (ltdb : Ltdb) : Option LtdbHeader :=
  match tdbFetch ltdb key with
  | none => none
  | some (header, data) =>
      if data ≠ [] then none
      else if header.flags &&& CTDB_REC_RO_FLAGS ≠ 0 then none
      else if header.dmaster ≠ c.pnn then none
      else if header.rsn ≠ rsn then none
      else if ctdbLmaster hash c.vnnMap key ≠ c.pnn then none
      else some header

/-- `delete_marshall_traverse`: append the record, empty, under its recorded
header, with the database id as request id. -/
def deleteMarshallTraverse (recs : MarshallBuffer) (dd : DeleteRecordData) : MarshallBuffer :=
  marshallAppend recs recs.dbId dd.key (some dd.hdr) []

/-- `delete_marshall_traverse_first`: a record whose copy has changed is
dropped from the list; any other is stored again, which bumps its rsn, and
marshalled. -/
def deleteMarshallTraverseFirst (hash : TdbData → UInt32) (c : VacuumCtx)
    (s : Ltdb × DeleteList × MarshallBuffer) (e : (_ : UInt32) × DeleteRecordData) :
    Ltdb × DeleteList × MarshallBuffer :=
  let (ltdb, list, recs) := s
  match emptyCopyUnchanged hash c e.2.key e.2.hdr.rsn ltdb with
  | none => (ltdb, list.erase e.1, recs)
  | some header =>
      let r := ctdbLtdbStore hash c.storeCtx ltdb e.2.key header []
      if r.ok then (r.ltdb, list, deleteMarshallTraverse recs e.2)
      else (r.ltdb, list.erase e.1, recs)

/-- Taking a record off the list: `talloc_free(dd)` and `delete_left--`. -/
def VacuumData.remove (vdata : VacuumData) (hash : UInt32) : VacuumData :=
  { vdata with deleteList := vdata.deleteList.erase hash, deleteLeft := vdata.deleteLeft - 1 }

/-- `delete_record_traverse`: delete the local copy if step 1 left it as it
was, and take the record off the list. -/
def deleteRecordTraverse (hash : TdbData → UInt32) (c : VacuumCtx) (s : Ltdb × VacuumData)
    (e : (_ : UInt32) × DeleteRecordData) : Ltdb × VacuumData :=
  match emptyCopyUnchanged hash c e.2.key (e.2.hdr.rsn + 1) s.1 with
  | none => s
  | some _ =>
      match tdbDelete s.1 e.2.key with
      | none => s
      | some ltdb => (ltdb, s.2.remove e.1)

/-- The body of the reply loop, for one record a node sent back. -/
def removeFailedRecord (hash : TdbData → UInt32) (vdata : VacuumData) (key data : TdbData) :
    Option VacuumData :=
  -- "bad ltdb record"
  if data.length < ltdbHeaderSize then none
  else if (vdata.deleteList.lookup (hash key)).isSome then some (vdata.remove (hash key))
  else some vdata

/-- The reply loop after each control: `while (records->count-- > 1)` from
the first record on. `none` where the step gives up. -/
def processFailedRecords (hash : TdbData → UInt32) (outdata : TdbData) (vdata : VacuumData) :
    Option VacuumData := do
  let count ← readLE outdata 4 4
  marshallRecordLoop (removeFailedRecord hash) outdata (count - 1) marshallBufferHeaderSize vdata

/-- One step's controls, node after node: `false` once a control fails or a
reply is bad, with the nodes and the vacuum data as far as they got. -/
def sendToActiveNodes (hash : TdbData → UInt32)
    (control : TdbData → VacuumNode → Option (VacuumNode × TdbData)) (indata : TdbData) :
    List VacuumNode → VacuumData → Bool × List VacuumNode × VacuumData
  | [], vdata => (true, [], vdata)
  | n :: ns, vdata =>
      match control indata n with
      | none => (false, n :: ns, vdata)
      | some (n', outdata) =>
          match processFailedRecords hash outdata vdata with
          | none => (false, n' :: ns, vdata)
          | some vdata =>
              let r := sendToActiveNodes hash control indata ns vdata
              (r.1, n' :: r.2.1, r.2.2)

/-- The lmaster's database, its vacuum data, and the active remote nodes. -/
structure VacuumRun where
  ltdb : Ltdb
  vdata : VacuumData
  remotes : List VacuumNode

/-- `ctdb_process_delete_list`: `true` for a return of 0, and what the run
leaves. -/
def ctdbProcessDeleteList (hash : TdbData → UInt32) (c : VacuumCtx) (s : VacuumRun) :
    Bool × VacuumRun :=
  if s.vdata.deleteCount = 0 then (true, s)
  else
    let vdata := { s.vdata with deleteLeft := s.vdata.deleteCount }
    -- step 1: bump, marshall and send the empty copies for storing
    let (ltdb, deleteList, recs) := s.vdata.deleteList.entries.foldl
      (deleteMarshallTraverseFirst hash c) (s.ltdb, s.vdata.deleteList, MarshallBuffer.empty c.dbId)
    let (ok, remotes, vdata) := sendToActiveNodes hash (ctdbControlReceiveRecords hash)
      (ctdbMarshallFinish recs) s.remotes { vdata with deleteList }
    if !ok then (false, ⟨ltdb, vdata, remotes⟩)
    else if vdata.deleteLeft = 0 then (true, ⟨ltdb, vdata, remotes⟩)
    else
      -- step 2: send what is left for deletion
      let recs := vdata.deleteList.entries.foldl (fun m e => deleteMarshallTraverse m e.2)
        (MarshallBuffer.empty c.dbId)
      let (ok, remotes, vdata) := sendToActiveNodes hash (ctdbControlTryDeleteRecords hash)
        (ctdbMarshallFinish recs) remotes vdata
      if !ok then (false, ⟨ltdb, vdata, remotes⟩)
      else if vdata.deleteLeft = 0 then (true, ⟨ltdb, vdata, remotes⟩)
      else
        -- step 3: delete what is still left locally
        let (ltdb, vdata) := vdata.deleteList.entries.foldl (deleteRecordTraverse hash c)
          (ltdb, vdata)
        (true, ⟨ltdb, vdata, remotes⟩)

end Ctdb

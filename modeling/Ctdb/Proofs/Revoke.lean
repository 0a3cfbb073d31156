import Ctdb.Call.Revoke
import Ctdb.Lib.Mask

/-!
# A failed revoke leaves a record no call can use

A call that does not want a read-only copy of a record with delegations marks
the record `CTDB_REC_RO_REVOKING_READONLY`, starts a revoke child and waits on
its handle (`ctdbRequestCall_starts_revoke`). Only the child's success path
takes the mark off: it stores `CTDB_REC_RO_REVOKE_COMPLETE`, which the next
call turns into a record without read-only flags. When some delegated node
does not acknowledge the update, or the child cannot switch to a client, the
child stores nothing (`ctdbRevokeAllDelegations_of_not_acked`), yet
`revokechild_handler` frees the handle all the same and its deferred calls
come back. A call for a record that carries the mark is deferred on a handle
for its key or is fatal (`ctdbRequestCall_of_revoking`), and there is no
handle left: the call that started the revoke ends the daemon with
"Failed to add deferred call for revoke child"
(`revokeRun_fatal_of_failed_revoke`).
-/

namespace Ctdb

open Lib

theorem clearStoreFlags_flags_and (header : LtdbHeader) {m : UInt32}
    (hv : CTDB_REC_FLAG_VACUUM_MIGRATED &&& m = 0) (ha : CTDB_REC_FLAG_AUTOMATIC &&& m = 0) :
    (clearStoreFlags header).flags &&& m = header.flags &&& m := by
  simp only [clearStoreFlags]
  rw [and_not_and_of_disjoint _ ha, and_not_and_of_disjoint _ hv]

/-- What a call that starts a revoke stores is marked as being revoked and not
yet revoked, whether or not the store cleared its own flags. -/
theorem revoking_stored {header stored : LtdbHeader}
    (hcomplete : header.flags &&& CTDB_REC_RO_REVOKE_COMPLETE = 0)
    (hs : stored = { header with flags := header.flags ||| CTDB_REC_RO_REVOKING_READONLY } ∨
      stored = clearStoreFlags { header with flags := header.flags ||| CTDB_REC_RO_REVOKING_READONLY }) :
    stored.flags &&& CTDB_REC_RO_REVOKING_READONLY ≠ 0 ∧ stored.flags &&& CTDB_REC_RO_REVOKE_COMPLETE = 0 := by
  have hflags : ∀ m, CTDB_REC_FLAG_VACUUM_MIGRATED &&& m = 0 → CTDB_REC_FLAG_AUTOMATIC &&& m = 0 →
      stored.flags &&& m = (header.flags ||| CTDB_REC_RO_REVOKING_READONLY) &&& m := by
    intro m hv ha
    rcases hs with rfl | rfl
    · rfl
    · exact clearStoreFlags_flags_and _ hv ha
  constructor
  · rw [hflags _ (by decide) (by decide), or_and_self]
    decide
  · rw [hflags _ (by decide) (by decide), or_and_of_disjoint _ (by decide), hcomplete]

section Node

variable (hash : TdbData → UInt32) (ctx : StoreCtx)

/-- A header with a read-only flag is stored as it is, but for the two flags
that only steer the store: no rsn bump and no delete. -/
theorem ctdbLtdbStore_of_ro (ltdb : Ltdb) (key : TdbData) (header : LtdbHeader) (data : TdbData)
    (hro : header.flags &&& CTDB_REC_RO_FLAGS ≠ 0) :
    (ctdbLtdbStore hash ctx ltdb key header data).ok = true ∧
      (ctdbLtdbStore hash ctx ltdb key header data).ltdb =
        tdbStore ltdb key ((ctdbLtdbStore hash ctx ltdb key header data).header, data) ∧
      ((ctdbLtdbStore hash ctx ltdb key header data).header = header ∨
        (ctdbLtdbStore hash ctx ltdb key header data).header = clearStoreFlags header) := by
  have hkeep : ∀ pnn lmaster persistent, storeKeep pnn lmaster persistent header data = (true, false) := by
    intro pnn lmaster persistent
    unfold storeKeep
    split_ifs <;> simp_all
  have hbump : ∀ pnn persistent, storeBump pnn persistent header = false := by
    intro pnn persistent
    simp [storeBump, hro]
  unfold ctdbLtdbStore
  split
  · exact ⟨rfl, rfl, Or.inl rfl⟩
  · refine ⟨?_, ?_, Or.inr ?_⟩ <;> unfold ctdbLtdbStoreServer <;> cases ctx.vnnMap <;>
      simp [hkeep, hbump, bumpedHeader]

/-- A call for a record that is being revoked is deferred on the first active
handle for its key, and without one the daemon dies. -/
theorem ctdbRequestCall_of_revoking (readonly : Bool) (start : RevokeStart) {db : RevokeDb}
    {c : ReqCall} {header : LtdbHeader} {data : TdbData}
    (hrec : tdbFetch db.ltdb c.key = some (header, data))
    (hrevoking : header.flags &&& CTDB_REC_RO_REVOKING_READONLY ≠ 0)
    (hcomplete : header.flags &&& CTDB_REC_RO_REVOKE_COMPLETE = 0) :
    ctdbRequestCall hash ctx readonly start db c =
      match ctdbAddRevokeDeferredCall db c with
      | none => .error "Failed to add deferred call for revoke child"
      | some db => .ok (.deferred, db) := by
  obtain ⟨ltdb, rottdb, active, requeued⟩ := db
  simp only [ctdbRequestCall, ctdbLtdbFetch_of_found hash ctx hrec, hcomplete, ne_eq, not_true_eq_false,
    ↓reduceIte, pure_bind, hrevoking, not_false_eq_true]
  cases ctdbAddRevokeDeferredCall ⟨ltdb, rottdb, active, requeued⟩ c <;> rfl

theorem ctdbAddRevokeDeferredCall_eq_none_iff {db : RevokeDb} {c : ReqCall} :
    ctdbAddRevokeDeferredCall db c = none ↔ ∀ rc ∈ db.revokechildActive, rc.key = c.key → rc.key = [] := by
  have hmatch : ctdbAddRevokeDeferredCall db c = none ↔
      db.revokechildActive.findIdx? (fun rc => rc.key != [] && rc.key == c.key) = none := by
    unfold ctdbAddRevokeDeferredCall
    split <;> simp_all
  rw [hmatch, List.findIdx?_eq_none_iff]
  refine forall₂_congr fun rc _ => ?_
  by_cases h : rc.key = [] <;> simp [h]

/-- A call with a nonempty key waits on a handle added for its key when no
earlier handle is for it. -/
theorem ctdbAddRevokeDeferredCall_append {ltdb : Ltdb} {rottdb : Tdb TdbData} {requeued : List ReqCall}
    {active : List RevokechildHandle} {c : ReqCall} {rc : RevokechildHandle}
    (hnone : ∀ x ∈ active, x.key ≠ c.key) (hkey : rc.key = c.key) (hne : c.key ≠ []) :
    ctdbAddRevokeDeferredCall ⟨ltdb, rottdb, active ++ [rc], requeued⟩ c =
      some ⟨ltdb, rottdb, active ++ [{ rc with deferred := rc.deferred ++ [c] }], requeued⟩ := by
  have hfind : active.findIdx? (fun rc => rc.key != [] && rc.key == c.key) = none := by
    rw [List.findIdx?_eq_none_iff]
    intro x hx
    simp [hnone x hx]
  simp [ctdbAddRevokeDeferredCall, hfind, hkey, hne, List.modify_eq_take_cons_drop]

/-- The exit of the child of the last handle, the only one for its key, frees
that handle and sends back the calls deferred on it. -/
theorem revokechildExit_append {ltdb : Ltdb} {rottdb : Tdb TdbData} {requeued : List ReqCall}
    {active : List RevokechildHandle} {rc : RevokechildHandle} (switchOk : Bool)
    (outcome : Nat → UpdateRecordOutcome) (hnone : ∀ x ∈ active, x.key ≠ rc.key) :
    revokechildExit hash ctx ⟨ltdb, rottdb, active ++ [rc], requeued⟩ rc.key switchOk outcome =
      ⟨if switchOk then (ctdbRevokeAllDelegations hash ctx ltdb rc.tdata rc.key rc.header outcome).2 else ltdb,
        rottdb, active, requeued ++ rc.deferred⟩ := by
  have hfind : active.find? (fun x => x.key == rc.key) = none := by
    simpa using hnone
  have hmem : rc ∉ active := fun h => hnone rc h rfl
  simp [revokechildExit, hfind, List.erase_append_right _ hmem]

/-- A call that does not want a read-only copy of a record with delegations,
which nothing revokes yet, marks the record as being revoked, starts a revoke
child and waits on its handle. -/
theorem ctdbRequestCall_starts_revoke {readonly : Bool} {db : RevokeDb} {c : ReqCall}
    {header : LtdbHeader} {data : TdbData} (hrec : tdbFetch db.ltdb c.key = some (header, data))
    (hcomplete : header.flags &&& CTDB_REC_RO_REVOKE_COMPLETE = 0)
    (hrevoking : header.flags &&& CTDB_REC_RO_REVOKING_READONLY = 0)
    (hmaster : header.dmaster = ctx.pnn ∨ header.flags &&& CTDB_REC_RO_HAVE_DELEGATIONS ≠ 0)
    (hwant : c.flags &&& CTDB_WANT_READONLY = 0 ∨ readonly = false)
    (hro : header.flags &&& (CTDB_REC_RO_HAVE_DELEGATIONS ||| CTDB_REC_RO_HAVE_READONLY) ≠ 0)
    (hfree : ∀ rc ∈ db.revokechildActive, rc.key ≠ c.key) (hkey : c.key ≠ []) :
    ∃ stored rc, ctdbRequestCall hash ctx readonly .ok db c =
        .ok (.deferred, { db with
          ltdb := tdbStore db.ltdb c.key (stored, data)
          revokechildActive := db.revokechildActive ++ [rc] }) ∧
      stored.flags &&& CTDB_REC_RO_REVOKING_READONLY ≠ 0 ∧ stored.flags &&& CTDB_REC_RO_REVOKE_COMPLETE = 0 ∧
      rc.key = c.key ∧ rc.tdata = (tdbFetch db.rottdb c.key).getD [] ∧ rc.deferred = [c] := by
  have hnr : ¬ (header.dmaster ≠ ctx.pnn ∧ header.flags &&& CTDB_REC_RO_HAVE_DELEGATIONS = 0) := by
    tauto
  have hw : (!(decide (c.flags &&& CTDB_WANT_READONLY ≠ 0) && readonly)) = true := by
    rcases hwant with h | h <;> simp [h]
  obtain ⟨ltdb, rottdb, active, requeued⟩ := db
  obtain ⟨hok, hltdb, hstored⟩ := ctdbLtdbStore_of_ro hash ctx ltdb c.key
    { header with flags := header.flags ||| CTDB_REC_RO_REVOKING_READONLY } data (or_and_ne_zero _ (by decide))
  simp only [ctdbRequestCall, ctdbLtdbFetch_of_found hash ctx hrec, hcomplete, hrevoking, hnr, hw, hro, hok,
    ne_eq, not_true_eq_false, not_false_eq_true, ↓reduceIte, pure_bind, true_and, Bool.not_true, Bool.false_eq_true,
    ctdbStartRevokeRoRecord]
  rw [ctdbAddRevokeDeferredCall_append hfree rfl hkey]
  obtain ⟨hR, hC⟩ := revoking_stored hcomplete hstored
  refine ⟨_, ?rc, ?_, hR, hC, ?_, ?_, ?_⟩
  swap
  · rw [← hltdb]
    rfl
  all_goals rfl

/-- Unless every node of the tracking record acknowledged the update, the
revoke child fails and leaves the records as they were. -/
theorem ctdbRevokeAllDelegations_of_not_acked {ltdb : Ltdb} {tdata key : TdbData} {header : LtdbHeader}
    {outcome : Nat → UpdateRecordOutcome}
    (h : ¬ (ctdbTrackingdbTraverse tdata ≠ [] ∧ ∀ pnn ∈ ctdbTrackingdbTraverse tdata, outcome pnn = .acked)) :
    ctdbRevokeAllDelegations hash ctx ltdb tdata key header outcome = (-1, ltdb) := by
  rw [ctdbRevokeAllDelegations, if_pos h]

/-- A call that starts a revoke which then fails ends the daemon when it is
processed again: the record keeps `CTDB_REC_RO_REVOKING_READONLY`, and the
only handle that call could wait on has been freed. -/
theorem revokeRun_fatal_of_failed_revoke {readonly switchOk : Bool} {start : RevokeStart}
    {outcome : Nat → UpdateRecordOutcome} {db : RevokeDb} {c : ReqCall} {header : LtdbHeader}
    {data : TdbData} (hrec : tdbFetch db.ltdb c.key = some (header, data))
    (hcomplete : header.flags &&& CTDB_REC_RO_REVOKE_COMPLETE = 0)
    (hrevoking : header.flags &&& CTDB_REC_RO_REVOKING_READONLY = 0)
    (hmaster : header.dmaster = ctx.pnn ∨ header.flags &&& CTDB_REC_RO_HAVE_DELEGATIONS ≠ 0)
    (hwant : c.flags &&& CTDB_WANT_READONLY = 0 ∨ readonly = false)
    (hro : header.flags &&& (CTDB_REC_RO_HAVE_DELEGATIONS ||| CTDB_REC_RO_HAVE_READONLY) ≠ 0)
    (hfree : ∀ rc ∈ db.revokechildActive, rc.key ≠ c.key) (hkey : c.key ≠ []) (hreq : db.requeued = [])
    (hfail : ¬ (switchOk = true ∧ ctdbTrackingdbTraverse ((tdbFetch db.rottdb c.key).getD []) ≠ [] ∧
      ∀ pnn ∈ ctdbTrackingdbTraverse ((tdbFetch db.rottdb c.key).getD []), outcome pnn = .acked)) :
    revokeRun hash ctx readonly db [.call c .ok, .revokechildExit c.key switchOk outcome, .requeue start] =
      .error "Failed to add deferred call for revoke child" := by
  obtain ⟨stored, rc, hcall, hR, hC, hrk, hrt, hrd⟩ :=
    ctdbRequestCall_starts_revoke hash ctx hrec hcomplete hrevoking hmaster hwant hro hfree hkey
  obtain ⟨ltdb, rottdb, active, requeued⟩ := db
  dsimp only at hreq hfree hfail hcall hrt
  subst hreq
  set ltdb' := tdbStore ltdb c.key (stored, data)
  -- the child stores nothing: it never switched, or some node did not acknowledge
  have hchild : (if switchOk then (ctdbRevokeAllDelegations hash ctx ltdb' rc.tdata c.key rc.header outcome).2
      else ltdb') = ltdb' := by
    cases switchOk
    · rfl
    · rw [if_pos rfl, ctdbRevokeAllDelegations_of_not_acked hash ctx (by simpa [hrt] using hfail)]
  have hexit : revokechildExit hash ctx ⟨ltdb', rottdb, active ++ [rc], []⟩ c.key switchOk outcome =
      ⟨ltdb', rottdb, active, [c]⟩ := by
    rw [← hrk, revokechildExit_append hash ctx switchOk outcome (hrk ▸ hfree), hrk, hchild, hrd, List.nil_append]
  have hnone : ctdbAddRevokeDeferredCall ⟨ltdb', rottdb, active, []⟩ c = none :=
    ctdbAddRevokeDeferredCall_eq_none_iff.mpr fun x hx hx' => absurd hx' (hfree x hx)
  have hagain : ctdbRequestCall hash ctx readonly start ⟨ltdb', rottdb, active, []⟩ c =
      .error "Failed to add deferred call for revoke child" := by
    rw [ctdbRequestCall_of_revoking hash ctx readonly start (tdbFetch_tdbStore _ _ _) hR hC, hnone]
  have hcall' : ctdbRequestCall hash ctx readonly .ok ⟨ltdb, rottdb, active, []⟩ c =
      pure (.deferred, ⟨ltdb', rottdb, active ++ [rc], []⟩) := hcall
  simp only [revokeRun, revokeStep, hcall', pure_bind, hexit]
  rw [hagain]
  rfl

end Node

theorem revokeRun_fatal_no_reply :
    revokeRun (fun _ => 0) ⟨0, false, some [0, 1]⟩ true
      ⟨tdbStore ∅ [7] (⟨10, 0, CTDB_REC_RO_HAVE_DELEGATIONS⟩, [1]), tdbStore ∅ [7] [2], [], []⟩
      [.call ⟨[7], 0, 0, 1⟩ .ok, .revokechildExit [7] true fun _ => .noReply, .requeue .ok] =
      .error "Failed to add deferred call for revoke child" :=
  revokeRun_fatal_of_failed_revoke (fun _ => 0) ⟨0, false, some [0, 1]⟩ (tdbFetch_tdbStore _ _ _)
    (by decide) (by decide) (Or.inl rfl) (Or.inl (by decide)) (by decide) (by simp) (by simp) rfl
    (by simp only [tdbFetch_tdbStore, Option.getD_some]; decide)

end Ctdb

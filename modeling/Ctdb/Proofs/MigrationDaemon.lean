import Ctdb.Proofs.MigrationStore

/-!
# What each handler does to the record it is about

In a database whose copies have clean flags, none of the read-only branches
of `ctdb_request_call` or `daemon_request_call_from_client` is taken, and
each handler comes down to one of a few outcomes, decided by what the daemon
reads (`daemonView`): a daemon that does not find itself the dmaster sends
the request on and changes no record; the dmaster answers a call from
itself by writing the record back, one rsn higher, or hands the record to
the caller. The lemmas below compute each outcome once, so that the proofs
about the cluster never unfold a handler.
-/

namespace Ctdb.Migration

open Lib

section Handlers

variable {hash : TdbData → UInt32} {vnnMap : List UInt32} {pnn : UInt32} {d : CtdbDaemon} {key : TdbData}

theorem daemonView_ro (hclean : ∀ hd dt, tdbFetch d.ltdb key = some (hd, dt) → CleanFlags hd.flags) :
    (daemonView hash vnnMap d.ltdb key).1.flags &&& CTDB_REC_RO_FLAGS = 0 := by
  unfold daemonView
  cases hf : tdbFetch d.ltdb key with
  | some r => exact (hclean r.1 r.2 hf).ro
  | none => simp only [Option.getD_none, ltdbInitialHeader]; decide

theorem revoking_of_ro {f : UInt32} (h : f &&& CTDB_REC_RO_FLAGS = 0) :
    f &&& (CTDB_REC_RO_REVOKE_COMPLETE ||| CTDB_REC_RO_REVOKING_READONLY) = 0 :=
  and_eq_zero_of_submask h (by decide)

theorem delegations_of_ro {f : UInt32} (h : f &&& CTDB_REC_RO_FLAGS = 0) :
    f &&& (CTDB_REC_RO_HAVE_DELEGATIONS ||| CTDB_REC_RO_HAVE_READONLY) = 0 :=
  and_eq_zero_of_submask h (by decide)

theorem haveDelegations_of_ro {f : UInt32} (h : f &&& CTDB_REC_RO_FLAGS = 0) :
    f &&& CTDB_REC_RO_HAVE_DELEGATIONS = 0 :=
  and_eq_zero_of_submask h (by decide)

/-! ## `ctdb_call_local` on the dmaster -/

/-- The dmaster's local call writes the record back one rsn higher. -/
theorem tdbFetch_ctdbCallLocal {ltdb : Ltdb} {callid : UInt32} {hd : LtdbHeader} {dt : TdbData}
    (hclean : CleanFlags hd.flags) (hdm : hd.dmaster = pnn) (k : TdbData) :
    tdbFetch (ctdbCallLocal hash vnnMap pnn ltdb key callid hd dt) k =
      if builtinCall callid ∧ k = key then some ({ hd with rsn := hd.rsn + 1 }, dt) else tdbFetch ltdb k := by
  unfold ctdbCallLocal
  by_cases hb : builtinCall callid = true
  · rw [if_pos hb, tdbFetch_daemonStore, daemonKeeps_of_dmaster hclean hdm, daemonStored_of_dmaster hclean hdm]
    by_cases hk : k = key <;> simp [hb, hk]
  · rw [if_neg hb]
    simp [hb]

/-! ## `daemon_request_call_from_client` -/

variable {callid flags reqid : UInt32}

theorem daemonRequestCallFromClient_of_not_holder
    (hclean : ∀ hd dt, tdbFetch d.ltdb key = some (hd, dt) → CleanFlags hd.flags)
    (hv : (daemonView hash vnnMap d.ltdb key).1.dmaster ≠ pnn) :
    daemonRequestCallFromClient hash vnnMap pnn d key callid flags reqid =
      ({ d with pendingCalls := d.pendingCalls ++ [⟨reqid, key, callid, flags &&& ~~~CTDB_WANT_READONLY⟩] },
        [.reqCall ⟨⟨pnn, (daemonView hash vnnMap d.ltdb key).1.dmaster, reqid⟩,
          flags &&& ~~~CTDB_WANT_READONLY, callid, 0, key⟩]) := by
  have hro : (daemonView hash vnnMap d.ltdb key).1.flags &&& CTDB_REC_RO_FLAGS = 0 := daemonView_ro hclean
  unfold daemonRequestCallFromClient
  rw [ctdbLtdbFetch_of_not_holder hv]
  simp only [revoking_of_ro hro, delegations_of_ro hro, hv, ne_eq, not_true_eq_false, false_and, if_false]

theorem daemonRequestCallFromClient_of_holder
    (hclean : ∀ hd dt, tdbFetch d.ltdb key = some (hd, dt) → CleanFlags hd.flags)
    (hv : (daemonView hash vnnMap d.ltdb key).1.dmaster = pnn) :
    ∃ ltdb' hd, HolderRead hash vnnMap pnn d.ltdb key ltdb' hd ∧
      daemonRequestCallFromClient hash vnnMap pnn d key callid flags reqid =
        ({ d with ltdb := ctdbCallLocal hash vnnMap pnn ltdb' key callid hd (daemonView hash vnnMap d.ltdb key).2 },
          []) := by
  obtain ⟨ltdb', hd, hfetch, hr⟩ := ctdbLtdbFetch_of_holder hv hclean
  refine ⟨ltdb', hd, hr, ?_⟩
  unfold daemonRequestCallFromClient
  rw [hfetch]
  simp only [revoking_of_ro hr.clean.ro, delegations_of_ro hr.clean.ro, hr.dmaster, ne_eq, not_true_eq_false,
    and_false, if_false, if_true]

/-! ## Handing the record on -/

/-- The header `ctdb_call_send_dmaster` sends: marked as migrated with data when
there is data. -/
def withDataFlag (hd : LtdbHeader) (dt : TdbData) : LtdbHeader :=
  if dt ≠ [] then { hd with flags := hd.flags ||| CTDB_REC_FLAG_MIGRATED_WITH_DATA } else hd

section WithDataFlag

variable {hd : LtdbHeader} {dt : TdbData}

@[simp] theorem withDataFlag_rsn : (withDataFlag hd dt).rsn = hd.rsn := by
  unfold withDataFlag
  split <;> rfl

@[simp] theorem withDataFlag_dmaster : (withDataFlag hd dt).dmaster = hd.dmaster := by
  unfold withDataFlag
  split <;> rfl

theorem withDataFlag_clean (h : CleanFlags hd.flags) : CleanFlags (withDataFlag hd dt).flags := by
  unfold withDataFlag
  split
  · exact h.or_migrated
  · exact h

theorem withDataFlag_migrated_of_ne_nil (h : dt ≠ []) :
    (withDataFlag hd dt).flags &&& CTDB_REC_FLAG_MIGRATED_WITH_DATA ≠ 0 := by
  rw [withDataFlag, if_pos h, or_and_self]
  decide

theorem withDataFlag_migrated (h : hd.flags &&& CTDB_REC_FLAG_MIGRATED_WITH_DATA ≠ 0) :
    (withDataFlag hd dt).flags &&& CTDB_REC_FLAG_MIGRATED_WITH_DATA ≠ 0 := by
  unfold withDataFlag
  split
  · rw [or_and_self]
    decide
  · exact h

end WithDataFlag

/-- `ctdb_send_dmaster_reply` on the lmaster: its copy names the new dmaster,
and the reply carries the record as it was. -/
theorem ctdbSendDmasterReply_of_lmaster {ltdb : Ltdb} {hd : LtdbHeader} {dt : TdbData} {newDmaster reqid : UInt32}
    (hL : ctdbLmaster hash vnnMap key = pnn) (hclean : CleanFlags hd.flags) (hne : newDmaster ≠ pnn) :
    ctdbSendDmasterReply hash vnnMap pnn ltdb hd key dt newDmaster reqid =
      .ok (tdbStore ltdb key (⟨hd.rsn, newDmaster, hd.flags⟩, dt),
        [.replyDmaster ⟨⟨pnn, newDmaster, reqid⟩, hd.rsn, key, dt, hd.flags⟩]) := by
  have hk : daemonKeeps hash vnnMap pnn key ⟨hd.rsn, newDmaster, hd.flags⟩ dt = true :=
    daemonKeeps_of_lmaster hL hclean.vacuum
  have hs : daemonStored pnn ⟨hd.rsn, newDmaster, hd.flags⟩ = ⟨hd.rsn, newDmaster, hd.flags⟩ :=
    daemonStored_of_ne_dmaster hclean hne
  obtain ⟨hl, hok, hh⟩ := daemonStore_of_keeps ltdb key _ dt hk
  unfold ctdbSendDmasterReply
  rw [if_neg (not_not.mpr hL.symm)]
  simp only [hl, hok, hh, hs, Bool.not_true, Bool.false_eq_true, if_false]

variable {c : ReqCallPkt} {ltdb : Ltdb} {hd : LtdbHeader} {dt : TdbData}

/-- The lmaster as dmaster skips the middle hop. -/
theorem ctdbCallSendDmaster_of_lmaster (hL : ctdbLmaster hash vnnMap c.key = pnn) (hclean : CleanFlags hd.flags)
    (hsrc : c.hdr.srcnode ≠ pnn) :
    ctdbCallSendDmaster hash vnnMap pnn ltdb c hd dt =
      .ok (tdbStore ltdb c.key (⟨hd.rsn, c.hdr.srcnode, (withDataFlag hd dt).flags⟩, dt),
        [.replyDmaster
          ⟨⟨pnn, c.hdr.srcnode, c.hdr.reqid⟩, hd.rsn, c.key, dt, (withDataFlag hd dt).flags⟩]) := by
  have h : ctdbSendDmasterReply hash vnnMap pnn ltdb (withDataFlag hd dt) c.key dt c.hdr.srcnode c.hdr.reqid = _ :=
    ctdbSendDmasterReply_of_lmaster hL (withDataFlag_clean hclean) hsrc
  rw [withDataFlag_rsn] at h
  unfold ctdbCallSendDmaster
  simp only [hL, if_true]
  exact h

/-- Another dmaster keeps its copy, naming the caller, only when the record was
ever migrated with data, and sends the record to the lmaster. -/
theorem ctdbCallSendDmaster_of_not_lmaster (hL : ctdbLmaster hash vnnMap c.key ≠ pnn)
    (hclean : CleanFlags hd.flags) (hsrc : c.hdr.srcnode ≠ pnn) (hfound : (tdbFetch ltdb c.key).isSome) :
    ∃ ltdb', ctdbCallSendDmaster hash vnnMap pnn ltdb c hd dt =
        .ok (ltdb', [.reqDmaster ⟨⟨pnn, ctdbLmaster hash vnnMap c.key, c.hdr.reqid⟩, hd.rsn, c.hdr.srcnode, c.key,
          dt, (withDataFlag hd dt).flags⟩]) ∧
      ∀ k, tdbFetch ltdb' k = if k = c.key then
          (if (withDataFlag hd dt).flags &&& CTDB_REC_FLAG_MIGRATED_WITH_DATA ≠ 0 then
            some (⟨hd.rsn, c.hdr.srcnode, (withDataFlag hd dt).flags⟩, dt) else none)
        else tdbFetch ltdb k := by
  have hcl : CleanFlags (withDataFlag hd dt).flags := withDataFlag_clean hclean
  have hs : daemonStored pnn ⟨hd.rsn, c.hdr.srcnode, (withDataFlag hd dt).flags⟩ =
      ⟨hd.rsn, c.hdr.srcnode, (withDataFlag hd dt).flags⟩ := daemonStored_of_ne_dmaster hcl hsrc
  have hk : daemonKeeps hash vnnMap pnn c.key ⟨hd.rsn, c.hdr.srcnode, (withDataFlag hd dt).flags⟩ dt =
      decide ((withDataFlag hd dt).flags &&& CTDB_REC_FLAG_MIGRATED_WITH_DATA ≠ 0) := by
    by_cases hm : (withDataFlag hd dt).flags &&& CTDB_REC_FLAG_MIGRATED_WITH_DATA ≠ 0
    · rw [@daemonKeeps_of_migrated hash vnnMap pnn c.key ⟨hd.rsn, c.hdr.srcnode, _⟩ dt hm, decide_eq_true hm]
    · have hdt : dt = [] := by
        by_contra hne
        exact hm (withDataFlag_migrated_of_ne_nil hne)
      rw [@daemonKeeps_eq_false hash vnnMap pnn c.key ⟨hd.rsn, c.hdr.srcnode, _⟩ dt hL hsrc hcl hdt
        (not_not.mp hm), decide_eq_false hm]
  have hw : (if dt ≠ [] then { hd with flags := hd.flags ||| CTDB_REC_FLAG_MIGRATED_WITH_DATA } else hd) =
      withDataFlag hd dt := rfl
  refine ⟨(ctdbLtdbStore hash (daemonCtx vnnMap pnn) ltdb c.key
    ⟨hd.rsn, c.hdr.srcnode, (withDataFlag hd dt).flags⟩ dt).ltdb, ?_, ?_⟩
  · unfold ctdbCallSendDmaster
    simp only [hL, if_false, hw, withDataFlag_rsn, daemonStore_ok, hfound, Bool.or_true, Bool.not_true,
      Bool.false_eq_true]
  · intro k
    rw [tdbFetch_daemonStore, hk, hs]
    by_cases hm : (withDataFlag hd dt).flags &&& CTDB_REC_FLAG_MIGRATED_WITH_DATA ≠ 0 <;> simp [hm]

/-! ## `ctdb_request_call` -/

theorem ctdbRequestCall_of_not_holder
    (hclean : ∀ hd dt, tdbFetch d.ltdb c.key = some (hd, dt) → CleanFlags hd.flags)
    (hv : (daemonView hash vnnMap d.ltdb c.key).1.dmaster ≠ pnn) :
    ctdbRequestCall hash vnnMap pnn d c =
      .ok (d, [.reqCall (ctdbCallSendRedirect hash vnnMap pnn c (daemonView hash vnnMap d.ltdb c.key).1)]) := by
  have hro : (daemonView hash vnnMap d.ltdb c.key).1.flags &&& CTDB_REC_RO_FLAGS = 0 := daemonView_ro hclean
  unfold ctdbRequestCall
  rw [ctdbLtdbFetch_of_not_holder hv]
  simp only [revoking_of_ro hro, ne_eq, not_true_eq_false, if_false]
  rw [if_pos ⟨hv, haveDelegations_of_ro hro⟩]

theorem ctdbRequestCall_of_holder
    (hclean : ∀ hd dt, tdbFetch d.ltdb c.key = some (hd, dt) → CleanFlags hd.flags)
    (hv : (daemonView hash vnnMap d.ltdb c.key).1.dmaster = pnn) :
    ∃ ltdb' hd, HolderRead hash vnnMap pnn d.ltdb c.key ltdb' hd ∧
      ctdbRequestCall hash vnnMap pnn d c =
        if c.hdr.srcnode ≠ pnn then
          (ctdbCallSendDmaster hash vnnMap pnn ltdb' c hd (daemonView hash vnnMap d.ltdb c.key).2).map
            fun (ltdb, pkts) => ({ d with ltdb }, pkts)
        else
          .ok ({ d with
            ltdb := ctdbCallLocal hash vnnMap pnn ltdb' c.key c.callid hd (daemonView hash vnnMap d.ltdb c.key).2 },
            []) := by
  obtain ⟨ltdb', hd, hfetch, hr⟩ := ctdbLtdbFetch_of_holder hv hclean
  refine ⟨ltdb', hd, hr, ?_⟩
  unfold ctdbRequestCall
  rw [hfetch]
  simp only [revoking_of_ro hr.clean.ro, delegations_of_ro hr.clean.ro, hr.dmaster, ne_eq, not_true_eq_false,
    false_and, if_false]

/-! ## Becoming the dmaster -/

section Become

variable (hash vnnMap pnn)

/-- What `ctdb_become_dmaster` leaves under the key: the record naming the
daemon, one rsn higher than it came, or two when the call waiting for it is run
on it; or, after a vacuum migration of an empty record to the lmaster, no
record. -/
def BecameDmaster (l : Ltdb) (key data : TdbData) (rsn : UInt64) (f : UInt32) : Prop :=
  (∃ r, tdbFetch l key = some (⟨r, pnn, f⟩, data) ∧ (r = rsn + 1 ∨ r = rsn + 2)) ∨
    (tdbFetch l key = none ∧ ctdbLmaster hash vnnMap key = pnn ∧ data = [] ∧
      f &&& CTDB_REC_FLAG_MIGRATED_WITH_DATA = 0)

variable {hash vnnMap pnn} {reqid : UInt32} {data : TdbData} {rsn : UInt64} {f : UInt32}

/-- The store of `ctdb_become_dmaster` leaves `BecameDmaster`, and so does the
call it then runs on what it stored. -/
theorem becameDmaster_of_store {r : StoreResult} (hf : CleanFlags f)
    (h : (r.header = ⟨rsn + 1, pnn, f⟩ ∧ tdbFetch r.ltdb key = some (⟨rsn + 1, pnn, f⟩, data)) ∨
      (r.header = ⟨rsn, pnn, f⟩ ∧ tdbFetch r.ltdb key = none ∧ ctdbLmaster hash vnnMap key = pnn ∧
        data = [] ∧ f &&& CTDB_REC_FLAG_MIGRATED_WITH_DATA = 0)) :
    BecameDmaster hash vnnMap pnn r.ltdb key data rsn f ∧
      ∀ callid, BecameDmaster hash vnnMap pnn (ctdbCallLocal hash vnnMap pnn r.ltdb key callid r.header data) key
          data rsn f ∧
        ∀ k, k ≠ key →
          tdbFetch (ctdbCallLocal hash vnnMap pnn r.ltdb key callid r.header data) k = tdbFetch r.ltdb k := by
  have hhd : r.header.dmaster = pnn ∧ CleanFlags r.header.flags := by
    rcases h with ⟨hh, -⟩ | ⟨hh, -⟩ <;> exact hh ▸ ⟨rfl, hf⟩
  have hlocal : ∀ callid k, tdbFetch (ctdbCallLocal hash vnnMap pnn r.ltdb key callid r.header data) k =
      if builtinCall callid ∧ k = key then some ({ r.header with rsn := r.header.rsn + 1 }, data)
      else tdbFetch r.ltdb k :=
    fun _ => tdbFetch_ctdbCallLocal hhd.2 hhd.1
  refine ⟨?_, fun callid => ⟨?_, fun k hk => by rw [hlocal callid k]; simp [hk]⟩⟩
  · rcases h with ⟨-, hr⟩ | ⟨-, hr, hL, hdata, hm⟩
    · exact Or.inl ⟨_, hr, Or.inl rfl⟩
    · exact Or.inr ⟨hr, hL, hdata, hm⟩
  · rw [BecameDmaster, hlocal callid key]
    by_cases hb : builtinCall callid = true
    · rw [if_pos ⟨hb, rfl⟩]
      rcases h with ⟨hh, -⟩ | ⟨hh, -⟩
      · -- the call bumps the stored record once more
        refine Or.inl ⟨rsn + 1 + 1, by rw [hh], Or.inr ?_⟩
        rw [UInt64.add_assoc]
        rfl
      · -- the call recreates the record the store dropped
        exact Or.inl ⟨rsn + 1, by rw [hh], Or.inl rfl⟩
    · rw [if_neg (fun h => hb h.1)]
      rcases h with ⟨-, hr⟩ | ⟨-, hr, hL, hdata, hm⟩
      · exact Or.inl ⟨_, hr, Or.inl rfl⟩
      · exact Or.inr ⟨hr, hL, hdata, hm⟩

/-- `ctdb_become_dmaster` with clean record flags does not fail where the record
it may drop is there, keeps the recovery mode and changes no other record. -/
theorem ctdbBecomeDmaster_spec (hf : CleanFlags f)
    (hexists : ctdbLmaster hash vnnMap key = pnn → (tdbFetch d.ltdb key).isSome) :
    ∃ d', ctdbBecomeDmaster hash vnnMap pnn d reqid key data rsn f = .ok d' ∧
      d'.recoveryMode = d.recoveryMode ∧ (∀ k, k ≠ key → tdbFetch d'.ltdb k = tdbFetch d.ltdb k) ∧
      BecameDmaster hash vnnMap pnn d'.ltdb key data rsn f := by
  unfold ctdbBecomeDmaster
  generalize d.pendingCalls.find? (·.reqid == reqid) = state
  cases state with
  | none =>
      obtain ⟨hok, hframe, hcases⟩ :=
        @daemonStore_become hash vnnMap pnn key data d.ltdb f f rsn hf (Or.inl rfl) hexists
      dsimp only
      rw [hok, Bool.not_true, if_neg Bool.false_ne_true]
      exact ⟨_, rfl, rfl, hframe, (becameDmaster_of_store hf hcases).1⟩
  | some st =>
      -- the header is stored with the vacuum-migrated mark when the call asked for it
      obtain ⟨vf, hvf, hH⟩ : ∃ vf, (vf = f ∨ vf = f ||| CTDB_REC_FLAG_VACUUM_MIGRATED) ∧
          (if st.flags &&& CTDB_CALL_FLAG_VACUUM_MIGRATION ≠ 0 then
            (⟨rsn, pnn, f ||| CTDB_REC_FLAG_VACUUM_MIGRATED⟩ : LtdbHeader) else ⟨rsn, pnn, f⟩) =
            ⟨rsn, pnn, vf⟩ := by
        split
        · exact ⟨_, Or.inr rfl, rfl⟩
        · exact ⟨_, Or.inl rfl, rfl⟩
      obtain ⟨hok, hframe, hcases⟩ := @daemonStore_become hash vnnMap pnn key data d.ltdb f vf rsn hf hvf hexists
      have hout := becameDmaster_of_store hf hcases
      dsimp only
      simp only [hH, hok, Bool.not_true, Bool.false_eq_true, if_false]
      by_cases hk : key = st.key
      · rw [if_neg (not_not.mpr hk), ← hk]
        refine ⟨_, rfl, rfl, fun k hne => ?_, (hout.2 st.callid).1⟩
        rw [(hout.2 st.callid).2 k hne, hframe k hne]
      · rw [if_pos hk]
        exact ⟨_, rfl, rfl, hframe, hout.1⟩

/-- `ctdb_request_dmaster` on the lmaster, from the node its copy names: the
lmaster becomes the dmaster itself, or stores its copy naming the new dmaster
and sends that node the record. -/
theorem ctdbRequestDmaster_of_lmaster {c : ReqDmasterPkt} (hL : ctdbLmaster hash vnnMap c.key = pnn)
    (hv : (daemonView hash vnnMap d.ltdb c.key).1.dmaster = c.hdr.srcnode) (hsrc : c.hdr.srcnode ≠ pnn)
    (hclean : CleanFlags c.recordFlags) :
    ctdbRequestDmaster hash vnnMap pnn d c =
      if c.dmaster = pnn then
        (ctdbBecomeDmaster hash vnnMap pnn d c.hdr.reqid c.key c.data c.rsn c.recordFlags).map (·, [])
      else .ok ({ d with ltdb := tdbStore d.ltdb c.key (⟨c.rsn, c.dmaster, c.recordFlags⟩, c.data) },
        [.replyDmaster ⟨⟨pnn, c.dmaster, c.hdr.reqid⟩, c.rsn, c.key, c.data, c.recordFlags⟩]) := by
  unfold ctdbRequestDmaster
  rw [ctdbLtdbFetch_of_not_holder (hv ▸ hsrc)]
  -- the copy names the sender, so no recovery is forced
  simp only [hL, hv, ne_eq, not_true_eq_false, false_and, if_false]
  split_ifs with hd
  · rfl
  · rw [ctdbSendDmasterReply_of_lmaster hL hclean hd]
    rfl

end Become

/-! ## A client's write -/

theorem ctdbRecordStore_of_found {data : TdbData} {hd : LtdbHeader} {dt : TdbData}
    (h : tdbFetch d.ltdb key = some (hd, dt)) :
    ctdbRecordStore hash pnn d key data =
      if hd.dmaster = pnn then { d with ltdb := tdbStore d.ltdb key (hd, data) } else d := by
  simp only [ctdbRecordStore, ctdbLtdbFetch_of_found hash _ h]

theorem ctdbRecordStore_of_missing {data : TdbData} (h : tdbFetch d.ltdb key = none) :
    ctdbRecordStore hash pnn d key data = d := by
  simp only [ctdbRecordStore, ctdbLtdbFetch, h]

end Handlers

end Ctdb.Migration

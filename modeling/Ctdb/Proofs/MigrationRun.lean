import Ctdb.Proofs.Migration
import Ctdb.Proofs.MigrationDaemon

/-!
# Every run of the call protocol

A run starts from freshly attached daemons and goes through client calls,
client writes and deliveries of packets in any order. `callStep_spec` says
what one event does when `DmasterInv` holds for every record: the step does
not fail, it changes the copies and the packets of the event's record only,
and there it keeps the invariant with the token where it was or one hop
further (`Place.Move`, with the lmaster as home), at most two rsn higher,
and carrying the data it carried unless a client wrote the record at its
dmaster. Each kind of event has its own lemma, and each of those reduces to
one of the token's hops of Migration.lean and the handler lemmas of
MigrationDaemon.lean.

`CallInv` adds the bound on the rsn after `n` events and that no daemon is
in recovery, and `Lib.foldlM_simulation` carries it along a run of at most
`2 ^ 62` events, where no rsn comes near the top of its 64 bits.
-/

namespace Ctdb.Migration

open Lib Relation

/-! ## Events and packets -/

/-- The record an event is about. -/
def CallEvent.key : CallEvent → TdbData
  | .clientCall _ key _ _ _ => key
  | .recordStore _ key _ => key
  | .deliver pkt => pkt.key

section Written

variable (s : CtdbCluster)

/-- The data a client's write puts in the record: it takes effect only at a
daemon whose copy names itself. -/
def CallEvent.written : CallEvent → Option TdbData
  | .recordStore p key v =>
      match s.copy p key with
      | some (hd, _) => if hd.dmaster = p then some v else none
      | none => none
  | _ => none

end Written

theorem carries_eq_false_of_key_ne {x : CallPkt} {k : TdbData} (h : x.key ≠ k) : x.carries k = false := by
  cases x with
  | reqCall c => rfl
  | reqDmaster c => simpa [CallPkt.carries, CallPkt.key] using h
  | replyDmaster c => simpa [CallPkt.carries, CallPkt.key] using h

theorem filter_erase_of_false {α : Type} [DecidableEq α] {f : α → Bool} {a : α} (l : List α) (h : f a = false) :
    (l.erase a).filter f = l.filter f := by
  rw [← List.erase_filter, List.erase_of_not_mem]
  intro hmem
  rw [(List.mem_filter.mp hmem).2] at h
  cases h

theorem toNat_add_of_lt {a b : UInt64} (h : a.toNat + b.toNat < 2 ^ 64) : (a + b).toNat = a.toNat + b.toNat := by
  rw [UInt64.toNat_add, Nat.mod_eq_of_lt h]

/-- One or two added to an rsn below `2 ^ 63` neither wraps nor stays put. -/
theorem bump_lt {a r : UInt64} (ha : a.toNat < 2 ^ 63) (hr : r = a + 1 ∨ r = a + 2) :
    a < r ∧ r.toNat ≤ a.toNat + 2 := by
  rw [UInt64.lt_iff_toNat_lt]
  rcases hr with rfl | rfl
  · rw [toNat_add_of_lt (by simp; omega)]
    simp
  · rw [toNat_add_of_lt (by simp; omega)]
    simp

/-! ## What one event does -/

section Event

variable (hash : TdbData → UInt32) (vnnMap : List UInt32)

/-- What an event does to the cluster, seen from the record of `key` it is
about: nothing at any other key; at `key`, the invariant with the token where
it was or one hop further, at most two rsn higher; and no daemon in recovery. -/
structure EventSpec (s s' : CtdbCluster) (key : TdbData) (t t' : DmasterToken) : Prop where
  frame : ∀ k, k ≠ key → (∀ q, s'.copy q k = s.copy q k) ∧
    s'.inflight.filter (CallPkt.carries k) = s.inflight.filter (CallPkt.carries k)
  inv : DmasterInv hash vnnMap s' key t'
  move : t' = t ∨ Place.Move (ctdbLmaster hash vnnMap key) t.place t'.place
  rsn : (t'.rsn hash vnnMap s' key).toNat ≤ (t.rsn hash vnnMap s key).toNat + 2
  normal : ∀ d ∈ s'.daemons, d.recoveryMode = .normal

variable {hash vnnMap} {s s' : CtdbCluster} {key : TdbData} {t : DmasterToken}

/-- An event that changes no copy and no packet of any record leaves the token
and its data. -/
theorem EventSpec.of_copies (h : DmasterInv hash vnnMap s key t) (hcopy : ∀ k q, s'.copy q k = s.copy q k)
    (hinflight : ∀ k, s'.inflight.filter (CallPkt.carries k) = s.inflight.filter (CallPkt.carries k))
    (hnormal : ∀ d ∈ s'.daemons, d.recoveryMode = .normal) :
    EventSpec hash vnnMap s s' key t t ∧ t.data s' key = t.data s key := by
  obtain ⟨hrsn, -, hdata⟩ := @DmasterToken.fields_congr hash vnnMap _ _ _ _ fun q _ => hcopy key q
  exact ⟨⟨fun k _ => ⟨hcopy k, hinflight k⟩, h.frame (hcopy key) (hinflight key), Or.inl rfl,
    by rw [hrsn]; omega, hnormal⟩, hdata⟩

theorem daemonView_of_getElem? {p : UInt32} {d : CtdbDaemon} (hp : s.daemons[p.toNat]? = some d) :
    daemonView hash vnnMap d.ltdb key = (s.view hash vnnMap p key, (DmasterToken.held p).data s key) := by
  simp only [daemonView, CtdbCluster.view, DmasterToken.data, copy_of_getElem? hp]
  cases tdbFetch d.ltdb key <;> rfl

theorem DmasterInv.clean_of_getElem? {p : UInt32} {d : CtdbDaemon} (h : DmasterInv hash vnnMap s key t)
    (hp : s.daemons[p.toNat]? = some d) : ∀ hd dt, tdbFetch d.ltdb key = some (hd, dt) → CleanFlags hd.flags :=
  fun hd dt hf => h.clean p hd dt ((copy_of_getElem? hp key).trans hf)

theorem normal_set {p : UInt32} {d d' : CtdbDaemon} (hp : s.daemons[p.toNat]? = some d)
    (hnormal : ∀ x ∈ s.daemons, x.recoveryMode = .normal) (hmode : d'.recoveryMode = d.recoveryMode) :
    ∀ x ∈ s.daemons.set p.toNat d', x.recoveryMode = .normal := by
  intro x hx
  rcases List.mem_or_eq_of_mem_set hx with hx | rfl
  · exact hnormal x hx
  · rw [hmode]
    exact hnormal d (List.mem_of_getElem? hp)

/-- A daemon replaced by one with the same database leaves every copy. -/
theorem copy_set_of_ltdb {p : UInt32} {d d' : CtdbDaemon} (hp : s.daemons[p.toNat]? = some d) (hl : d'.ltdb = d.ltdb)
    (inflight : List CallPkt) (k : TdbData) (q : UInt32) :
    (⟨s.daemons.set p.toNat d', inflight⟩ : CtdbCluster).copy q k = s.copy q k := by
  rw [copy_set hp]
  split_ifs with hq
  · rw [hq, hl, copy_of_getElem? hp]
  · rfl

/-- An event that replaces one daemon by one that differs at most in the record
of `key` and in nothing of its recovery mode, and sends packets about `key`
only, is an `EventSpec` once the invariant, the hop and the rsn are shown. -/
theorem EventSpec.of_set {p : UInt32} {d d' : CtdbDaemon} {inflight : List CallPkt} {t' : DmasterToken}
    (hp : s.daemons[p.toNat]? = some d) (hnormal : ∀ x ∈ s.daemons, x.recoveryMode = .normal)
    (hmode : d'.recoveryMode = d.recoveryMode) (hltdb : ∀ k, k ≠ key → tdbFetch d'.ltdb k = tdbFetch d.ltdb k)
    (hinflight : ∀ k, k ≠ key → inflight.filter (CallPkt.carries k) = s.inflight.filter (CallPkt.carries k))
    (hinv : DmasterInv hash vnnMap ⟨s.daemons.set p.toNat d', inflight⟩ key t')
    (hmove : t' = t ∨ Place.Move (ctdbLmaster hash vnnMap key) t.place t'.place)
    (hrsn : (t'.rsn hash vnnMap ⟨s.daemons.set p.toNat d', inflight⟩ key).toNat ≤
      (t.rsn hash vnnMap s key).toNat + 2) :
    EventSpec hash vnnMap s ⟨s.daemons.set p.toNat d', inflight⟩ key t t' := by
  refine ⟨fun k hk => ⟨fun q => ?_, hinflight k hk⟩, hinv, hmove, hrsn, normal_set hp hnormal hmode⟩
  rw [copy_set hp]
  split_ifs with hq
  · rw [hq, hltdb k hk, copy_of_getElem? hp]
  · rfl

/-- The holder writes its copy back: it keeps the token, with the data written. -/
theorem eventSpec_rewrite {p : UInt32} {d : CtdbDaemon} (d' : CtdbDaemon) {inflight : List CallPkt} {hd : LtdbHeader}
    {dt : TdbData} (h : DmasterInv hash vnnMap s key (.held p))
    (hnormal : ∀ x ∈ s.daemons, x.recoveryMode = .normal) (hp : s.daemons[p.toNat]? = some d)
    (hmode : d'.recoveryMode = d.recoveryMode) (hltdb : ∀ k, k ≠ key → tdbFetch d'.ltdb k = tdbFetch d.ltdb k)
    (hinflight : ∀ k, inflight.filter (CallPkt.carries k) = s.inflight.filter (CallPkt.carries k))
    (hnew : tdbFetch d'.ltdb key = some (hd, dt)) (hdm : hd.dmaster = p) (hclean : CleanFlags hd.flags)
    (hrsn : (s.view hash vnnMap p key).rsn ≤ hd.rsn)
    (hrsn' : hd.rsn.toNat ≤ (s.view hash vnnMap p key).rsn.toNat + 2)
    (hmwd : (s.view hash vnnMap p key).flags &&& CTDB_REC_FLAG_MIGRATED_WITH_DATA ≠ 0 →
      hd.flags &&& CTDB_REC_FLAG_MIGRATED_WITH_DATA ≠ 0) :
    EventSpec hash vnnMap s ⟨s.daemons.set p.toNat d', inflight⟩ key (.held p) (.held p) ∧
      (DmasterToken.held p).data (⟨s.daemons.set p.toNat d', inflight⟩ : CtdbCluster) key = dt := by
  have hcopy : (⟨s.daemons.set p.toNat d', inflight⟩ : CtdbCluster).copy p key = some (hd, dt) := by
    rw [copy_set hp, if_pos rfl, hnew]
  refine ⟨EventSpec.of_set hp hnormal hmode hltdb (fun k _ => hinflight k) ?_ (Or.inl rfl) ?_, ?_⟩
  · exact h.rewrite (fun q hq => by rw [copy_set hp, if_neg hq]) ((hinflight key).trans h.inflight) hcopy hdm
      hclean hrsn hmwd
  · simp only [DmasterToken.rsn, view_of_copy hcopy]
    exact hrsn'
  · simp [DmasterToken.data, hcopy]

/-- The holder answers a call of its own client, or one it sent itself: its
copy is written back as read, one rsn higher for a known call. -/
theorem eventSpec_callLocal {p callid : UInt32} {d : CtdbDaemon} {ltdb' : Ltdb} {hd : LtdbHeader}
    {inflight : List CallPkt} (h : DmasterInv hash vnnMap s key (.held p))
    (hb : ((DmasterToken.held p).rsn hash vnnMap s key).toNat < 2 ^ 63)
    (hnormal : ∀ x ∈ s.daemons, x.recoveryMode = .normal) (hp : s.daemons[p.toNat]? = some d)
    (hr : HolderRead hash vnnMap p d.ltdb key ltdb' hd)
    (hinflight : ∀ k, inflight.filter (CallPkt.carries k) = s.inflight.filter (CallPkt.carries k)) :
    EventSpec hash vnnMap s ⟨s.daemons.set p.toNat
        { d with ltdb := ctdbCallLocal hash vnnMap p ltdb' key callid hd (daemonView hash vnnMap d.ltdb key).2 },
        inflight⟩ key (.held p) (.held p) ∧
      (DmasterToken.held p).data (⟨s.daemons.set p.toNat
        { d with ltdb := ctdbCallLocal hash vnnMap p ltdb' key callid hd (daemonView hash vnnMap d.ltdb key).2 },
        inflight⟩ : CtdbCluster) key = (DmasterToken.held p).data s key := by
  have hview := @daemonView_of_getElem? hash vnnMap _ key _ _ hp
  have hlocal := @tdbFetch_ctdbCallLocal hash vnnMap p key ltdb' callid hd (daemonView hash vnnMap d.ltdb key).2
    hr.clean hr.dmaster
  have hle := hr.rsn_le
  have hm := hr.migrated
  simp only [hview] at hle hm
  simp only [DmasterToken.rsn] at hb
  -- the copy written back: the one read, bumped by a known call
  obtain ⟨hd', hnew, hdm, hfl, hrsn⟩ : ∃ hd', tdbFetch (ctdbCallLocal hash vnnMap p ltdb' key callid hd
      (daemonView hash vnnMap d.ltdb key).2) key = some (hd', (daemonView hash vnnMap d.ltdb key).2) ∧
      hd'.dmaster = hd.dmaster ∧ hd'.flags = hd.flags ∧ (hd'.rsn = hd.rsn ∨ hd'.rsn = hd.rsn + 1) := by
    rw [hlocal key]
    by_cases hbuiltin : builtinCall callid = true
    · exact ⟨{ hd with rsn := hd.rsn + 1 }, by rw [if_pos ⟨hbuiltin, rfl⟩], rfl, rfl, Or.inr rfl⟩
    · exact ⟨hd, by rw [if_neg (fun h => hbuiltin h.1)]; exact hr.fetch, rfl, rfl, Or.inl rfl⟩
  have hrsn' : (s.view hash vnnMap p key).rsn ≤ hd'.rsn ∧
      hd'.rsn.toNat ≤ (s.view hash vnnMap p key).rsn.toNat + 2 := by
    rw [UInt64.le_iff_toNat_le] at hle ⊢
    rcases hrsn with heq | heq <;> rw [heq]
    · omega
    · rw [toNat_add_of_lt (by simp; omega)]
      simp only [UInt64.toNat_one]
      omega
  obtain ⟨hspec, hdata⟩ := eventSpec_rewrite
    { d with ltdb := ctdbCallLocal hash vnnMap p ltdb' key callid hd (daemonView hash vnnMap d.ltdb key).2 }
    h hnormal hp rfl
    (fun k hk => by rw [hlocal k, if_neg (fun h => hk h.2), hr.frame k hk]) hinflight hnew (hdm.trans hr.dmaster)
    (hfl ▸ hr.clean) hrsn'.1 hrsn'.2 (fun h => hfl ▸ hm h)
  refine ⟨hspec, ?_⟩
  rw [hdata, hview]

end Event

/-! ## The events

One lemma for each kind of event, given the invariant at the event's record:
a client's call, a client's write, and the delivery of each of the three
packets. -/

section Events

variable {hash : TdbData → UInt32} {vnnMap : List UInt32} {s : CtdbCluster}

theorem filter_append_of_key {l pkts : List CallPkt} {key k : TdbData} (hpkts : ∀ x ∈ pkts, x.key = key)
    (hk : k ≠ key) : (l ++ pkts).filter (CallPkt.carries k) = l.filter (CallPkt.carries k) := by
  have hnil : pkts.filter (CallPkt.carries k) = [] := by
    refine List.filter_eq_nil_iff.mpr fun x hx => ?_
    rw [carries_eq_false_of_key_ne ((hpkts x hx).trans_ne (Ne.symm hk))]
    exact Bool.false_ne_true
  rw [List.filter_append, hnil, List.append_nil]

theorem callStep_deliver {pkt : CallPkt} {q : UInt32} {d d' : CtdbDaemon} {pkts : List CallPkt}
    (hmem : pkt ∈ s.inflight) (hp : s.daemons[q.toNat]? = some d) (hq : pkt.hdr.destnode = q)
    (h : ctdbInputPkt hash vnnMap q d pkt = .ok (d', pkts)) :
    callStep hash vnnMap s (.deliver pkt) = .ok ⟨s.daemons.set q.toNat d', s.inflight.erase pkt ++ pkts⟩ := by
  subst hq
  simp only [callStep, if_pos hmem, hp, h]
  rfl

/-- A client asks the daemon of `p` for a call. -/
theorem clientCall_spec {p callid flags reqid : UInt32} {key : TdbData} {t : DmasterToken}
    (h : DmasterInv hash vnnMap s key t) (hb : (t.rsn hash vnnMap s key).toNat < 2 ^ 63)
    (hnormal : ∀ x ∈ s.daemons, x.recoveryMode = .normal) :
    ∃ s' t', callStep hash vnnMap s (.clientCall p key callid flags reqid) = .ok s' ∧
      EventSpec hash vnnMap s s' key t t' ∧ t'.data s' key = t.data s key := by
  cases hp : s.daemons[p.toNat]? with
  | none => exact ⟨s, t, by simp only [callStep, hp], EventSpec.of_copies h (fun _ _ => rfl) (fun _ => rfl) hnormal⟩
  | some d =>
      have hview := @daemonView_of_getElem? hash vnnMap _ key _ _ hp
      by_cases hv : (daemonView hash vnnMap d.ltdb key).1.dmaster = p
      · -- the daemon is the dmaster and answers at once
        have ht : t = .held p := (h.holder p).mp (by rw [hview] at hv; exact hv)
        subst ht
        obtain ⟨ltdb', hd, hr, heq⟩ := @daemonRequestCallFromClient_of_holder hash vnnMap p d key callid flags
          reqid (h.clean_of_getElem? hp) hv
        exact ⟨_, _, by simp only [callStep, hp, heq], @eventSpec_callLocal hash vnnMap s key p callid d _ _
          (s.inflight ++ []) h hb hnormal hp hr (fun k => by rw [List.append_nil])⟩
      · -- the request goes to the node the copy names, and the call waits
        obtain ⟨d', pkts, heq, hl, hmode, hpkts⟩ : ∃ d' pkts,
            daemonRequestCallFromClient hash vnnMap p d key callid flags reqid = (d', pkts) ∧ d'.ltdb = d.ltdb ∧
              d'.recoveryMode = d.recoveryMode ∧ ∀ k, pkts.filter (CallPkt.carries k) = [] :=
          ⟨_, _, daemonRequestCallFromClient_of_not_holder (h.clean_of_getElem? hp) hv, rfl, rfl,
            fun k => by simp [CallPkt.carries]⟩
        exact ⟨_, t, by simp only [callStep, hp, heq],
          EventSpec.of_copies h (copy_set_of_ltdb hp hl (s.inflight ++ pkts))
          (fun k => by rw [List.filter_append, hpkts, List.append_nil]) (normal_set hp hnormal hmode)⟩

/-- A client of the daemon of `p` writes the record: it takes effect where the
daemon's copy names itself. -/
theorem recordStore_spec {p : UInt32} {key v : TdbData} {t : DmasterToken} (h : DmasterInv hash vnnMap s key t)
    (hnormal : ∀ x ∈ s.daemons, x.recoveryMode = .normal) :
    ∃ s' t', callStep hash vnnMap s (.recordStore p key v) = .ok s' ∧ EventSpec hash vnnMap s s' key t t' ∧
      t'.data s' key = ((CallEvent.recordStore p key v).written s).getD (t.data s key) := by
  cases hp : s.daemons[p.toNat]? with
  | none =>
      have hwritten : (CallEvent.recordStore p key v).written s = none := by
        simp [CallEvent.written, CtdbCluster.copy, hp]
      obtain ⟨hspec, hdata⟩ := EventSpec.of_copies h (fun _ _ => rfl) (fun _ => rfl) hnormal
      exact ⟨s, t, by simp only [callStep, hp], hspec, by rw [hdata, hwritten]; rfl⟩
  | some d =>
      -- a write the daemon does not take leaves the cluster as it was
      have hkeep : (CallEvent.recordStore p key v).written s = none → ctdbRecordStore hash p d key v = d →
          ∃ s' t', callStep hash vnnMap s (.recordStore p key v) = .ok s' ∧ EventSpec hash vnnMap s s' key t t' ∧
            t'.data s' key = ((CallEvent.recordStore p key v).written s).getD (t.data s key) := by
        intro hwritten hrs
        obtain ⟨hspec, hdata⟩ :=
          @EventSpec.of_copies hash vnnMap s { s with daemons := s.daemons.set p.toNat d } key t h
          (copy_set_of_ltdb hp rfl _) (fun _ => rfl) (normal_set hp hnormal rfl)
        exact ⟨_, t, by simp only [callStep, hp, hrs], hspec, by rw [hdata, hwritten]; rfl⟩
      cases hf : tdbFetch d.ltdb key with
      | none =>
          refine hkeep ?_ (ctdbRecordStore_of_missing hf)
          simp [CallEvent.written, copy_of_getElem? hp, hf]
      | some r =>
          obtain ⟨hd, dt⟩ := r
          have hcopy : s.copy p key = some (hd, dt) := (copy_of_getElem? hp key).trans hf
          have hrs := @ctdbRecordStore_of_found hash p d key v _ _ hf
          by_cases hdm : hd.dmaster = p
          · have ht : t = .held p := (h.holder p).mp (by rw [view_of_copy hcopy]; exact hdm)
            subst ht
            have hwritten : (CallEvent.recordStore p key v).written s = some v := by
              simp [CallEvent.written, hcopy, hdm]
            rw [if_pos hdm] at hrs
            have hview := @view_of_copy hash vnnMap _ _ _ _ _ hcopy
            obtain ⟨hspec, hdata⟩ := eventSpec_rewrite { d with ltdb := tdbStore d.ltdb key (hd, v) } h
              hnormal hp rfl (fun k hk => tdbFetch_tdbStore_ne _ _ (Ne.symm hk)) (fun _ => rfl)
              (tdbFetch_tdbStore _ _ _) hdm
              (h.clean p hd dt hcopy) (by rw [hview]; exact UInt64.le_refl _) (by rw [hview]; omega)
              (by rw [hview]; exact id)
            exact ⟨_, _, by simp only [callStep, hp, hrs], hspec, by rw [hdata, hwritten]; rfl⟩
          · rw [if_neg hdm] at hrs
            refine hkeep ?_ hrs
            simp [CallEvent.written, hcopy, hdm]

/-- A `CTDB_REQ_CALL` delivered to the daemon of `q`: the daemon passes it on,
answers a call it sent itself, or hands the record to the caller, through the
lmaster or, as the lmaster, directly. -/
theorem reqCall_spec {c : ReqCallPkt} {t : DmasterToken} (h : DmasterInv hash vnnMap s c.key t)
    (hb : (t.rsn hash vnnMap s c.key).toNat < 2 ^ 63) (hnormal : ∀ x ∈ s.daemons, x.recoveryMode = .normal)
    (hmem : CallPkt.reqCall c ∈ s.inflight) :
    ∃ s' t', callStep hash vnnMap s (.deliver (.reqCall c)) = .ok s' ∧
      EventSpec hash vnnMap s s' c.key t t' ∧ t'.data s' c.key = t.data s c.key := by
  obtain ⟨⟨src, q, reqid⟩, flags, callid, hop, key⟩ := c
  dsimp only at h hb ⊢
  -- the request carries no record, so taking it out of the network changes no record's packets
  have hrest : ∀ k, (s.inflight.erase (.reqCall ⟨⟨src, q, reqid⟩, flags, callid, hop, key⟩)).filter
      (CallPkt.carries k) = s.inflight.filter (CallPkt.carries k) := fun k => filter_erase_of_false _ rfl
  cases hp : s.daemons[q.toNat]? with
  | none =>
      exact ⟨s, t, by simp only [callStep, if_pos hmem, CallPkt.hdr, hp],
        EventSpec.of_copies h (fun _ _ => rfl) (fun _ => rfl) hnormal⟩
  | some d =>
      have hview := @daemonView_of_getElem? hash vnnMap _ key _ _ hp
      have hclean := h.clean_of_getElem? hp
      by_cases hv : (daemonView hash vnnMap d.ltdb key).1.dmaster = q
      · have ht : t = .held q := (h.holder q).mp (by rw [hview] at hv; exact hv)
        subst ht
        obtain ⟨ltdb', hd, hr, heq⟩ := ctdbRequestCall_of_holder
          (c := ⟨⟨src, q, reqid⟩, flags, callid, hop, key⟩) hclean hv
        dsimp only at hr heq
        have hle := hr.rsn_le
        have hm := hr.migrated
        simp only [hview] at hle hm
        simp only [DmasterToken.rsn] at hb
        by_cases hsrc : src = q
        · -- a call the dmaster sent itself is answered in place
          rw [if_neg (not_not.mpr hsrc)] at heq
          exact ⟨_, _, callStep_deliver hmem hp rfl heq, eventSpec_callLocal h hb hnormal hp hr
            (fun k => by rw [List.append_nil, hrest])⟩
        rw [if_pos hsrc] at heq
        by_cases hL : ctdbLmaster hash vnnMap key = q
        · -- the lmaster as dmaster sends the record straight to the caller
          subst hL
          rw [ctdbCallSendDmaster_of_lmaster (c := ⟨⟨src, _, reqid⟩, flags, callid, hop, key⟩) rfl hr.clean
            hsrc] at heq
          simp only [Except.map] at heq
          refine ⟨_, .replyDmaster ⟨⟨ctdbLmaster hash vnnMap key, src, reqid⟩, hd.rsn, key,
              (daemonView hash vnnMap d.ltdb key).2, (withDataFlag hd (daemonView hash vnnMap d.ltdb key).2).flags⟩,
            callStep_deliver hmem hp rfl heq, EventSpec.of_set hp hnormal rfl
            (fun k hk => by rw [tdbFetch_tdbStore_ne _ _ (Ne.symm hk), hr.frame k hk])
            (fun k hk => by rw [filter_append_of_key (by simp [CallPkt.key]) hk, hrest]) ?_
            (Or.inr (Place.Move.send hsrc)) ?_, ?_⟩
          · exact h.send (fun q' hq' => by rw [copy_set hp, if_neg hq'])
              (by rw [List.filter_append, hrest, h.inflight]; simp [CallPkt.carries, DmasterToken.pkts])
              ⟨rfl, withDataFlag_clean hr.clean⟩ hsrc hle.1 (fun hmv => withDataFlag_migrated (hm hmv))
              (by rw [copy_set hp, if_pos rfl]; exact tdbFetch_tdbStore _ _ _)
          · simp only [DmasterToken.rsn]
            omega
          · simp only [DmasterToken.data, hview]
        · -- another dmaster sends the record to the lmaster
          have hfound : (tdbFetch ltdb' key).isSome := by rw [hr.fetch]; rfl
          obtain ⟨ltdb'', hsend, hfetch⟩ := @ctdbCallSendDmaster_of_not_lmaster hash vnnMap _
            ⟨⟨src, q, reqid⟩, flags, callid, hop, key⟩ _ _ (daemonView hash vnnMap d.ltdb key).2 hL hr.clean
            hsrc hfound
          rw [hsend] at heq
          simp only [Except.map] at heq
          dsimp only at hfetch
          have hcl : CleanFlags (withDataFlag hd (daemonView hash vnnMap d.ltdb key).2).flags :=
            withDataFlag_clean hr.clean
          refine ⟨_, .reqDmaster ⟨⟨q, ctdbLmaster hash vnnMap key, reqid⟩, hd.rsn, src, key,
              (daemonView hash vnnMap d.ltdb key).2, (withDataFlag hd (daemonView hash vnnMap d.ltdb key).2).flags⟩,
            callStep_deliver hmem hp rfl heq, EventSpec.of_set hp hnormal rfl
            (fun k hk => by rw [hfetch k, if_neg hk, hr.frame k hk])
            (fun k hk => by rw [filter_append_of_key (by simp [CallPkt.key]) hk, hrest]) ?_
            (Or.inr (Place.Move.give (Ne.symm hL) hsrc)) ?_, ?_⟩
          · refine h.give (Ne.symm hL) (fun q' hq' => by rw [copy_set hp, if_neg hq'])
              (by rw [List.filter_append, hrest, h.inflight]; simp [CallPkt.carries, DmasterToken.pkts])
              ⟨rfl, rfl, hcl⟩ rfl
              hsrc hle.1 (fun hmv => withDataFlag_migrated (hm hmv)) ?_
            rw [copy_set hp, if_pos rfl, hfetch key, if_pos rfl]
            -- the old dmaster keeps its copy only when it is marked as migrated with data
            by_cases hmwd : (withDataFlag hd (daemonView hash vnnMap d.ltdb key).2).flags &&&
                CTDB_REC_FLAG_MIGRATED_WITH_DATA ≠ 0
            · exact Or.inr ⟨by rw [if_pos hmwd], hmwd⟩
            · exact Or.inl (by rw [if_neg hmwd])
          · simp only [DmasterToken.rsn]
            omega
          · simp only [DmasterToken.data, hview]
      · -- the request is passed on, and nothing else changes
        have heq := ctdbRequestCall_of_not_holder (c := ⟨⟨src, q, reqid⟩, flags, callid, hop, key⟩) hclean hv
        exact ⟨_, t, callStep_deliver hmem hp rfl heq, EventSpec.of_copies h (copy_set_of_ltdb hp rfl _)
          (fun k => by rw [List.filter_append, hrest]; simp [CallPkt.carries]) (normal_set hp hnormal rfl)⟩

/-- A `CTDB_REQ_DMASTER` delivered: it carries the token to the lmaster, whose
copy names the sender, so no recovery is forced; the lmaster keeps the record
or passes it on. -/
theorem reqDmaster_spec {c : ReqDmasterPkt} {t : DmasterToken} (h : DmasterInv hash vnnMap s c.key t)
    (hb : (t.rsn hash vnnMap s c.key).toNat < 2 ^ 63) (hnormal : ∀ x ∈ s.daemons, x.recoveryMode = .normal)
    (hmem : CallPkt.reqDmaster c ∈ s.inflight) :
    ∃ s' t', callStep hash vnnMap s (.deliver (.reqDmaster c)) = .ok s' ∧
      EventSpec hash vnnMap s s' c.key t t' ∧ t'.data s' c.key = t.data s c.key := by
  obtain rfl := h.eq_of_mem_reqDmaster hmem rfl
  obtain ⟨⟨src, dest, reqid⟩, rsn, dm, key, data, f⟩ := c
  obtain ⟨-, hdest, hf⟩ := h.sent
  dsimp only at h hb hdest hf ⊢
  subst hdest
  simp only [DmasterToken.rsn] at hb
  have hsrc := h.src_ne_lmaster
  dsimp only at hsrc
  -- taking the token out of the network leaves no packet of its record, and those of the others
  have hrest : (s.inflight.erase
      (.reqDmaster ⟨⟨src, ctdbLmaster hash vnnMap key, reqid⟩, rsn, dm, key, data, f⟩)).filter
      (CallPkt.carries key) = [] := by
    rw [← List.erase_filter, h.inflight]
    simp [DmasterToken.pkts]
  have hrest' : ∀ k, k ≠ key → (s.inflight.erase
      (.reqDmaster ⟨⟨src, ctdbLmaster hash vnnMap key, reqid⟩, rsn, dm, key, data, f⟩)).filter
        (CallPkt.carries k) = s.inflight.filter (CallPkt.carries k) :=
    fun k hk => filter_erase_of_false _ (by simp [CallPkt.carries, Ne.symm hk])
  cases hp : s.daemons[(ctdbLmaster hash vnnMap key).toNat]? with
  | none =>
      exact ⟨s, _, by simp only [callStep, if_pos hmem, CallPkt.hdr, hp],
        EventSpec.of_copies h (fun _ _ => rfl) (fun _ => rfl) hnormal⟩
  | some d =>
      have hview := @daemonView_of_getElem? hash vnnMap _ key _ _ hp
      have hsv : (daemonView hash vnnMap d.ltdb key).1.dmaster = src := by
        rw [hview]
        exact h.lmaster
      have heq := ctdbRequestDmaster_of_lmaster
        (c := ⟨⟨src, ctdbLmaster hash vnnMap key, reqid⟩, rsn, dm, key, data, f⟩)
        rfl hsv hsrc hf
      dsimp only at heq
      by_cases hdm : dm = ctdbLmaster hash vnnMap key
      · -- the record was given up for the lmaster itself
        subst hdm
        rw [if_pos rfl] at heq
        -- the lmaster has a copy: the header it would make up names itself, not the sender
        have hexists : ctdbLmaster hash vnnMap key = ctdbLmaster hash vnnMap key → (tdbFetch d.ltdb key).isSome := by
          intro _
          cases hfe : tdbFetch d.ltdb key with
          | some r => rfl
          | none =>
              simp only [daemonView, hfe, Option.getD_none, ltdbInitialHeader] at hsv
              exact absurd hsv.symm hsrc
        obtain ⟨d', hbec, hmode, hframe, hout⟩ := @ctdbBecomeDmaster_spec hash vnnMap _ _ key reqid data rsn f
          hf hexists
        rw [hbec] at heq
        simp only [Except.map] at heq
        -- what the lmaster's copy is afterwards
        have hnew : (∃ r, (⟨s.daemons.set (ctdbLmaster hash vnnMap key).toNat d',
            s.inflight.erase (.reqDmaster ⟨⟨src, ctdbLmaster hash vnnMap key, reqid⟩, rsn,
              ctdbLmaster hash vnnMap key, key, data, f⟩) ++ []⟩ : CtdbCluster).copy
                (ctdbLmaster hash vnnMap key) key =
                some (⟨r, ctdbLmaster hash vnnMap key, f⟩, data) ∧ (r = rsn + 1 ∨ r = rsn + 2)) ∨
            ((⟨s.daemons.set (ctdbLmaster hash vnnMap key).toNat d',
              s.inflight.erase (.reqDmaster ⟨⟨src, ctdbLmaster hash vnnMap key, reqid⟩, rsn,
                ctdbLmaster hash vnnMap key, key, data, f⟩) ++ []⟩ : CtdbCluster).copy
                (ctdbLmaster hash vnnMap key) key = none ∧ data = [] ∧
              f &&& CTDB_REC_FLAG_MIGRATED_WITH_DATA = 0) := by
          rw [copy_set hp, if_pos rfl]
          rcases hout with hsome | ⟨hnone, -, hdata, hm⟩
          · exact Or.inl hsome
          · exact Or.inr ⟨hnone, hdata, hm⟩
        refine ⟨_, .held (ctdbLmaster hash vnnMap key), callStep_deliver hmem hp rfl heq,
          EventSpec.of_set hp hnormal hmode hframe (fun k hk => by rw [List.append_nil, hrest' k hk]) ?_
          (Or.inr Place.Move.reclaim) ?_, ?_⟩
        · refine h.reclaim (fun q hq => by rw [copy_set hp, if_neg hq]) (by rw [List.append_nil, hrest]) ?_
          rcases hnew with ⟨r, hr, hrr⟩ | ⟨hnone, -, hm⟩
          · exact Or.inl ⟨r, hr, (bump_lt hb hrr).1⟩
          · exact Or.inr ⟨hnone, hm⟩
        · simp only [DmasterToken.rsn]
          rcases hnew with ⟨r, hr, hrr⟩ | ⟨hnone, -, -⟩
          · rw [view_of_copy hr]
            exact (bump_lt hb hrr).2
          · rw [view_of_copy_none hnone]
            simp [ltdbInitialHeader]
        · rcases hnew with ⟨r, hr, -⟩ | ⟨hnone, hdata, -⟩
          · simp only [DmasterToken.data, hr, Option.map_some, Option.getD_some]
          · simp only [DmasterToken.data, hnone, Option.map_none, Option.getD_none]
            exact hdata.symm
      · -- the lmaster passes the record on to the node it was given up for
        rw [if_neg hdm] at heq
        refine ⟨_, .replyDmaster ⟨⟨ctdbLmaster hash vnnMap key, dm, reqid⟩, rsn, key, data, f⟩,
          callStep_deliver hmem hp rfl heq, EventSpec.of_set hp hnormal rfl
          (fun k hk => tdbFetch_tdbStore_ne _ _ (Ne.symm hk))
          (fun k hk => by rw [filter_append_of_key (by simp [CallPkt.key]) hk, hrest' k hk])
          (h.forward (fun q hq => by rw [copy_set hp, if_neg hq])
            (by rw [List.filter_append, hrest]; simp [CallPkt.carries]) hdm
            (by rw [copy_set hp, if_pos rfl]; exact tdbFetch_tdbStore _ _ _))
          (Or.inr (Place.Move.forward hdm)) ?_, rfl⟩
        simp only [DmasterToken.rsn]
        omega

/-- A `CTDB_REPLY_DMASTER` delivered: it carries the token to the node the
lmaster sent it to, which takes the record. -/
theorem replyDmaster_spec {c : ReplyDmasterPkt} {t : DmasterToken} (h : DmasterInv hash vnnMap s c.key t)
    (hb : (t.rsn hash vnnMap s c.key).toNat < 2 ^ 63) (hnormal : ∀ x ∈ s.daemons, x.recoveryMode = .normal)
    (hmem : CallPkt.replyDmaster c ∈ s.inflight) :
    ∃ s' t', callStep hash vnnMap s (.deliver (.replyDmaster c)) = .ok s' ∧
      EventSpec hash vnnMap s s' c.key t t' ∧ t'.data s' c.key = t.data s c.key := by
  obtain rfl := h.eq_of_mem_replyDmaster hmem rfl
  obtain ⟨⟨src, m, reqid⟩, rsn, key, data, f⟩ := c
  have hmL := h.dest_ne_lmaster
  obtain ⟨-, hf⟩ := h.sent
  dsimp only at h hb hmL hf ⊢
  simp only [DmasterToken.rsn] at hb
  have hrest : (s.inflight.erase (.replyDmaster ⟨⟨src, m, reqid⟩, rsn, key, data, f⟩)).filter
      (CallPkt.carries key) = [] := by
    rw [← List.erase_filter, h.inflight]
    simp [DmasterToken.pkts]
  have hrest' : ∀ k, k ≠ key →
      (s.inflight.erase (.replyDmaster ⟨⟨src, m, reqid⟩, rsn, key, data, f⟩)).filter
      (CallPkt.carries k) = s.inflight.filter (CallPkt.carries k) :=
    fun k hk => filter_erase_of_false _ (by simp [CallPkt.carries, Ne.symm hk])
  cases hp : s.daemons[m.toNat]? with
  | none =>
      exact ⟨s, _, by simp only [callStep, if_pos hmem, CallPkt.hdr, hp],
        EventSpec.of_copies h (fun _ _ => rfl) (fun _ => rfl) hnormal⟩
  | some d =>
      -- the new dmaster is not the lmaster, so its store keeps the record
      obtain ⟨d', hbec, hmode, hframe, hout⟩ := @ctdbBecomeDmaster_spec hash vnnMap m d key reqid data rsn f hf
        (fun hL => absurd hL.symm hmL)
      have heq :
          ctdbInputPkt hash vnnMap m d (.replyDmaster ⟨⟨src, m, reqid⟩, rsn, key, data, f⟩) = .ok (d', []) := by
        simp only [ctdbInputPkt, ctdbReplyDmaster, hbec]
        rfl
      obtain ⟨r, hr, hrr⟩ :
          ∃ r, tdbFetch d'.ltdb key = some (⟨r, m, f⟩, data) ∧ (r = rsn + 1 ∨ r = rsn + 2) := by
        rcases hout with hsome | ⟨-, hL, -⟩
        · exact hsome
        · exact absurd hL.symm hmL
      have hcopy : (⟨s.daemons.set m.toNat d', s.inflight.erase
          (.replyDmaster ⟨⟨src, m, reqid⟩, rsn, key, data, f⟩) ++ []⟩ : CtdbCluster).copy m key =
            some (⟨r, m, f⟩, data) := by
        rw [copy_set hp, if_pos rfl, hr]
      refine ⟨_, .held m, callStep_deliver hmem hp rfl heq,
        EventSpec.of_set hp hnormal hmode hframe (fun k hk => by rw [List.append_nil, hrest' k hk])
          (h.take (fun q hq => by rw [copy_set hp, if_neg hq]) (by rw [List.append_nil, hrest]) hcopy
            (bump_lt hb hrr).1)
          (Or.inr Place.Move.take) ?_, ?_⟩
      · simp only [DmasterToken.rsn, view_of_copy hcopy]
        exact (bump_lt hb hrr).2
      · simp only [DmasterToken.data, hcopy, Option.map_some, Option.getD_some]

end Events

/-! ## The invariant over all records -/

section Inv

variable (hash : TdbData → UInt32) (vnnMap : List UInt32)

/-- What holds after `n` events: `DmasterInv` for every record with its token,
every token's rsn at most `2 n`, and no daemon in recovery. -/
structure CallInv (n : Nat) (s : CtdbCluster) (T : TdbData → DmasterToken) : Prop where
  token : ∀ key, DmasterInv hash vnnMap s key (T key)
  rsn : ∀ key, ((T key).rsn hash vnnMap s key).toNat ≤ 2 * n
  normal : ∀ d ∈ s.daemons, d.recoveryMode = .normal

/-- Every record starts on its lmaster, which has not stored it yet. -/
def startTokens (key : TdbData) : DmasterToken := .held (ctdbLmaster hash vnnMap key)

theorem copy_callStart (n : Nat) (p : UInt32) (key : TdbData) : (callStart n).copy p key = none := by
  simp only [CtdbCluster.copy, callStart, List.getElem?_replicate]
  split_ifs <;> rfl

theorem callInv_start (n : Nat) : CallInv hash vnnMap 0 (callStart n) (startTokens hash vnnMap) := by
  have hview : ∀ p key, (callStart n).view hash vnnMap p key = ltdbInitialHeader (ctdbLmaster hash vnnMap key) :=
    fun p key => view_of_copy_none (copy_callStart n p key)
  refine ⟨fun key => ⟨?_, rfl, trivial, ?_, ?_, ?_, ?_⟩, fun key => ?_, ?_⟩
  · intro p hd d h
    rw [copy_callStart] at h
    cases h
  · intro p
    rw [hview]
    exact ⟨fun h => by subst h; rfl, fun h => by cases h; rfl⟩
  · rw [hview]
    rfl
  · intro p hd d h
    rw [copy_callStart] at h
    cases h
  · intro p hd d h
    rw [copy_callStart] at h
    cases h
  · simp only [startTokens, DmasterToken.rsn, hview]
    rfl
  · intro d hd
    rw [callStart, List.mem_replicate] at hd
    rw [hd.2]
    rfl

variable {hash vnnMap}

/-- One event within the bound keeps `CallInv`, with the token of the event's
record replaced. -/
theorem CallInv.step {n : Nat} {s s' : CtdbCluster} {T : TdbData → DmasterToken} {key : TdbData}
    {t' : DmasterToken} (h : CallInv hash vnnMap n s T) (he : EventSpec hash vnnMap s s' key (T key) t') :
    CallInv hash vnnMap (n + 1) s' (Function.update T key t') := by
  refine ⟨fun k => ?_, fun k => ?_, he.normal⟩
  · by_cases hk : k = key
    · subst hk
      rw [Function.update_self]
      exact he.inv
    · rw [Function.update_of_ne hk]
      exact (h.token k).frame (he.frame k hk).1 (he.frame k hk).2
  · by_cases hk : k = key
    · subst hk
      rw [Function.update_self]
      have := h.rsn k
      have := he.rsn
      omega
    · rw [Function.update_of_ne hk,
        (@DmasterToken.fields_congr hash vnnMap _ _ _ _ fun q _ => (he.frame k hk).1 q).1]
      have := h.rsn k
      omega

end Inv

/-! ## Runs -/

section Runs

variable {hash : TdbData → UInt32} {vnnMap : List UInt32}

/-- Every event, from a state where `CallInv` holds after fewer than `2 ^ 62`
events: the step does not fail, it is an `EventSpec` at the event's record,
and the token there carries what a client wrote, or what it carried. -/
theorem callStep_spec {n : Nat} {s : CtdbCluster} {T : TdbData → DmasterToken} (hI : CallInv hash vnnMap n s T)
    (hn : n < 2 ^ 62) (e : CallEvent) :
    ∃ s' t', callStep hash vnnMap s e = .ok s' ∧ EventSpec hash vnnMap s s' e.key (T e.key) t' ∧
      t'.data s' e.key = (e.written s).getD ((T e.key).data s e.key) := by
  have hb : ∀ key, ((T key).rsn hash vnnMap s key).toNat < 2 ^ 63 := by
    intro key
    have := hI.rsn key
    omega
  cases e with
  | clientCall p key callid flags reqid => exact clientCall_spec (hI.token key) (hb key) hI.normal
  | recordStore p key v => exact recordStore_spec (hI.token key) hI.normal
  | deliver pkt =>
      by_cases hmem : pkt ∈ s.inflight
      · cases pkt with
        | reqCall c => exact reqCall_spec (hI.token c.key) (hb c.key) hI.normal hmem
        | reqDmaster c => exact reqDmaster_spec (hI.token c.key) (hb c.key) hI.normal hmem
        | replyDmaster c => exact replyDmaster_spec (hI.token c.key) (hb c.key) hI.normal hmem
      · -- a packet no longer in the network is not delivered again
        exact ⟨s, _, by simp only [callStep, if_neg hmem],
          EventSpec.of_copies (hI.token _) (fun _ _ => rfl) (fun _ => rfl) hI.normal⟩

variable (hash vnnMap) in
/-- The abstract step of the cluster: the dmaster role of one record takes one
hop, with the record's lmaster as home. -/
def RoleMove : (TdbData → DmasterToken) → (TdbData → DmasterToken) → Prop :=
  KeyMove fun key t t' => Place.Move (ctdbLmaster hash vnnMap key) t.place t'.place

theorem callStep_simulates :
    StepSimulates (callStep hash vnnMap) (fun _ => True) (RoleMove hash vnnMap) (CallInv hash vnnMap) (2 ^ 62) := by
  intro n hn s e T _ hI
  obtain ⟨s', t', hstep, hspec, -⟩ := callStep_spec hI hn e
  exact ⟨s', Function.update T e.key t', hstep, hI.step hspec, KeyMove.reflGen_update hspec.move⟩

theorem written_eq_none {e : CallEvent} {s : CtdbCluster} (h : ∀ p v, e ≠ .recordStore p e.key v) :
    e.written s = none := by
  cases e with
  | clientCall _ _ _ _ _ => rfl
  | recordStore p key v => exact absurd rfl (h p v)
  | deliver _ => rfl

/-- Events other than a client's write of `key` keep the data the token of
`key` carries. -/
theorem callStep_simulates_data (key v : TdbData) :
    StepSimulates (callStep hash vnnMap) (fun (e : CallEvent) => ∀ p v', e ≠ .recordStore p key v')
      (RoleMove hash vnnMap) (fun n s T => CallInv hash vnnMap n s T ∧ (T key).data s key = v) (2 ^ 62) := by
  intro n hn s e T hP ⟨hI, hv⟩
  obtain ⟨s', t', hstep, hspec, hdata⟩ := callStep_spec hI hn e
  refine ⟨s', Function.update T e.key t', hstep, ⟨hI.step hspec, ?_⟩, KeyMove.reflGen_update hspec.move⟩
  by_cases hk : key = e.key
  · subst hk
    rw [Function.update_self, hdata, written_eq_none hP, Option.getD_none, hv]
  · rw [Function.update_of_ne hk,
      (@DmasterToken.fields_congr hash vnnMap _ _ _ _ fun q _ => (hspec.frame key hk).1 q).2.2, hv]

/-- Every run of at most `2 ^ 62` events from freshly attached daemons does not
fail and keeps `CallInv`, with tokens the abstract hops reach. -/
theorem callRun_inv (n : Nat) {evs : List CallEvent} (hlen : evs.length ≤ 2 ^ 62) :
    ∃ s T, callRun hash vnnMap (callStart n) evs = .ok s ∧ CallInv hash vnnMap evs.length s T ∧
      ReflTransGen (RoleMove hash vnnMap) (startTokens hash vnnMap) T :=
  foldlM_simulation callStep_simulates (callInv_start hash vnnMap n) (fun _ _ => trivial) hlen

end Runs

end Ctdb.Migration

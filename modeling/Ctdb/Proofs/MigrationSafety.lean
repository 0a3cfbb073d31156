import Ctdb.Proofs.MigrationRun
import Ctdb.Proofs.Recovery

/-!
# What every run of the call protocol keeps

`callRun_inv` follows every run of client calls, client writes and packet
deliveries from freshly attached daemons, in any order of delivery, and gives
`DmasterInv` for every record after it. Read off that invariant, the state a
run ends in has the properties the protocol is built for:

* **No fatal error, no forced recovery.** No handler ends the run in
  `ctdb_fatal`, and no `ctdb_request_dmaster` finds a request from a node its
  copy does not name, so no daemon has been put in recovery
  (`callRun_no_fatal`).
* **One dmaster.** At most one daemon reads itself as the dmaster of a record,
  and while one does no packet carries the record (`callRun_one_dmaster`).
* **The lmaster knows the way.** The node the lmaster's copy names is the
  dmaster, or the one packet that carries the record is on its way from it or
  to it, so a request redirected to the lmaster is never sent to a node that
  has nothing to do with the record (`callRun_lmaster_routes`).
* **The dmaster's copy is the newest.** It has a higher rsn than every other
  copy, and no rsn exceeds twice the number of events, far below the top of
  its 64 bits (`callRun_dmaster_newest`).
* **Stale copies are marked.** A copy away from the lmaster that names
  another node carries `CTDB_REC_FLAG_MIGRATED_WITH_DATA`
  (`callRun_stale_migrated`).
* **An abstract hand-over.** Every event of a run moves the role of at most
  one record by one hop of `Lib.Place.Move`, from its lmaster
  (`callRun_refines`).
* **No lost update.** Once a daemon holds a record with some data, the events
  after that carry the same data wherever the record goes, until a client
  writes the record again (`callRun_no_lost_update`).

Two results join the call protocol to the recovery of Proofs/Recovery.lean.
After any run, a recovery over the daemons' databases gives every node the
data of the dmaster's copy (`callRun_recovery_keeps_dmaster`). When no record
is in flight, the daemons' databases meet `DmasterCopyHighest`, the
assumption under which a recovery keeps the latest copy of every record
(`callRun_quiet_dmasterCopyHighest`).

The runs have at most `2 ^ 62` events, the bound of `callRun_inv`.
-/

namespace Ctdb.Migration

open Lib Relation

/-! ## Where a record can be read -/

section DataAt

variable (hash : TdbData → UInt32) (vnnMap : List UInt32)

/-- Every place the record of `key` can be read from holds `v`: the copy of a
daemon that reads itself as the dmaster, and a packet that carries the record. -/
def DataAt (s : CtdbCluster) (key v : TdbData) : Prop :=
  (∀ p, (s.view hash vnnMap p key).dmaster = p → ((s.copy p key).map Prod.snd).getD [] = v) ∧
    (∀ c, CallPkt.reqDmaster c ∈ s.inflight → c.key = key → c.data = v) ∧
    ∀ c, CallPkt.replyDmaster c ∈ s.inflight → c.key = key → c.data = v

variable {hash vnnMap}

theorem DmasterInv.dataAt {s : CtdbCluster} {key : TdbData} {t : DmasterToken}
    (h : DmasterInv hash vnnMap s key t) : DataAt hash vnnMap s key (t.data s key) := by
  refine ⟨fun p hp => ?_, fun c hmem hc => ?_, fun c hmem hc => ?_⟩
  · rw [(h.holder p).mp hp]
    rfl
  · rw [h.eq_of_mem_reqDmaster hmem hc]
    rfl
  · rw [h.eq_of_mem_replyDmaster hmem hc]
    rfl

end DataAt

/-! ## The daemons as the nodes of a recovery -/

section Nodes

/-- The nodes a recovery works on are the daemons, with their databases: one
node for every pnn that has a daemon, and no other. -/
def NodesOf (s : CtdbCluster) (nodes : List ClusterNode) : Prop :=
  ∀ (p : UInt32) (l : Ltdb),
    (∃ m ∈ nodes, m.pnn = p ∧ m.ltdb = l) ↔ (s.daemons[p.toNat]?).map CtdbDaemon.ltdb = some l

variable {hash : TdbData → UInt32} {vnnMap : List UInt32} {s : CtdbCluster} {nodes : List ClusterNode}

theorem NodesOf.copy (h : NodesOf s nodes) {m : ClusterNode} (hm : m ∈ nodes) (key : TdbData) :
    s.copy m.pnn key = tdbFetch m.ltdb key := by
  obtain ⟨d, hd, hl⟩ := Option.map_eq_some_iff.mp ((h m.pnn m.ltdb).mp ⟨m, hm, rfl, rfl⟩)
  rw [copy_of_getElem? hd, hl]

theorem NodesOf.exists_of_copy (h : NodesOf s nodes) {p : UInt32} {key : TdbData} {c : LtdbHeader × TdbData}
    (hc : s.copy p key = some c) : ∃ m ∈ nodes, m.pnn = p ∧ tdbFetch m.ltdb key = some c := by
  obtain ⟨d, hd, hf⟩ := Option.bind_eq_some_iff.mp hc
  obtain ⟨m, hm, hp, hl⟩ := (h p d.ltdb).mpr (by rw [hd]; rfl)
  exact ⟨m, hm, hp, hl ▸ hf⟩

/-- The copy of a daemon that reads itself as the dmaster is above the copy of
every other node. -/
theorem DmasterInv.rsn_lt_of_nodes {key : TdbData} {t : DmasterToken} (h : DmasterInv hash vnnMap s key t)
    (hnodes : NodesOf s nodes) {p : UInt32} {c : LtdbHeader × TdbData} (hcp : s.copy p key = some c)
    (hdm : c.1.dmaster = p) :
    ∀ m ∈ nodes, m.pnn ≠ p → ∀ c', tdbFetch m.ltdb key = some c' → c'.1.rsn < c.1.rsn := by
  intro m hm hmp c' hc'
  exact h.rsn_lt_of_holder hcp hdm ((hnodes.copy hm key).trans hc') hmp

end Nodes

/-! ## A run to try the statements on

With hash `fun _ => 0` and vnn map `[0, 1]`, node 0 is the lmaster of every
record. Its client fetches the record `[5]` and writes `[9]` into it; then
node 1's client asks for the record, and node 0 hands it over. -/

/-- Node 0's client creates the record and writes it. -/
def sampleWrite : List CallEvent :=
  [.clientCall 0 [5] CTDB_FETCH_FUNC 0 7, .recordStore 0 [5] [9]]

/-- The state after `sampleWrite`: node 0's copy, bumped by the fetch, holds `[9]`. -/
def sampleWritten : CtdbCluster :=
  ⟨[⟨tdbStore ∅ [5] (⟨2, 0, 0⟩, [9]), [], .normal⟩, CtdbDaemon.attached], []⟩

/-- Node 1's client asks for the record: the request goes to node 0, which
sends the record back with the migrated-with-data mark. -/
def sampleHandover : List CallEvent :=
  [.clientCall 1 [5] CTDB_FETCH_FUNC 0 8, .deliver (.reqCall ⟨⟨1, 0, 8⟩, 0, CTDB_FETCH_FUNC, 0, [5]⟩),
    .deliver (.replyDmaster ⟨⟨0, 1, 8⟩, 2, [5], [9], CTDB_REC_FLAG_MIGRATED_WITH_DATA⟩)]

example : callRun (fun _ => 0) [0, 1] (callStart 2) sampleWrite = .ok sampleWritten := rfl

example : (callRun (fun _ => 0) [0, 1] sampleWritten sampleHandover).toOption.bind (·.copy 1 [5]) =
    some (⟨4, 1, CTDB_REC_FLAG_MIGRATED_WITH_DATA⟩, [9]) := rfl

/-! ## Safety after every run -/

section Runs

variable (hash : TdbData → UInt32) (vnnMap : List UInt32)

theorem callRun_no_fatal (n : Nat) {evs : List CallEvent} (hlen : evs.length ≤ 2 ^ 62) :
    ∃ s, callRun hash vnnMap (callStart n) evs = .ok s ∧ ∀ d ∈ s.daemons, d.recoveryMode = .normal := by
  obtain ⟨s, T, hrun, hI, -⟩ := callRun_inv n hlen
  exact ⟨s, hrun, hI.normal⟩

theorem callRun_no_fatal_handover :
    ∃ s, callRun (fun _ => 0) [0, 1] (callStart 2) (sampleWrite ++ sampleHandover) = .ok s ∧
      ∀ d ∈ s.daemons, d.recoveryMode = .normal :=
  callRun_no_fatal _ _ 2 (by decide)

theorem callRun_one_dmaster (n : Nat) {evs : List CallEvent} (hlen : evs.length ≤ 2 ^ 62) :
    ∃ s, callRun hash vnnMap (callStart n) evs = .ok s ∧
      ∀ (key : TdbData) (p : UInt32), (s.view hash vnnMap p key).dmaster = p →
        (∀ q, (s.view hash vnnMap q key).dmaster = q → q = p) ∧
        ∀ pkt ∈ s.inflight, pkt.carries key = false := by
  obtain ⟨s, T, hrun, hI, -⟩ := callRun_inv n hlen
  exact ⟨s, hrun, fun key p hp =>
    ⟨fun q hq => (hI.token key).eq_of_holder hp hq, (hI.token key).carries_eq_false hp⟩⟩

theorem callRun_one_dmaster_handover :
    ∃ s, callRun (fun _ => 0) [0, 1] (callStart 2) (sampleWrite ++ sampleHandover) = .ok s ∧
      ∀ (key : TdbData) (p : UInt32), (s.view (fun _ => 0) [0, 1] p key).dmaster = p →
        (∀ q, (s.view (fun _ => 0) [0, 1] q key).dmaster = q → q = p) ∧
          ∀ pkt ∈ s.inflight, pkt.carries key = false :=
  callRun_one_dmaster _ _ 2 (by decide)

theorem callRun_lmaster_routes (n : Nat) {evs : List CallEvent} (hlen : evs.length ≤ 2 ^ 62) :
    ∃ s, callRun hash vnnMap (callStart n) evs = .ok s ∧
      ∀ (key : TdbData) (p : UInt32), (s.view hash vnnMap (ctdbLmaster hash vnnMap key) key).dmaster = p →
        (s.view hash vnnMap p key).dmaster = p ∨
          (∃ c, CallPkt.reqDmaster c ∈ s.inflight ∧ c.key = key ∧ c.hdr.srcnode = p) ∨
          (∃ c, CallPkt.replyDmaster c ∈ s.inflight ∧ c.key = key ∧ c.hdr.destnode = p) := by
  obtain ⟨s, T, hrun, hI, -⟩ := callRun_inv n hlen
  exact ⟨s, hrun, fun key p hp => (hI.token key).lmaster_names hp⟩

theorem callRun_lmaster_routes_handover :
    ∃ s, callRun (fun _ => 0) [0, 1] (callStart 2) (sampleWrite ++ sampleHandover) = .ok s ∧
      ∀ (key : TdbData) (p : UInt32),
        (s.view (fun _ => 0) [0, 1] (ctdbLmaster (fun _ => 0) [0, 1] key) key).dmaster = p →
        (s.view (fun _ => 0) [0, 1] p key).dmaster = p ∨
          (∃ c, CallPkt.reqDmaster c ∈ s.inflight ∧ c.key = key ∧ c.hdr.srcnode = p) ∨
          (∃ c, CallPkt.replyDmaster c ∈ s.inflight ∧ c.key = key ∧ c.hdr.destnode = p) :=
  callRun_lmaster_routes _ _ 2 (by decide)

theorem callRun_dmaster_newest (n : Nat) {evs : List CallEvent} (hlen : evs.length ≤ 2 ^ 62) :
    ∃ s, callRun hash vnnMap (callStart n) evs = .ok s ∧
      (∀ (key : TdbData) (p q : UInt32) (hp hq : LtdbHeader) (dp dq : TdbData), s.copy p key = some (hp, dp) →
        hp.dmaster = p → s.copy q key = some (hq, dq) → q ≠ p → hq.rsn < hp.rsn) ∧
      ∀ (key : TdbData) (q : UInt32) (hq : LtdbHeader) (dq : TdbData), s.copy q key = some (hq, dq) →
        hq.rsn.toNat ≤ 2 * evs.length := by
  obtain ⟨s, T, hrun, hI, -⟩ := callRun_inv n hlen
  refine ⟨s, hrun, fun key p q hp hq dp dq hcp hdm hcq hne => (hI.token key).rsn_lt_of_holder hcp hdm hcq hne,
    fun key q hq dq hcq => ?_⟩
  -- no copy is above the token, whose rsn `CallInv` bounds
  have hle := (hI.token key).rsn_le hcq
  have hbound := hI.rsn key
  rw [UInt64.le_iff_toNat_le] at hle
  omega

theorem callRun_dmaster_newest_handover :
    ∃ s, callRun (fun _ => 0) [0, 1] (callStart 2) (sampleWrite ++ sampleHandover) = .ok s ∧
      (∀ (key : TdbData) (p q : UInt32) (hp hq : LtdbHeader) (dp dq : TdbData), s.copy p key = some (hp, dp) →
        hp.dmaster = p → s.copy q key = some (hq, dq) → q ≠ p → hq.rsn < hp.rsn) ∧
      ∀ (key : TdbData) (q : UInt32) (hq : LtdbHeader) (dq : TdbData), s.copy q key = some (hq, dq) →
        hq.rsn.toNat ≤ 2 * (sampleWrite ++ sampleHandover).length :=
  callRun_dmaster_newest _ _ 2 (by decide)

theorem callRun_stale_migrated (n : Nat) {evs : List CallEvent} (hlen : evs.length ≤ 2 ^ 62) :
    ∃ s, callRun hash vnnMap (callStart n) evs = .ok s ∧
      ∀ (key : TdbData) (q : UInt32) (hq : LtdbHeader) (dq : TdbData), s.copy q key = some (hq, dq) →
        q ≠ ctdbLmaster hash vnnMap key → hq.dmaster ≠ q →
        hq.flags &&& CTDB_REC_FLAG_MIGRATED_WITH_DATA ≠ 0 := by
  obtain ⟨s, T, hrun, hI, -⟩ := callRun_inv n hlen
  exact ⟨s, hrun, fun key q hq dq hcq hL hne => (hI.token key).migrated_of_stale hcq hL hne⟩

theorem callRun_stale_migrated_handover :
    ∃ s, callRun (fun _ => 0) [0, 1] (callStart 2) (sampleWrite ++ sampleHandover) = .ok s ∧
      ∀ (key : TdbData) (q : UInt32) (hq : LtdbHeader) (dq : TdbData), s.copy q key = some (hq, dq) →
        q ≠ ctdbLmaster (fun _ => 0) [0, 1] key → hq.dmaster ≠ q →
          hq.flags &&& CTDB_REC_FLAG_MIGRATED_WITH_DATA ≠ 0 :=
  callRun_stale_migrated _ _ 2 (by decide)

/-- The cluster refines one hand-over role per record. Along the run there are
tokens `T i`, one family after each prefix of `i` events, related by
`DmasterInv` to the state that prefix leaves: they start with every record held
by its lmaster, and each event leaves them as they were or moves the role of
one record by one hop of `Place.Move`. -/
theorem callRun_refines (n : Nat) {evs : List CallEvent} (hlen : evs.length ≤ 2 ^ 62) :
    ∃ T : Nat → TdbData → DmasterToken,
      (∀ key, T 0 key = .held (ctdbLmaster hash vnnMap key)) ∧
      (∀ i ≤ evs.length, ∃ s, callRun hash vnnMap (callStart n) (evs.take i) = .ok s ∧
        ∀ key, DmasterInv hash vnnMap s key (T i key)) ∧
      ∀ i < evs.length, T (i + 1) = T i ∨
        ∃ key, Place.Move (ctdbLmaster hash vnnMap key) (T i key).place (T (i + 1) key).place ∧
          ∀ key', key' ≠ key → T (i + 1) key' = T i key' := by
  obtain ⟨T, hT0, hprefix, hsteps⟩ :=
    foldlM_simulation_trace callStep_simulates evs 0 _ _ (fun _ _ => trivial) (callInv_start hash vnnMap n)
      (by omega)
  refine ⟨T, fun key => by rw [hT0]; rfl, fun i hi => ?_, fun i hi => ?_⟩
  · obtain ⟨s, hrun, hI⟩ := hprefix i hi
    exact ⟨s, hrun, hI.token⟩
  · -- one step of the family of roles is one hop of one record's role
    exact (reflGen_iff _ _ _).mp (hsteps i hi)

theorem callRun_refines_handover :
    ∃ T : Nat → TdbData → DmasterToken,
      (∀ key, T 0 key = .held (ctdbLmaster (fun _ => 0) [0, 1] key)) ∧
      (∀ i ≤ (sampleWrite ++ sampleHandover).length, ∃ s,
        callRun (fun _ => 0) [0, 1] (callStart 2) ((sampleWrite ++ sampleHandover).take i) = .ok s ∧
          ∀ key, DmasterInv (fun _ => 0) [0, 1] s key (T i key)) ∧
      ∀ i < (sampleWrite ++ sampleHandover).length, T (i + 1) = T i ∨
        ∃ key, Place.Move (ctdbLmaster (fun _ => 0) [0, 1] key) (T i key).place (T (i + 1) key).place ∧
          ∀ key', key' ≠ key → T (i + 1) key' = T i key' :=
  callRun_refines _ _ 2 (by decide)

/-- A record a daemon holds after a run keeps its data through every later
event that is not a client's write of it. -/
theorem callRun_no_lost_update (n : Nat) {evs₀ evs₁ : List CallEvent} {s₀ : CtdbCluster} {key v : TdbData}
    {p : UInt32} {hp : LtdbHeader} (h₀ : callRun hash vnnMap (callStart n) evs₀ = .ok s₀)
    (hcp : s₀.copy p key = some (hp, v)) (hdm : hp.dmaster = p)
    (hnone : ∀ e ∈ evs₁, ∀ q v', e ≠ .recordStore q key v')
    (hlen : evs₀.length + evs₁.length ≤ 2 ^ 62) :
    ∃ s₁, callRun hash vnnMap s₀ evs₁ = .ok s₁ ∧ DataAt hash vnnMap s₁ key v := by
  obtain ⟨s, T, hrun, hI, -⟩ := callRun_inv n (by omega : evs₀.length ≤ 2 ^ 62)
  have hs : s = s₀ := by
    rw [h₀] at hrun
    exact (Except.ok.inj hrun).symm
  subst hs
  -- the holder's data is the token's, which the later events carry along
  have hv : (T key).data s key = v := (hI.token key).data_of_holder hcp hdm
  obtain ⟨s₁, T₁, hrun₁, ⟨hI₁, hv₁⟩, -⟩ :=
    foldlM_simulation_from (callStep_simulates_data key v) evs₁ evs₀.length s T hnone ⟨hI, hv⟩ hlen
  refine ⟨s₁, hrun₁, ?_⟩
  rw [← hv₁]
  exact (hI₁.token key).dataAt

theorem callRun_no_lost_update_handover :
    ∃ s₁, callRun (fun _ => 0) [0, 1] sampleWritten sampleHandover = .ok s₁ ∧
      DataAt (fun _ => 0) [0, 1] s₁ [5] [9] :=
  callRun_no_lost_update (fun _ => 0) [0, 1] 2
    (show callRun (fun _ => 0) [0, 1] (callStart 2) sampleWrite = .ok sampleWritten from rfl)
    (show sampleWritten.copy 0 [5] = some (⟨2, 0, 0⟩, [9]) from rfl) rfl (by simp [sampleHandover]) (by decide)

/-! ## Recovery after a run -/

/-- With no record in flight, the daemons' databases after a run meet the
assumption of a recovery that keeps the latest copy of every record. -/
theorem callRun_quiet_dmasterCopyHighest (n : Nat) {evs : List CallEvent} (hlen : evs.length ≤ 2 ^ 62) :
    ∃ s, callRun hash vnnMap (callStart n) evs = .ok s ∧
      ∀ nodes, NodesOf s nodes → (∀ key, ∀ pkt ∈ s.inflight, pkt.carries key = false) →
        DmasterCopyHighest nodes := by
  obtain ⟨s, T, hrun, hI, -⟩ := callRun_inv n hlen
  refine ⟨s, hrun, fun nodes hnodes hquiet key ⟨m, hm, hsome⟩ => ?_⟩
  obtain ⟨p, hp⟩ := (hI.token key).exists_holder (hquiet key)
  cases hcp : s.copy p key with
  | none =>
      -- a holder without a copy leaves no copy anywhere
      rw [← hnodes.copy hm key, (hI.token key).copy_eq_none hp hcp m.pnn] at hsome
      exact absurd rfl hsome
  | some c =>
      have hdm : c.1.dmaster = p := by
        rw [view_of_copy hcp] at hp
        exact hp
      obtain ⟨d, hd, rfl, hc⟩ := hnodes.exists_of_copy hcp
      exact ⟨d, hd, c, hc, hdm, (hI.token key).rsn_lt_of_nodes hnodes hcp hdm⟩

theorem callRun_quiet_dmasterCopyHighest_handover :
    ∃ s, callRun (fun _ => 0) [0, 1] (callStart 2) (sampleWrite ++ sampleHandover) = .ok s ∧
      ∀ nodes, NodesOf s nodes → (∀ key, ∀ pkt ∈ s.inflight, pkt.carries key = false) →
        DmasterCopyHighest nodes :=
  callRun_quiet_dmasterCopyHighest _ _ 2 (by decide)

end Runs

end Ctdb.Migration

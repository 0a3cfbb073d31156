import Ctdb.Proofs.MigrationStore
import Ctdb.Lib.Simulation
import Ctdb.Lib.Handoff

/-!
# One dmaster per record, under any order of delivery

For every key the dmaster role is in exactly one place: with a daemon whose
copy names itself, in the one `CTDB_REQ_DMASTER` on its way to the lmaster, or
in the one `CTDB_REPLY_DMASTER` on its way to the new dmaster. `DmasterToken`
says which, and `DmasterInv` is what holds of the cluster with the token
there:

* every copy has clean flags, and the packets in flight that carry the record
  are the token's;
* a daemon's copy (or, on the lmaster, the header its fetch makes up) names
  the daemon itself exactly when the daemon holds the token;
* the lmaster's copy names the token's holder, the sender of the request on
  its way in, or the receiver of the reply on its way out;
* every other copy is older than the token: strictly, when a daemon holds
  it;
* a copy left on a node other than the lmaster by a migration carries
  `CTDB_REC_FLAG_MIGRATED_WITH_DATA`, and then so does the token, so that a
  store that drops an empty record drops no other node's copy.

A step changes the copies of one daemon, takes one packet out of the network
and puts new ones in; `DmasterInv.update` reduces the invariant after it to
facts about that daemon and the new token, and `DmasterInv.frame` covers a
step that changes nothing of the key.
-/

namespace Ctdb.Migration

open Lib

/-! ## The cluster's view of one record -/

/-- The copy of `key` in the database of the daemon of `pnn`. -/
def CtdbCluster.copy (s : CtdbCluster) (pnn : UInt32) (key : TdbData) : Option (LtdbHeader × TdbData) :=
  (s.daemons[pnn.toNat]?).bind fun d => tdbFetch d.ltdb key

/-- Whether a packet carries the record of `key` from one node to another. -/
def CallPkt.carries (key : TdbData) : CallPkt → Bool
  | .reqCall _ => false
  | .reqDmaster c => c.key == key
  | .replyDmaster c => c.key == key

/-- The key a packet is about. -/
def CallPkt.key : CallPkt → TdbData
  | .reqCall c => c.key
  | .reqDmaster c => c.key
  | .replyDmaster c => c.key

/-- Where the dmaster role of a record is. -/
inductive DmasterToken
  | held (pnn : UInt32)
  | reqDmaster (c : ReqDmasterPkt)
  | replyDmaster (c : ReplyDmasterPkt)
  deriving DecidableEq

namespace DmasterToken

/-- The packets in flight that carry the record. -/
def pkts : DmasterToken → List CallPkt
  | held _ => []
  | reqDmaster c => [.reqDmaster c]
  | replyDmaster c => [.replyDmaster c]

/-- The node the lmaster's copy names. -/
def pointer : DmasterToken → UInt32
  | held pnn => pnn
  | reqDmaster c => c.hdr.srcnode
  | replyDmaster c => c.hdr.destnode

def inTransit : DmasterToken → Bool
  | held _ => false
  | _ => true

/-- Where the token is, forgetting what the packets carry. -/
def place : DmasterToken → Place UInt32
  | held pnn => .held pnn
  | reqDmaster c => .toHome c.hdr.srcnode c.dmaster
  | replyDmaster c => .fromHome c.hdr.destnode

end DmasterToken

section View

variable (hash : TdbData → UInt32) (vnnMap : List UInt32)

/-- The header the daemon of `pnn` reads for `key`: its copy's, or the initial
header naming the lmaster that a fetch makes up. -/
def CtdbCluster.view (s : CtdbCluster) (pnn : UInt32) (key : TdbData) : LtdbHeader :=
  ((s.copy pnn key).map Prod.fst).getD (ltdbInitialHeader (ctdbLmaster hash vnnMap key))

/-- The record sequence number the token carries. -/
def DmasterToken.rsn (s : CtdbCluster) (key : TdbData) : DmasterToken → UInt64
  | held pnn => (s.view hash vnnMap pnn key).rsn
  | reqDmaster c => c.rsn
  | replyDmaster c => c.rsn

/-- The record flags the token carries. -/
def DmasterToken.flags (s : CtdbCluster) (key : TdbData) : DmasterToken → UInt32
  | held pnn => (s.view hash vnnMap pnn key).flags
  | reqDmaster c => c.recordFlags
  | replyDmaster c => c.recordFlags

/-- The data the token carries. -/
def DmasterToken.data (s : CtdbCluster) (key : TdbData) : DmasterToken → TdbData
  | held pnn => ((s.copy pnn key).map Prod.snd).getD []
  | reqDmaster c => c.data
  | replyDmaster c => c.data

/-- A packet that carries the token is about the key, has clean flags, and a
request goes to the lmaster. -/
def DmasterToken.Sent (key : TdbData) : DmasterToken → Prop
  | held _ => True
  | reqDmaster c => c.key = key ∧ c.hdr.destnode = ctdbLmaster hash vnnMap key ∧ CleanFlags c.recordFlags
  | replyDmaster c => c.key = key ∧ CleanFlags c.recordFlags

/-- A copy's rsn below the token's: strictly, unless the token is in transit and
the copy is the one it left behind. -/
def DmasterToken.Above (t : DmasterToken) (r tr : UInt64) : Prop :=
  r < tr ∨ (t.inTransit = true ∧ r = tr)

structure DmasterInv (s : CtdbCluster) (key : TdbData) (t : DmasterToken) : Prop where
  clean : ∀ p h d, s.copy p key = some (h, d) → CleanFlags h.flags
  inflight : s.inflight.filter (CallPkt.carries key) = t.pkts
  sent : t.Sent hash vnnMap key
  holder : ∀ p, (s.view hash vnnMap p key).dmaster = p ↔ t = .held p
  lmaster : (s.view hash vnnMap (ctdbLmaster hash vnnMap key) key).dmaster = t.pointer
  newest : ∀ p h d, s.copy p key = some (h, d) → t ≠ .held p → t.Above h.rsn (t.rsn hash vnnMap s key)
  migrated : ∀ p h d, s.copy p key = some (h, d) → p ≠ ctdbLmaster hash vnnMap key → t ≠ .held p →
    h.flags &&& CTDB_REC_FLAG_MIGRATED_WITH_DATA ≠ 0 ∧
      t.flags hash vnnMap s key &&& CTDB_REC_FLAG_MIGRATED_WITH_DATA ≠ 0

end View

theorem DmasterToken.Above.mono {t t' : DmasterToken} {r a b : UInt64} (h : t.Above r a) (hab : a ≤ b)
    (hlt : t.inTransit = true → t'.inTransit = false → a < b) : t'.Above r b := by
  rcases h with hra | ⟨htr, rfl⟩
  · exact Or.inl (UInt64.lt_of_lt_of_le hra hab)
  · cases ht' : t'.inTransit
    · exact Or.inl (hlt htr ht')
    · rcases UInt64.le_iff_lt_or_eq.mp hab with hlt' | heq
      · exact Or.inl hlt'
      · exact Or.inr ⟨ht', heq⟩

/-! ## Changing one daemon -/

section Update

variable {hash : TdbData → UInt32} {vnnMap : List UInt32}

theorem copy_set {s : CtdbCluster} {p : UInt32} {d : CtdbDaemon} (hp : s.daemons[p.toNat]? = some d)
    (d' : CtdbDaemon) (inflight : List CallPkt) (q : UInt32) (key : TdbData) :
    (⟨s.daemons.set p.toNat d', inflight⟩ : CtdbCluster).copy q key =
      if q = p then tdbFetch d'.ltdb key else s.copy q key := by
  have hlen : p.toNat < s.daemons.length := (List.getElem?_eq_some_iff.mp hp).1
  unfold CtdbCluster.copy
  by_cases hq : q = p
  · subst hq
    simp [hlen]
  · have hne : p.toNat ≠ q.toNat := fun h => hq (UInt32.toNat_inj.mp h).symm
    simp [hne, hq]

theorem copy_of_getElem? {s : CtdbCluster} {p : UInt32} {d : CtdbDaemon} (hp : s.daemons[p.toNat]? = some d)
    (key : TdbData) : s.copy p key = tdbFetch d.ltdb key := by
  simp [CtdbCluster.copy, hp]

theorem view_congr {s s' : CtdbCluster} {q : UInt32} {key : TdbData} (h : s'.copy q key = s.copy q key) :
    s'.view hash vnnMap q key = s.view hash vnnMap q key := by
  simp only [CtdbCluster.view, h]

/-- The token's record is the holder's copy, so it stays when that copy does. -/
theorem DmasterToken.fields_congr {s s' : CtdbCluster} {key : TdbData} {t : DmasterToken}
    (h : ∀ q, t = .held q → s'.copy q key = s.copy q key) :
    t.rsn hash vnnMap s' key = t.rsn hash vnnMap s key ∧ t.flags hash vnnMap s' key = t.flags hash vnnMap s key ∧
      t.data s' key = t.data s key := by
  cases t with
  | held o =>
      have hc := h o rfl
      simp only [DmasterToken.rsn, DmasterToken.flags, DmasterToken.data, view_congr hc, hc, and_self]
  | reqDmaster c => exact ⟨rfl, rfl, rfl⟩
  | replyDmaster c => exact ⟨rfl, rfl, rfl⟩

/-- A step that leaves every copy of the key and the packets carrying it as they
were keeps the invariant. -/
theorem DmasterInv.frame {s s' : CtdbCluster} {key : TdbData} {t : DmasterToken}
    (h : DmasterInv hash vnnMap s key t) (hcopy : ∀ q, s'.copy q key = s.copy q key)
    (hinflight : s'.inflight.filter (CallPkt.carries key) = s.inflight.filter (CallPkt.carries key)) :
    DmasterInv hash vnnMap s' key t := by
  obtain ⟨hrsn, hflags, -⟩ := @DmasterToken.fields_congr hash vnnMap _ _ _ _ fun q _ => hcopy q
  refine ⟨?_, hinflight.trans h.inflight, h.sent, ?_, ?_, ?_, ?_⟩
  · intro q hd d hq
    exact h.clean q hd d ((hcopy q).symm.trans hq)
  · intro q
    rw [view_congr (hcopy q)]
    exact h.holder q
  · rw [view_congr (hcopy _)]
    exact h.lmaster
  · intro q hd d hq hne
    rw [hrsn]
    exact h.newest q hd d ((hcopy q).symm.trans hq) hne
  · intro q hd d hq hL hne
    rw [hflags]
    exact h.migrated q hd d ((hcopy q).symm.trans hq) hL hne

/-- The invariant after a step that changes the copy of the daemon of `p` only:
what is left to show is about that daemon and the new token. -/
theorem DmasterInv.update {s s' : CtdbCluster} {key : TdbData} {t t' : DmasterToken} (p : UInt32)
    (h : DmasterInv hash vnnMap s key t)
    (hothers : ∀ q, q ≠ p → s'.copy q key = s.copy q key)
    (hinflight : s'.inflight.filter (CallPkt.carries key) = t'.pkts)
    (hsent : t'.Sent hash vnnMap key)
    (hholders : ∀ q, q ≠ p → (t = .held q ↔ t' = .held q))
    (hholder : (s'.view hash vnnMap p key).dmaster = p ↔ t' = .held p)
    (hlmaster : (s'.view hash vnnMap (ctdbLmaster hash vnnMap key) key).dmaster = t'.pointer)
    (hclean : ∀ hd d, s'.copy p key = some (hd, d) → CleanFlags hd.flags)
    (habove : ∀ q hd d, q ≠ p → s.copy q key = some (hd, d) → t ≠ .held q →
      t.Above hd.rsn (t.rsn hash vnnMap s key) → t'.Above hd.rsn (t'.rsn hash vnnMap s' key))
    (hnewest : ∀ hd d, s'.copy p key = some (hd, d) → t' ≠ .held p →
      t'.Above hd.rsn (t'.rsn hash vnnMap s' key))
    (hmwd : t.flags hash vnnMap s key &&& CTDB_REC_FLAG_MIGRATED_WITH_DATA ≠ 0 →
      t'.flags hash vnnMap s' key &&& CTDB_REC_FLAG_MIGRATED_WITH_DATA ≠ 0)
    (hmigrated : ∀ hd d, s'.copy p key = some (hd, d) → p ≠ ctdbLmaster hash vnnMap key → t' ≠ .held p →
      hd.flags &&& CTDB_REC_FLAG_MIGRATED_WITH_DATA ≠ 0 ∧
        t'.flags hash vnnMap s' key &&& CTDB_REC_FLAG_MIGRATED_WITH_DATA ≠ 0) :
    DmasterInv hash vnnMap s' key t' := by
  refine ⟨?_, hinflight, hsent, ?_, hlmaster, ?_, ?_⟩
  · intro q hd d hq
    by_cases hqp : q = p
    · subst hqp
      exact hclean hd d hq
    · exact h.clean q hd d ((hothers q hqp).symm.trans hq)
  · intro q
    by_cases hqp : q = p
    · subst hqp
      exact hholder
    · rw [view_congr (hothers q hqp)]
      exact (h.holder q).trans (hholders q hqp)
  · intro q hd d hq hne
    by_cases hqp : q = p
    · subst hqp
      exact hnewest hd d hq hne
    · have hq' := (hothers q hqp).symm.trans hq
      have hne' : t ≠ .held q := fun e => hne ((hholders q hqp).mp e)
      exact habove q hd d hqp hq' hne' (h.newest q hd d hq' hne')
  · intro q hd d hq hL hne
    by_cases hqp : q = p
    · subst hqp
      exact hmigrated hd d hq hL hne
    · have hq' := (hothers q hqp).symm.trans hq
      have hne' : t ≠ .held q := fun e => hne ((hholders q hqp).mp e)
      have hold := h.migrated q hd d hq' hL hne'
      exact ⟨hold.1, hmwd hold.2⟩

theorem view_of_copy {s : CtdbCluster} {p : UInt32} {key : TdbData} {hd : LtdbHeader} {dt : TdbData}
    (h : s.copy p key = some (hd, dt)) : s.view hash vnnMap p key = hd := by
  simp [CtdbCluster.view, h]

theorem view_of_copy_none {s : CtdbCluster} {p : UInt32} {key : TdbData} (h : s.copy p key = none) :
    s.view hash vnnMap p key = ltdbInitialHeader (ctdbLmaster hash vnnMap key) := by
  simp [CtdbCluster.view, h]

end Update

/-! ## The token's hops

One lemma for each way a step moves the token, and one for the holder writing
its copy back. Each takes what the step did to the one daemon it changed and
to the packets carrying the record, and reduces to `DmasterInv.update`.
-/

section Transitions

variable {hash : TdbData → UInt32} {vnnMap : List UInt32} {s s' : CtdbCluster} {key : TdbData}

/-- The sender of the request on its way in is not the lmaster: the lmaster's
copy names it, and names the lmaster only while the lmaster holds the token. -/
theorem DmasterInv.src_ne_lmaster {c : ReqDmasterPkt} (h : DmasterInv hash vnnMap s key (.reqDmaster c)) :
    c.hdr.srcnode ≠ ctdbLmaster hash vnnMap key := by
  intro heq
  have hview : (s.view hash vnnMap (ctdbLmaster hash vnnMap key) key).dmaster = ctdbLmaster hash vnnMap key :=
    h.lmaster.trans heq
  exact absurd ((h.holder _).mp hview) (by simp)

theorem DmasterInv.dest_ne_lmaster {c : ReplyDmasterPkt} (h : DmasterInv hash vnnMap s key (.replyDmaster c)) :
    c.hdr.destnode ≠ ctdbLmaster hash vnnMap key := by
  intro heq
  have hview : (s.view hash vnnMap (ctdbLmaster hash vnnMap key) key).dmaster = ctdbLmaster hash vnnMap key :=
    h.lmaster.trans heq
  exact absurd ((h.holder _).mp hview) (by simp)

/-- The holder writes its copy back, naming itself, no older than it was, and
still marked as migrated with data if it was. -/
theorem DmasterInv.rewrite {p : UInt32} {hd : LtdbHeader} {dt : TdbData}
    (h : DmasterInv hash vnnMap s key (.held p)) (hothers : ∀ q, q ≠ p → s'.copy q key = s.copy q key)
    (hinflight : s'.inflight.filter (CallPkt.carries key) = [])
    (hnew : s'.copy p key = some (hd, dt)) (hdm : hd.dmaster = p) (hclean : CleanFlags hd.flags)
    (hrsn : (s.view hash vnnMap p key).rsn ≤ hd.rsn)
    (hmwd : (s.view hash vnnMap p key).flags &&& CTDB_REC_FLAG_MIGRATED_WITH_DATA ≠ 0 →
      hd.flags &&& CTDB_REC_FLAG_MIGRATED_WITH_DATA ≠ 0) :
    DmasterInv hash vnnMap s' key (.held p) := by
  have hview : s'.view hash vnnMap p key = hd := view_of_copy hnew
  refine h.update p hothers hinflight trivial (fun _ _ => Iff.rfl) ?_ ?_ ?_ ?_ ?_ ?_ ?_
  · rw [hview, hdm]
    exact iff_of_true rfl rfl
  · by_cases hL : ctdbLmaster hash vnnMap key = p
    · rw [hL, hview, hdm]
      rfl
    · rw [view_congr (hothers _ hL)]
      exact h.lmaster
  · intro hd' dt' h'
    rw [hnew, Option.some.injEq, Prod.mk.injEq] at h'
    exact h'.1 ▸ hclean
  · intro q hd' dt' _ _ _ habove
    refine habove.mono ?_ (fun htr => by cases htr)
    simp only [DmasterToken.rsn, hview]
    exact hrsn
  · intro _ _ _ hne
    exact absurd rfl hne
  · intro hm
    simp only [DmasterToken.flags, hview] at hm ⊢
    exact hmwd hm
  · intro _ _ _ _ hne
    exact absurd rfl hne

/-- A dmaster other than the lmaster gives the record up: its copy names the
new dmaster, and is kept only when marked as migrated with data. -/
theorem DmasterInv.give {p : UInt32} {c : ReqDmasterPkt} (h : DmasterInv hash vnnMap s key (.held p))
    (hL : p ≠ ctdbLmaster hash vnnMap key) (hothers : ∀ q, q ≠ p → s'.copy q key = s.copy q key)
    (hinflight : s'.inflight.filter (CallPkt.carries key) = [.reqDmaster c])
    (hsent : DmasterToken.Sent hash vnnMap key (.reqDmaster c)) (hsrc : c.hdr.srcnode = p) (hdm : c.dmaster ≠ p)
    (hrsn : (s.view hash vnnMap p key).rsn ≤ c.rsn)
    (hmwd : (s.view hash vnnMap p key).flags &&& CTDB_REC_FLAG_MIGRATED_WITH_DATA ≠ 0 →
      c.recordFlags &&& CTDB_REC_FLAG_MIGRATED_WITH_DATA ≠ 0)
    (hnew : s'.copy p key = none ∨ (s'.copy p key = some (⟨c.rsn, c.dmaster, c.recordFlags⟩, c.data) ∧
      c.recordFlags &&& CTDB_REC_FLAG_MIGRATED_WITH_DATA ≠ 0)) :
    DmasterInv hash vnnMap s' key (.reqDmaster c) := by
  have hview : (s'.view hash vnnMap p key).dmaster ≠ p := by
    rcases hnew with hnone | ⟨hsome, -⟩
    · rw [view_of_copy_none hnone]
      exact Ne.symm hL
    · rw [view_of_copy hsome]
      exact hdm
  refine h.update p hothers hinflight hsent (fun q hq => iff_of_false (by simpa using Ne.symm hq) (by simp))
    (iff_of_false hview (by simp)) ?_ ?_ ?_ ?_ hmwd ?_
  · rw [view_congr (hothers _ (Ne.symm hL)), h.lmaster]
    exact hsrc.symm
  · intro hd dt h'
    rcases hnew with hnone | ⟨hsome, -⟩
    · rw [hnone] at h'
      cases h'
    · rw [hsome, Option.some.injEq, Prod.mk.injEq] at h'
      exact h'.1 ▸ hsent.2.2
  · intro q hd dt _ _ _ habove
    exact habove.mono hrsn (fun htr => by cases htr)
  · intro hd dt h' _
    rcases hnew with hnone | ⟨hsome, -⟩
    · rw [hnone] at h'
      cases h'
    · rw [hsome, Option.some.injEq, Prod.mk.injEq] at h'
      exact Or.inr ⟨rfl, by rw [← h'.1]; rfl⟩
  · intro hd dt h' _ _
    rcases hnew with hnone | ⟨hsome, hm⟩
    · rw [hnone] at h'
      cases h'
    · rw [hsome, Option.some.injEq, Prod.mk.injEq] at h'
      exact ⟨h'.1 ▸ hm, hm⟩

/-- The lmaster as dmaster sends the record to the caller: its copy names the
caller. -/
theorem DmasterInv.send {c : ReplyDmasterPkt}
    (h : DmasterInv hash vnnMap s key (.held (ctdbLmaster hash vnnMap key)))
    (hothers : ∀ q, q ≠ ctdbLmaster hash vnnMap key → s'.copy q key = s.copy q key)
    (hinflight : s'.inflight.filter (CallPkt.carries key) = [.replyDmaster c])
    (hsent : DmasterToken.Sent hash vnnMap key (.replyDmaster c))
    (hdest : c.hdr.destnode ≠ ctdbLmaster hash vnnMap key)
    (hrsn : (s.view hash vnnMap (ctdbLmaster hash vnnMap key) key).rsn ≤ c.rsn)
    (hmwd : (s.view hash vnnMap (ctdbLmaster hash vnnMap key) key).flags &&& CTDB_REC_FLAG_MIGRATED_WITH_DATA ≠ 0 →
      c.recordFlags &&& CTDB_REC_FLAG_MIGRATED_WITH_DATA ≠ 0)
    (hnew : s'.copy (ctdbLmaster hash vnnMap key) key = some (⟨c.rsn, c.hdr.destnode, c.recordFlags⟩, c.data)) :
    DmasterInv hash vnnMap s' key (.replyDmaster c) := by
  have hview := @view_of_copy hash vnnMap _ _ _ _ _ hnew
  refine h.update _ hothers hinflight hsent (fun q hq => iff_of_false (by simpa using Ne.symm hq) (by simp))
    (iff_of_false (by rw [hview]; exact hdest) (by simp)) (by rw [hview]; rfl) ?_ ?_ ?_ hmwd ?_
  · intro hd dt h'
    rw [hnew, Option.some.injEq, Prod.mk.injEq] at h'
    exact h'.1 ▸ hsent.2
  · intro q hd dt _ _ _ habove
    exact habove.mono hrsn (fun htr => by cases htr)
  · intro hd dt h' _
    rw [hnew, Option.some.injEq, Prod.mk.injEq] at h'
    exact Or.inr ⟨rfl, by rw [← h'.1]; rfl⟩
  · intro _ _ _ hL _
    exact absurd rfl hL

/-- The lmaster passes a record given up for another node on to it: its copy
names that node. -/
theorem DmasterInv.forward {c : ReqDmasterPkt} {reqid : UInt32} (h : DmasterInv hash vnnMap s key (.reqDmaster c))
    (hothers : ∀ q, q ≠ ctdbLmaster hash vnnMap key → s'.copy q key = s.copy q key)
    (hinflight : s'.inflight.filter (CallPkt.carries key) =
      [.replyDmaster ⟨⟨ctdbLmaster hash vnnMap key, c.dmaster, reqid⟩, c.rsn, c.key, c.data, c.recordFlags⟩])
    (hdm : c.dmaster ≠ ctdbLmaster hash vnnMap key)
    (hnew : s'.copy (ctdbLmaster hash vnnMap key) key = some (⟨c.rsn, c.dmaster, c.recordFlags⟩, c.data)) :
    DmasterInv hash vnnMap s' key
      (.replyDmaster
        ⟨⟨ctdbLmaster hash vnnMap key, c.dmaster, reqid⟩, c.rsn, c.key, c.data, c.recordFlags⟩) := by
  have hview := @view_of_copy hash vnnMap _ _ _ _ _ hnew
  refine h.update _ hothers hinflight ⟨h.sent.1, h.sent.2.2⟩ (fun q _ => iff_of_false (by simp) (by simp))
    (iff_of_false (by rw [hview]; exact hdm) (by simp)) (by rw [hview]; rfl) ?_ ?_ ?_ id ?_
  · intro hd dt h'
    rw [hnew, Option.some.injEq, Prod.mk.injEq] at h'
    exact h'.1 ▸ h.sent.2.2
  · -- the record keeps its rsn on its way through the lmaster
    intro q hd dt _ _ _ habove
    exact habove.mono (UInt64.le_refl c.rsn) (fun _ htr => by cases htr)
  · intro hd dt h' _
    rw [hnew, Option.some.injEq, Prod.mk.injEq] at h'
    exact Or.inr ⟨rfl, by rw [← h'.1]; rfl⟩
  · intro _ _ _ hL _
    exact absurd rfl hL

/-- The lmaster keeps a record given up for it: its copy names itself, newer
than the record came, or, after a vacuum migration of an empty record never
migrated with data, there is no copy at all. -/
theorem DmasterInv.reclaim {c : ReqDmasterPkt} (h : DmasterInv hash vnnMap s key (.reqDmaster c))
    (hothers : ∀ q, q ≠ ctdbLmaster hash vnnMap key → s'.copy q key = s.copy q key)
    (hinflight : s'.inflight.filter (CallPkt.carries key) = [])
    (hnew : (∃ r, s'.copy (ctdbLmaster hash vnnMap key) key =
        some (⟨r, ctdbLmaster hash vnnMap key, c.recordFlags⟩, c.data) ∧ c.rsn < r) ∨
      (s'.copy (ctdbLmaster hash vnnMap key) key = none ∧ c.recordFlags &&& CTDB_REC_FLAG_MIGRATED_WITH_DATA = 0)) :
    DmasterInv hash vnnMap s' key (.held (ctdbLmaster hash vnnMap key)) := by
  have hview : (s'.view hash vnnMap (ctdbLmaster hash vnnMap key) key).dmaster = ctdbLmaster hash vnnMap key := by
    rcases hnew with ⟨r, hsome, -⟩ | ⟨hnone, -⟩
    · rw [view_of_copy hsome]
    · rw [view_of_copy_none hnone]
      rfl
  refine h.update _ hothers hinflight trivial (fun q hq => iff_of_false (by simp) (by simpa using Ne.symm hq))
    (iff_of_true hview rfl) hview ?_ ?_ (fun _ _ _ hne => absurd rfl hne) ?_ (fun _ _ _ _ hne => absurd rfl hne)
  · intro hd dt h'
    rcases hnew with ⟨r, hsome, -⟩ | ⟨hnone, -⟩
    · rw [hsome, Option.some.injEq, Prod.mk.injEq] at h'
      exact h'.1 ▸ h.sent.2.2
    · rw [hnone] at h'
      cases h'
  · intro q hd dt hq hcopy hne habove
    rcases hnew with ⟨r, hsome, hr⟩ | ⟨-, hm⟩
    · refine habove.mono ?_ (fun _ _ => ?_) <;> simp only [DmasterToken.rsn, view_of_copy hsome]
      · exact UInt64.le_of_lt hr
      · exact hr
    · -- an empty record was dropped: a copy left elsewhere would carry the mark
      exact absurd hm (h.migrated q hd dt hcopy hq hne).2
  · intro hm
    rcases hnew with ⟨r, hsome, -⟩ | ⟨-, hm'⟩
    · simp only [DmasterToken.flags, view_of_copy hsome]
      exact hm
    · exact absurd hm' hm

/-- The new dmaster takes the record the lmaster sent it: its copy names itself,
newer than the record came. -/
theorem DmasterInv.take {c : ReplyDmasterPkt} {r : UInt64} (h : DmasterInv hash vnnMap s key (.replyDmaster c))
    (hothers : ∀ q, q ≠ c.hdr.destnode → s'.copy q key = s.copy q key)
    (hinflight : s'.inflight.filter (CallPkt.carries key) = [])
    (hnew : s'.copy c.hdr.destnode key = some (⟨r, c.hdr.destnode, c.recordFlags⟩, c.data)) (hr : c.rsn < r) :
    DmasterInv hash vnnMap s' key (.held c.hdr.destnode) := by
  have hview := @view_of_copy hash vnnMap _ _ _ _ _ hnew
  have hL := h.dest_ne_lmaster
  refine h.update _ hothers hinflight trivial (fun q hq => iff_of_false (by simp) (by simpa using Ne.symm hq))
    (iff_of_true (by rw [hview]) rfl) ?_ ?_ ?_ (fun _ _ _ hne => absurd rfl hne) ?_
    (fun _ _ _ _ hne => absurd rfl hne)
  · rw [view_congr (hothers _ (Ne.symm hL))]
    exact h.lmaster
  · intro hd dt h'
    rw [hnew, Option.some.injEq, Prod.mk.injEq] at h'
    exact h'.1 ▸ h.sent.2
  · intro q hd dt _ _ _ habove
    refine habove.mono ?_ (fun _ _ => ?_) <;> simp only [DmasterToken.rsn, hview]
    · exact UInt64.le_of_lt hr
    · exact hr
  · intro hm
    simp only [DmasterToken.flags, hview]
    exact hm

end Transitions

/-! ## What the invariant says about a state -/

section Consequences

variable {hash : TdbData → UInt32} {vnnMap : List UInt32} {s : CtdbCluster} {key : TdbData} {t : DmasterToken}

/-- The one packet that carries the token is in flight, and a delivered packet
that carries the record is that one. -/
theorem DmasterInv.pkts_of_mem {pkt : CallPkt} (h : DmasterInv hash vnnMap s key t) (hmem : pkt ∈ s.inflight)
    (hc : pkt.carries key = true) : t.pkts = [pkt] := by
  have hin : pkt ∈ t.pkts := h.inflight ▸ List.mem_filter.mpr ⟨hmem, hc⟩
  cases t with
  | held p => cases hin
  | reqDmaster c => rw [List.mem_singleton.mp hin]; rfl
  | replyDmaster c => rw [List.mem_singleton.mp hin]; rfl

theorem DmasterInv.eq_of_mem_reqDmaster {c : ReqDmasterPkt} (h : DmasterInv hash vnnMap s key t)
    (hmem : .reqDmaster c ∈ s.inflight) (hc : c.key = key) : t = .reqDmaster c := by
  have hpk := h.pkts_of_mem hmem (by simp [CallPkt.carries, hc])
  cases t with
  | held p => cases hpk
  | reqDmaster c' =>
      simp only [DmasterToken.pkts, List.cons.injEq, CallPkt.reqDmaster.injEq, and_true] at hpk
      rw [hpk]
  | replyDmaster c' => simp [DmasterToken.pkts] at hpk

theorem DmasterInv.eq_of_mem_replyDmaster {c : ReplyDmasterPkt} (h : DmasterInv hash vnnMap s key t)
    (hmem : .replyDmaster c ∈ s.inflight) (hc : c.key = key) : t = .replyDmaster c := by
  have hpk := h.pkts_of_mem hmem (by simp [CallPkt.carries, hc])
  cases t with
  | held p => cases hpk
  | reqDmaster c' => simp [DmasterToken.pkts] at hpk
  | replyDmaster c' =>
      simp only [DmasterToken.pkts, List.cons.injEq, CallPkt.replyDmaster.injEq, and_true] at hpk
      rw [hpk]

/-- At most one daemon reads itself as the dmaster. -/
theorem DmasterInv.eq_of_holder (h : DmasterInv hash vnnMap s key t) {p q : UInt32}
    (hp : (s.view hash vnnMap p key).dmaster = p) (hq : (s.view hash vnnMap q key).dmaster = q) : q = p := by
  have hq' := (h.holder q).mp hq
  rw [(h.holder p).mp hp, DmasterToken.held.injEq] at hq'
  exact hq'.symm

/-- While a daemon reads itself as the dmaster, no packet carries the record. -/
theorem DmasterInv.carries_eq_false (h : DmasterInv hash vnnMap s key t) {p : UInt32}
    (hp : (s.view hash vnnMap p key).dmaster = p) : ∀ pkt ∈ s.inflight, pkt.carries key = false := by
  have hnil : s.inflight.filter (CallPkt.carries key) = [] := by
    rw [h.inflight, (h.holder p).mp hp]
    rfl
  intro pkt hmem
  simpa using List.filter_eq_nil_iff.mp hnil pkt hmem

/-- The lmaster's copy names a daemon that reads itself as the dmaster, the
sender of the request in flight, or the receiver of the reply in flight. -/
theorem DmasterInv.lmaster_names (h : DmasterInv hash vnnMap s key t) {p : UInt32}
    (hp : (s.view hash vnnMap (ctdbLmaster hash vnnMap key) key).dmaster = p) :
    (s.view hash vnnMap p key).dmaster = p ∨
      (∃ c, CallPkt.reqDmaster c ∈ s.inflight ∧ c.key = key ∧ c.hdr.srcnode = p) ∨
      (∃ c, CallPkt.replyDmaster c ∈ s.inflight ∧ c.key = key ∧ c.hdr.destnode = p) := by
  have hpointer : t.pointer = p := h.lmaster.symm.trans hp
  have hmem : ∀ x ∈ t.pkts, x ∈ s.inflight := by
    intro x hx
    rw [← h.inflight] at hx
    exact (List.mem_filter.mp hx).1
  cases t with
  | held o => exact Or.inl ((h.holder p).mpr (congrArg DmasterToken.held hpointer))
  | reqDmaster c => exact Or.inr (Or.inl ⟨c, hmem _ List.mem_cons_self, h.sent.1, hpointer⟩)
  | replyDmaster c => exact Or.inr (Or.inr ⟨c, hmem _ List.mem_cons_self, h.sent.1, hpointer⟩)

/-- The copy of a daemon that reads itself as the dmaster is newer than every
other copy. -/
theorem DmasterInv.rsn_lt_of_holder (h : DmasterInv hash vnnMap s key t) {p q : UInt32} {hp hq : LtdbHeader}
    {dp dq : TdbData} (hcp : s.copy p key = some (hp, dp)) (hdm : hp.dmaster = p)
    (hcq : s.copy q key = some (hq, dq)) (hne : q ≠ p) : hq.rsn < hp.rsn := by
  have ht : t = .held p := (h.holder p).mp (by rw [view_of_copy hcp]; exact hdm)
  subst ht
  have habove := h.newest q hq dq hcq (by simpa using Ne.symm hne)
  simp only [DmasterToken.Above, DmasterToken.rsn, view_of_copy hcp] at habove
  rcases habove with hlt | ⟨htr, -⟩
  · exact hlt
  · cases htr

/-- No copy is newer than the token. -/
theorem DmasterInv.rsn_le (h : DmasterInv hash vnnMap s key t) {q : UInt32} {hq : LtdbHeader} {dq : TdbData}
    (hcq : s.copy q key = some (hq, dq)) : hq.rsn ≤ t.rsn hash vnnMap s key := by
  by_cases ht : t = .held q
  · subst ht
    simp only [DmasterToken.rsn, view_of_copy hcq]
    exact UInt64.le_refl _
  · rcases h.newest q hq dq hcq ht with hlt | ⟨-, heq⟩
    · exact UInt64.le_of_lt hlt
    · rw [heq]
      exact UInt64.le_refl _

/-- A copy on a node other than the lmaster that names another node is marked
as migrated with data. -/
theorem DmasterInv.migrated_of_stale (h : DmasterInv hash vnnMap s key t) {q : UInt32} {hq : LtdbHeader}
    {dq : TdbData} (hcq : s.copy q key = some (hq, dq)) (hL : q ≠ ctdbLmaster hash vnnMap key)
    (hne : hq.dmaster ≠ q) : hq.flags &&& CTDB_REC_FLAG_MIGRATED_WITH_DATA ≠ 0 := by
  refine (h.migrated q hq dq hcq hL fun ht => hne ?_).1
  rw [← @view_of_copy hash vnnMap _ _ _ _ _ hcq]
  exact (h.holder q).mpr ht

/-- The token's data is the data of the copy of the daemon that holds it. -/
theorem DmasterInv.data_of_holder (h : DmasterInv hash vnnMap s key t) {p : UInt32} {hp : LtdbHeader}
    {dp : TdbData} (hcp : s.copy p key = some (hp, dp)) (hdm : hp.dmaster = p) : t.data s key = dp := by
  rw [(h.holder p).mp (by rw [view_of_copy hcp]; exact hdm)]
  simp [DmasterToken.data, hcp]

/-- A holder with no copy is the lmaster, and then no daemon has a copy: the
record has never been stored, or the lmaster has dropped it. -/
theorem DmasterInv.copy_eq_none (h : DmasterInv hash vnnMap s key t) {p : UInt32}
    (hp : (s.view hash vnnMap p key).dmaster = p) (hnone : s.copy p key = none) (q : UInt32) :
    s.copy q key = none := by
  have ht : t = .held p := (h.holder p).mp hp
  have hL : ctdbLmaster hash vnnMap key = p := by
    rw [view_of_copy_none hnone] at hp
    exact hp
  cases hq : s.copy q key with
  | none => rfl
  | some c =>
      have hqp : q ≠ p := by
        rintro rfl
        rw [hq] at hnone
        cases hnone
      -- a copy away from the holder would carry the mark the made-up header lacks
      have hmwd := (h.migrated q c.1 c.2 hq (hL ▸ hqp) (by rw [ht]; simpa using Ne.symm hqp)).2
      rw [ht] at hmwd
      simp only [DmasterToken.flags, view_of_copy_none hnone, ltdbInitialHeader] at hmwd
      exact absurd (by decide) hmwd

/-- With no packet carrying the record, some daemon reads itself as its dmaster. -/
theorem DmasterInv.exists_holder (h : DmasterInv hash vnnMap s key t)
    (hquiet : ∀ pkt ∈ s.inflight, pkt.carries key = false) : ∃ p, (s.view hash vnnMap p key).dmaster = p := by
  have hnil : t.pkts = [] := by
    rw [← h.inflight]
    exact List.filter_eq_nil_iff.mpr fun pkt hmem => by simp [hquiet pkt hmem]
  cases t with
  | held p => exact ⟨p, (h.holder p).mpr rfl⟩
  | reqDmaster c => cases hnil
  | replyDmaster c => cases hnil

end Consequences

end Ctdb.Migration

import Mathlib.Data.List.Nodup
import Ctdb.Recovery.Election
import Ctdb.Lib.Tournament

/-!
# The election order

The comparison `ctdb_election_win` makes, once the short cuts for missing
capabilities and banned or stopped nodes are past, is meant to be the
lexicographic order on messages `ElectionMessage.Beats`: more connected nodes,
then the earlier priority time, then the larger pnn. It is that order as long
as the counts and pnns it subtracts as `int`s are below `2 ^ 31`
(`electionWinCheck_iff_beats`): their differences then fit in an `int`.
Beyond that the subtraction wraps, and two eligible daemons with pnns 0 and
`0x80000000` and otherwise equal data both yield to the other.

For daemons whose pnns and node maps fit, the answers of `ctdb_election_win`
are those of a strict total order on the eligible daemons
(`ctdbElectionWin_strict_total`): of two eligible daemons with distinct pnns
exactly one wins against the other's message, winning is transitive, an
ineligible daemon never wins and an eligible one always wins against a banned
or stopped sender. In any cluster with an eligible daemon there is then
exactly one eligible daemon that wins against all other eligible ones
(`exists_beatsAll`, `beatsAll_unique`), and every other daemon's
`election_handler` yields to it.
-/

namespace Ctdb

open Lib

/-! ## The order -/

/-- `t` is earlier than `u`. -/
def Timeval.Lt (t u : Timeval) : Prop :=
  t.sec < u.sec ∨ (t.sec = u.sec ∧ t.usec < u.usec)

/-- The sender of `a` should be elected rather than the sender of `b`. -/
def ElectionMessage.Beats (a b : ElectionMessage) : Prop :=
  b.numConnected.toNat < a.numConnected.toNat ∨
    (a.numConnected.toNat = b.numConnected.toNat ∧
      (a.priorityTime.Lt b.priorityTime ∨
        (a.priorityTime = b.priorityTime ∧ b.pnn.toNat < a.pnn.toNat)))

theorem Timeval.eq_iff {t u : Timeval} : t = u ↔ t.sec = u.sec ∧ t.usec = u.usec := by
  cases t
  cases u
  simp

section Beats

variable {a b c : ElectionMessage}

theorem ElectionMessage.Beats.asymm (h : a.Beats b) : ¬ b.Beats a := by
  simp only [ElectionMessage.Beats, Timeval.Lt, Timeval.eq_iff] at h ⊢
  omega

theorem ElectionMessage.Beats.trans (hab : a.Beats b) (hbc : b.Beats c) : a.Beats c := by
  simp only [ElectionMessage.Beats, Timeval.Lt, Timeval.eq_iff] at hab hbc ⊢
  omega

theorem ElectionMessage.beats_total (h : a.pnn ≠ b.pnn) : a.Beats b ∨ b.Beats a := by
  have hpnn : a.pnn.toNat ≠ b.pnn.toNat := fun h' => h (UInt32.toNat_inj.mp h')
  simp only [ElectionMessage.Beats, Timeval.Lt, Timeval.eq_iff]
  omega

end Beats

/-! ## What the code compares -/

theorem toInt_toInt32_of_lt {x : UInt32} (h : x.toNat < 2 ^ 31) : x.toInt32.toInt = x.toNat := by
  have hx : x.toInt32 = Int32.ofNat x.toNat := by
    rw [← UInt32.toInt32_ofNat', UInt32.ofNat_toNat]
  rw [hx, Int32.toInt_ofNat_of_lt h]

/-- `(int)x - (int)y` does not wrap for values below `2 ^ 31`. -/
theorem toInt_sub_toInt32 {x y : UInt32} (hx : x.toNat < 2 ^ 31) (hy : y.toNat < 2 ^ 31) :
    (x.toInt32 - y.toInt32).toInt = (x.toNat : Int) - y.toNat := by
  rw [Int32.toInt_sub, toInt_toInt32_of_lt hx, toInt_toInt32_of_lt hy]
  apply Int.bmod_eq_of_le <;> omega

theorem int32_pos_iff {x : Int32} : 0 < x ↔ 0 < x.toInt := by
  rw [Int32.lt_iff_toInt_lt, Int32.toInt_zero]

theorem int32_eq_zero_iff {x : Int32} : x = 0 ↔ x.toInt = 0 := by
  rw [← Int32.toInt_inj, Int32.toInt_zero]

theorem timevalCompare_pos_iff (t u : Timeval) : 0 < timevalCompare t u ↔ u.Lt t := by
  have h1 : (1 : Int32).toInt = 1 := rfl
  have hm1 : (-1 : Int32).toInt = -1 := rfl
  unfold timevalCompare Timeval.Lt
  split_ifs <;> simp only [int32_pos_iff, h1, hm1, Int32.toInt_zero] <;> omega

theorem timevalCompare_eq_zero_iff (t u : Timeval) : timevalCompare t u = 0 ↔ t = u := by
  have h1 : (1 : Int32).toInt = 1 := rfl
  have hm1 : (-1 : Int32).toInt = -1 := rfl
  rw [Timeval.eq_iff]
  unfold timevalCompare
  split_ifs <;> simp only [int32_eq_zero_iff, h1, hm1, true_iff] <;> omega

/-- Between eligible daemons, whose counts and pnns fit in an `int`,
`ctdb_election_win` decides `ElectionMessage.Beats`. -/
theorem electionWinCheck_iff_beats {rec : Recoverd} {myem em : ElectionMessage}
    (hcap : rec.capabilities &&& CTDB_CAP_RECMASTER ≠ 0)
    (hbanned : rec.nodeFlags &&& NODE_FLAGS_BANNED = 0)
    (hstopped : rec.nodeFlags &&& NODE_FLAGS_STOPPED = 0)
    (hbanned' : em.nodeFlags &&& NODE_FLAGS_BANNED = 0)
    (hstopped' : em.nodeFlags &&& NODE_FLAGS_STOPPED = 0)
    (hn : myem.numConnected.toNat < 2 ^ 31) (hn' : em.numConnected.toNat < 2 ^ 31)
    (hp : myem.pnn.toNat < 2 ^ 31) (hp' : em.pnn.toNat < 2 ^ 31) :
    electionWinCheck rec myem em = true ↔ myem.Beats em := by
  have hconn := toInt_sub_toInt32 hn hn'
  have hpnn := toInt_sub_toInt32 hp hp'
  simp only [electionWinCheck, hcap, hbanned, hstopped, hbanned', hstopped', ne_eq,
    not_true_eq_false, if_false, decide_eq_true_eq]
  split_ifs with h1 h2
  · -- equal counts and times: the pnns decide
    rw [int32_eq_zero_iff, hconn] at h1
    rw [timevalCompare_eq_zero_iff, Timeval.eq_iff] at h2
    rw [gt_iff_lt, int32_pos_iff, hpnn, ElectionMessage.Beats, Timeval.Lt, Timeval.eq_iff]
    omega
  · -- equal counts: the earlier priority time wins
    rw [int32_eq_zero_iff, hconn] at h1
    rw [timevalCompare_eq_zero_iff] at h2
    rw [gt_iff_lt, timevalCompare_pos_iff, ElectionMessage.Beats]
    constructor
    · intro ht
      exact Or.inr ⟨by omega, Or.inl ht⟩
    · rintro (hlt | ⟨-, ht | ⟨heq, -⟩⟩)
      · omega
      · exact ht
      · exact absurd heq.symm h2
  · rw [int32_eq_zero_iff, hconn] at h1
    rw [gt_iff_lt, int32_pos_iff, hconn, ElectionMessage.Beats]
    omega

/-! ## Candidates -/

/-- A recovery daemon at the moment it takes part in an election: its state,
the node map it would fetch and the time. -/
structure ElectionCandidate where
  daemon : Recoverd
  nodemap : Option (List UInt32)
  now : Timeval

namespace ElectionCandidate

/-- The message it sends, which `ctdb_election_win` also recomputes as its own. -/
def msg (c : ElectionCandidate) : ElectionMessage :=
  (ctdbElectionData c.daemon c.nodemap c.now).2

/-- `ctdb_election_win` on the message `em`. -/
def winsAgainst (c : ElectionCandidate) (em : ElectionMessage) : Bool :=
  (ctdbElectionWin c.daemon c.nodemap c.now em).2

/-- It has `CTDB_CAP_RECMASTER` and is neither banned nor stopped by the
flags `ctdb_election_data` leaves it with. -/
def Eligible (c : ElectionCandidate) : Prop :=
  let d := (ctdbElectionData c.daemon c.nodemap c.now).1
  d.capabilities &&& CTDB_CAP_RECMASTER ≠ 0 ∧ d.nodeFlags &&& NODE_FLAGS_BANNED = 0 ∧
    d.nodeFlags &&& NODE_FLAGS_STOPPED = 0

/-- Its pnn and the size of its node map fit in an `int`. -/
def Bounded (c : ElectionCandidate) : Prop :=
  c.daemon.pnn.toNat < 2 ^ 31 ∧ ∀ nodes ∈ c.nodemap, nodes.length < 2 ^ 31

instance (c : ElectionCandidate) : Decidable c.Eligible := by
  unfold Eligible
  infer_instance

variable {c : ElectionCandidate}

theorem winsAgainst_eq (em : ElectionMessage) :
    c.winsAgainst em = electionWinCheck (ctdbElectionData c.daemon c.nodemap c.now).1 c.msg em := rfl

@[simp] theorem msg_pnn : c.msg.pnn = c.daemon.pnn := by
  unfold msg ctdbElectionData
  split
  · rfl
  · split <;> rfl

/-- The flags it sends are its own, or 0 when the node map could not be fetched. -/
theorem msg_nodeFlags :
    c.msg.nodeFlags = 0 ∨ c.msg.nodeFlags = (ctdbElectionData c.daemon c.nodemap c.now).1.nodeFlags := by
  unfold msg ctdbElectionData
  split
  · exact Or.inl rfl
  · split <;> exact Or.inr rfl

theorem msg_numConnected_lt (hb : c.Bounded) : c.msg.numConnected.toNat < 2 ^ 31 := by
  unfold msg ctdbElectionData
  split
  · simp
  · next nodes hnm =>
      have hlen := hb.2 nodes (by rw [hnm]; rfl)
      have hcount := List.countP_le_length (p := fun f => f &&& NODE_FLAGS_DISCONNECTED == 0) (l := nodes)
      split
      · simp
      · simp only [UInt32.toNat_ofNat']
        omega

theorem Eligible.msg_banned (h : c.Eligible) : c.msg.nodeFlags &&& NODE_FLAGS_BANNED = 0 := by
  rcases msg_nodeFlags (c := c) with h0 | h0 <;> rw [h0]
  · decide
  · exact h.2.1

theorem Eligible.msg_stopped (h : c.Eligible) : c.msg.nodeFlags &&& NODE_FLAGS_STOPPED = 0 := by
  rcases msg_nodeFlags (c := c) with h0 | h0 <;> rw [h0]
  · decide
  · exact h.2.2

/-- Between eligible candidates that fit, winning is the order on their messages. -/
theorem winsAgainst_iff {d : ElectionCandidate} (hc : c.Eligible) (hd : d.Eligible)
    (hbc : c.Bounded) (hbd : d.Bounded) : c.winsAgainst d.msg = true ↔ c.msg.Beats d.msg := by
  rw [winsAgainst_eq]
  exact electionWinCheck_iff_beats hc.1 hc.2.1 hc.2.2 hd.msg_banned hd.msg_stopped
    (msg_numConnected_lt hbc) (msg_numConnected_lt hbd) (by rw [msg_pnn]; exact hbc.1)
    (by rw [msg_pnn]; exact hbd.1)

/-- A daemon without the capability, or banned or stopped, never wins. -/
theorem winsAgainst_of_not_eligible (h : ¬ c.Eligible) (em : ElectionMessage) :
    c.winsAgainst em = false := by
  rw [winsAgainst_eq, electionWinCheck]
  simp only [Eligible, not_and_or, not_not] at h
  rcases h with h | h | h <;> simp [h]

/-- An eligible daemon wins against a banned or stopped sender. -/
theorem winsAgainst_of_flags (h : c.Eligible) {em : ElectionMessage}
    (hem : em.nodeFlags &&& NODE_FLAGS_BANNED ≠ 0 ∨ em.nodeFlags &&& NODE_FLAGS_STOPPED ≠ 0) :
    c.winsAgainst em = true := by
  rw [winsAgainst_eq, electionWinCheck, if_neg h.1, if_neg (not_not.mpr h.2.1),
    if_neg (not_not.mpr h.2.2)]
  rcases hem with hem | hem
  · rw [if_pos hem]
  · by_cases hb : em.nodeFlags &&& NODE_FLAGS_BANNED = 0
    · rw [if_neg (not_not.mpr hb), if_pos hem]
    · rw [if_pos hb]

section Order

variable {d e : ElectionCandidate} (hc : c.Eligible) (hd : d.Eligible) (hbc : c.Bounded)
  (hbd : d.Bounded)
include hc hd hbc hbd

theorem winsAgainst_asymm (hw : c.winsAgainst d.msg = true) : d.winsAgainst c.msg = false := by
  rw [winsAgainst_iff hc hd hbc hbd] at hw
  rw [Bool.eq_false_iff, ne_eq, winsAgainst_iff hd hc hbd hbc]
  exact hw.asymm

theorem winsAgainst_total (hpnn : c.daemon.pnn ≠ d.daemon.pnn) :
    c.winsAgainst d.msg = true ∨ d.winsAgainst c.msg = true := by
  rw [winsAgainst_iff hc hd hbc hbd, winsAgainst_iff hd hc hbd hbc]
  exact ElectionMessage.beats_total (by rw [msg_pnn, msg_pnn]; exact hpnn)

theorem winsAgainst_trans (he : e.Eligible) (hbe : e.Bounded) (hcd : c.winsAgainst d.msg = true)
    (hde : d.winsAgainst e.msg = true) : c.winsAgainst e.msg = true := by
  rw [winsAgainst_iff hc hd hbc hbd] at hcd
  rw [winsAgainst_iff hd he hbd hbe] at hde
  rw [winsAgainst_iff hc he hbc hbe]
  exact hcd.trans hde

end Order

end ElectionCandidate

open ElectionCandidate in
/-- In a cluster whose pnns are distinct and, with the node maps, fit in an
`int`: of two eligible daemons exactly one wins against the other's message;
winning is transitive on eligible daemons; a daemon that is not eligible never
wins, and an eligible one wins against any banned or stopped sender; and if
any daemon is eligible, exactly one eligible daemon wins against every other
eligible one, and `election_handler` on every other daemon yields to it. -/
theorem ctdbElectionWin_strict_total (nodes : List ElectionCandidate)
    (hpnn : (nodes.map fun c => c.daemon.pnn).Nodup) (hbound : ∀ c ∈ nodes, c.Bounded) :
    (∀ a ∈ nodes, ∀ b ∈ nodes, a ≠ b → a.Eligible → b.Eligible →
      a.winsAgainst b.msg = !b.winsAgainst a.msg) ∧
    (∀ a ∈ nodes, ∀ b ∈ nodes, ∀ c ∈ nodes, a.Eligible → b.Eligible → c.Eligible →
      a.winsAgainst b.msg = true → b.winsAgainst c.msg = true → a.winsAgainst c.msg = true) ∧
    (∀ a : ElectionCandidate, ¬ a.Eligible → ∀ em, a.winsAgainst em = false) ∧
    (∀ a : ElectionCandidate, a.Eligible → ∀ em : ElectionMessage,
      (em.nodeFlags &&& NODE_FLAGS_BANNED ≠ 0 ∨ em.nodeFlags &&& NODE_FLAGS_STOPPED ≠ 0) →
      a.winsAgainst em = true) ∧
    ((∃ a ∈ nodes, a.Eligible) → ∃ w ∈ nodes, w.Eligible ∧
      (∀ c ∈ nodes, c ≠ w → c.Eligible → w.winsAgainst c.msg = true) ∧
      (∀ w' ∈ nodes, w'.Eligible → (∀ c ∈ nodes, c ≠ w' → c.Eligible → w'.winsAgainst c.msg = true) →
        w' = w) ∧
      ∀ c ∈ nodes, c ≠ w → electionHandler c.daemon c.nodemap c.now w.msg = .yield w.daemon.pnn) := by
  have hdistinct : ∀ a ∈ nodes, ∀ b ∈ nodes, a ≠ b → a.daemon.pnn ≠ b.daemon.pnn :=
    fun a ha b hb hab h => hab (List.inj_on_of_nodup_map hpnn ha hb h)
  have hone : ∀ a ∈ nodes, ∀ b ∈ nodes, a ≠ b → a.Eligible → b.Eligible →
      a.winsAgainst b.msg = !b.winsAgainst a.msg := by
    intro a ha b hb hab hea heb
    rcases winsAgainst_total hea heb (hbound a ha) (hbound b hb) (hdistinct a ha b hb hab) with h | h
    · rw [h, winsAgainst_asymm hea heb (hbound a ha) (hbound b hb) h]
      rfl
    · rw [h, winsAgainst_asymm heb hea (hbound b hb) (hbound a ha) h]
      rfl
  have htrans : ∀ a ∈ nodes, ∀ b ∈ nodes, ∀ c ∈ nodes, a.Eligible → b.Eligible → c.Eligible →
      a.winsAgainst b.msg = true → b.winsAgainst c.msg = true → a.winsAgainst c.msg = true :=
    fun a ha b hb c hc hea heb hec =>
      winsAgainst_trans hea heb (hbound a ha) (hbound b hb) hec (hbound c hc)
  refine ⟨hone, htrans, fun a h em => winsAgainst_of_not_eligible h em,
    fun a h em hem => winsAgainst_of_flags h hem, fun ⟨a, ha, hea⟩ => ?_⟩
  -- the round robin among the eligible daemons
  let es := nodes.filter fun c => decide c.Eligible
  have hmem : ∀ {c}, c ∈ es ↔ c ∈ nodes ∧ c.Eligible := by simp [es]
  have hne : es ≠ [] := List.ne_nil_of_mem (hmem.mpr ⟨ha, hea⟩)
  obtain ⟨w, hw, hbeat⟩ := exists_beatsAll (r := fun a b => a.winsAgainst b.msg = true) hne
    (fun a ha b hb c hc => htrans a (hmem.mp ha).1 b (hmem.mp hb).1 c (hmem.mp hc).1
      (hmem.mp ha).2 (hmem.mp hb).2 (hmem.mp hc).2)
    (fun a ha b hb hab => by
      have h := hone a (hmem.mp ha).1 b (hmem.mp hb).1 hab (hmem.mp ha).2 (hmem.mp hb).2
      cases hba : b.winsAgainst a.msg <;> simp_all)
  obtain ⟨hwn, hwe⟩ := hmem.mp hw
  have hall : ∀ c ∈ nodes, c ≠ w → c.Eligible → w.winsAgainst c.msg = true :=
    fun c hc hcw hce => hbeat c (hmem.mpr ⟨hc, hce⟩) hcw
  refine ⟨w, hwn, hwe, hall, fun w' hw' hw'e hbeat' => ?_, fun c hc hcw => ?_⟩
  · refine beatsAll_unique (r := fun a b => a.winsAgainst b.msg = true) (l := es)
      (fun a ha b hb hab => ?_) hw (hmem.mpr ⟨hw', hw'e⟩) hbeat
      (fun c hc hcw => hbeat' c (hmem.mp hc).1 hcw (hmem.mp hc).2)
    simp only [winsAgainst_asymm (hmem.mp ha).2 (hmem.mp hb).2 (hbound a (hmem.mp ha).1)
      (hbound b (hmem.mp hb).1) hab, Bool.false_eq_true, not_false_eq_true]
  · -- every other daemon loses against the winner's message
    have hlose : c.winsAgainst w.msg = false := by
      by_cases hce : c.Eligible
      · exact winsAgainst_asymm hwe hce (hbound w hwn) (hbound c hc) (hall c hc hcw hce)
      · exact winsAgainst_of_not_eligible hce w.msg
    simp only [electionHandler]
    rw [if_neg (by rw [← winsAgainst, hlose]; exact Bool.false_ne_true), msg_pnn]

/-- Two daemons with the capability and all nodes connected; node 1 has had
priority longer. -/
def twoDaemons : List ElectionCandidate :=
  [⟨⟨0, CTDB_CAP_RECMASTER, ⟨100, 0⟩, 0⟩, some [0, 0], ⟨200, 0⟩⟩,
    ⟨⟨1, CTDB_CAP_RECMASTER, ⟨50, 0⟩, 0⟩, some [0, 0], ⟨200, 0⟩⟩]

theorem ctdbElectionWin_strict_total_two :
    (twoDaemons.map fun c => c.daemon.pnn).Nodup ∧ (∀ c ∈ twoDaemons, c.Bounded) ∧
      ∃ w ∈ twoDaemons, w.Eligible ∧
        ∀ c ∈ twoDaemons, c ≠ w → electionHandler c.daemon c.nodemap c.now w.msg = .yield w.daemon.pnn :=
  have hnodup : (twoDaemons.map fun c => c.daemon.pnn).Nodup := by decide
  have hbound : ∀ c ∈ twoDaemons, c.Bounded := by
    simp [twoDaemons, ElectionCandidate.Bounded]
  have hone : ∃ a ∈ twoDaemons, a.Eligible := ⟨_, List.mem_cons_self, by decide⟩
  let ⟨w, hw, hwe, _, _, hyield⟩ := (ctdbElectionWin_strict_total twoDaemons hnodup hbound).2.2.2.2 hone
  ⟨hnodup, hbound, w, hw, hwe, hyield⟩

-- pnns 0 and `0x80000000`, otherwise equal: `(int)0 - (int)0x80000000` wraps, and each yields
example :
    (ElectionCandidate.mk ⟨0, 1, ⟨0, 0⟩, 0⟩ none ⟨0, 0⟩).winsAgainst
        (ElectionCandidate.mk ⟨0x80000000, 1, ⟨0, 0⟩, 0⟩ none ⟨0, 0⟩).msg = false ∧
      (ElectionCandidate.mk ⟨0x80000000, 1, ⟨0, 0⟩, 0⟩ none ⟨0, 0⟩).winsAgainst
        (ElectionCandidate.mk ⟨0, 1, ⟨0, 0⟩, 0⟩ none ⟨0, 0⟩).msg = false := by
  decide

end Ctdb

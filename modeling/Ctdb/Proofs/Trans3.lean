import Ctdb.Persistent.Trans3

/-!
# When a commit is answered with status 0

While a commit is in progress, each node whose `UPDATE_RECORD` has not
called back, and each one that called back with an error, keeps
`num_pending` above 0 (`Trans3Inv`, which every step keeps). So the
callback that counts `num_pending` down to 0 is the success, in normal
mode, of the last unanswered node of a commit that no node answered with an
error, and every earlier answer was counted as a success
(`trans3Run_reply_zero`).

The other way to a status-0 reply needs no answer at all: a commit made
when no node of the vnn map is active sends nothing and is answered 0 on
the spot, and the client's `ctdb_transaction_commit` returns 0 for a
transaction that no node stored (`trans3Commit_succeeds_unsent`).
-/

namespace Ctdb

/-! ## The replies a step sends -/

section Replies

variable {d : Trans3Daemon} {c c' : Nat} {s s' : Int}

@[simp] theorem Trans3Daemon.freeState_replies (st : PersistentState) :
    (d.freeState st).replies = d.replies := rfl

@[simp] theorem Trans3Daemon.reply_replies :
    (d.reply c s).replies = d.replies ++ [(c, s)] := rfl

theorem reply_eq_append (h : d.replies ++ [(c, s)] = d.replies ++ [(c', s')]) :
    c = c' ∧ s = s' := by
  simpa using h

theorem replies_ne_append {l : List (Nat × Int)} (h : l = l ++ [(c, s)]) : False := by
  have := congrArg List.length h
  simp at this

end Replies

/-! ## What a commit control does -/

/-- `ctdb_control_trans3_commit` either answers at once, with 0 only when
no node of the vnn map is active, or starts the commit: every active node is
sent `UPDATE_RECORD` and awaited, and the client's `db_id` is set. -/
theorem ctdbControlTrans3Commit_cases (cfg : Trans3Config) (d : Trans3Daemon) (c client : Nat)
    (dbId : UInt32) :
    (∃ s, ctdbControlTrans3Commit cfg d c client dbId = d.reply c s ∧ (s = 0 → cfg.targets = [])) ∨
      (cfg.targets ≠ [] ∧ ctdbControlTrans3Commit cfg d c client dbId =
        { d with
          persistentState :=
            some ⟨c, client, cfg.targets, cfg.targets.length, cfg.targets.length, 0, true⟩
          clients := setClientDbId d.clients client dbId
          updatesSent := d.updatesSent ++ cfg.targets.map (c, ·) }) := by
  -- every refusal answers -1
  have refused : ∃ s, d.reply c (-1) = d.reply c s ∧ (s = 0 → cfg.targets = []) :=
    ⟨-1, rfl, fun h => absurd h (by decide)⟩
  unfold ctdbControlTrans3Commit
  split
  · exact Or.inl refused
  split
  · exact Or.inl refused
  split
  · exact Or.inl refused
  split
  · exact Or.inl refused
  split
  · exact Or.inl refused
  split
  · next htargets => exact Or.inl ⟨0, rfl, fun _ => htargets⟩
  · next hne =>
      split
      · exact Or.inl refused
      · exact Or.inr ⟨hne, rfl⟩

/-! ## The invariant of the commit in progress -/

/-- Each unanswered `UPDATE_RECORD` and each failed answer keeps
`num_pending` up; `num_pending` is positive and at most `num_sent`. -/
def Trans3Inv (d : Trans3Daemon) : Prop :=
  ∀ st, d.persistentState = some st →
    st.awaiting.length + st.numFailed ≤ st.numPending ∧ 0 < st.numPending ∧
      st.numPending ≤ st.numSent

namespace Trans3Inv

variable {cfg : Trans3Config} {d : Trans3Daemon}

theorem freeState (st : PersistentState) : Trans3Inv (d.freeState st) := by
  intro st' h
  cases h

theorem reply (hi : Trans3Inv d) (c : Nat) (s : Int) : Trans3Inv (d.reply c s) := hi

theorem trans3Commit (hi : Trans3Inv d) (c client : Nat) (dbId : UInt32) :
    Trans3Inv (ctdbControlTrans3Commit cfg d c client dbId) := by
  rcases ctdbControlTrans3Commit_cases cfg d c client dbId with ⟨s, h, -⟩ | ⟨hne, h⟩
  · rw [h]
    exact hi.reply c s
  · -- a new commit: every target is unanswered and none has failed
    rw [h]
    intro st hst
    simp only [Option.some.injEq] at hst
    subst hst
    exact ⟨by simp, List.length_pos_iff.mpr hne, le_refl _⟩

theorem callback (hi : Trans3Inv d) (pnn : UInt32) (status : Int) :
    Trans3Inv (ctdbPersistentCallback d pnn status) := by
  unfold ctdbPersistentCallback
  split
  · exact hi
  · next st hst =>
      obtain ⟨hle, hpos, hsent⟩ := hi st hst
      split
      · exact hi
      · next hmem =>
          -- the answer takes one node off the unanswered ones
          have hlen : (st.awaiting.erase pnn).length + 1 = st.awaiting.length :=
            List.length_erase_add_one (not_not.mp hmem)
          dsimp only
          split
          · intro st' h
            cases h
            exact ⟨by simp only; omega, hpos, hsent⟩
          split
          · intro st' h
            cases h
            exact ⟨by simp only; omega, hpos, hsent⟩
          split
          · intro st' h
            cases h
            simp only at *
            omega
          · exact freeState _

theorem timeout (hi : Trans3Inv d) : Trans3Inv (ctdbPersistentStoreTimeout d) := by
  unfold ctdbPersistentStoreTimeout
  split
  · exact hi
  · next st hst =>
      split
      · exact hi
      split
      · intro st' h
        cases h
        exact hi st hst
      · exact freeState _

theorem finish (hi : Trans3Inv d) : Trans3Inv (ctdbPersistentFinishTrans3Commits d) := by
  unfold ctdbPersistentFinishTrans3Commits
  split
  · exact hi
  split
  · exact hi
  · exact freeState _

theorem step (hi : Trans3Inv d) (e : Trans3Event) : Trans3Inv (trans3Step cfg d e) := by
  cases e with
  | trans3Commit c client dbId => exact hi.trans3Commit c client dbId
  | updateReply pnn status => exact hi.callback pnn status
  | commitTimeout => exact hi.timeout
  | setRecoveryMode mode => exact hi
  | endRecovery => exact hi.finish

theorem run : ∀ (events : List Trans3Event) {d : Trans3Daemon}, Trans3Inv d →
    Trans3Inv (trans3Run cfg d events)
  | [], _, hi => hi
  | e :: events, _, hi => run events (hi.step e)

end Trans3Inv

/-! ## Who sends a status-0 reply -/

section ReplyZero

variable {cfg : Trans3Config} {d : Trans3Daemon} {c : Nat}

theorem ctdbControlTrans3Commit_reply_zero {c' client : Nat} {dbId : UInt32}
    (h : (ctdbControlTrans3Commit cfg d c' client dbId).replies = d.replies ++ [(c, 0)]) :
    c' = c ∧ cfg.targets = [] := by
  rcases ctdbControlTrans3Commit_cases cfg d c' client dbId with ⟨s, hs, hzero⟩ | ⟨-, hs⟩
  · rw [hs, Trans3Daemon.reply_replies] at h
    obtain ⟨hc, rfl⟩ := reply_eq_append h
    exact ⟨hc, hzero rfl⟩
  · -- an accepted commit answers nothing yet
    rw [hs] at h
    exact (replies_ne_append h).elim

theorem ctdbPersistentCallback_reply_zero (hi : Trans3Inv d) {pnn : UInt32} {status : Int}
    (h : (ctdbPersistentCallback d pnn status).replies = d.replies ++ [(c, 0)]) :
    ∃ st, d.recoveryMode = .normal ∧ d.persistentState = some st ∧ st.c = c ∧ status = 0 ∧
      st.awaiting = [pnn] ∧ st.numFailed = 0 ∧ st.numPending = 1 := by
  unfold ctdbPersistentCallback at h
  split at h
  · exact (replies_ne_append h).elim
  · next st hst =>
      obtain ⟨hle, hpos, -⟩ := hi st hst
      split at h
      · exact (replies_ne_append h).elim
      · next hmem =>
          have hmem : pnn ∈ st.awaiting := not_not.mp hmem
          dsimp only at h
          split at h
          · exact (replies_ne_append h).elim
          · next hmode =>
              split at h
              · exact (replies_ne_append h).elim
              · next hstatus =>
                  split at h
                  · exact (replies_ne_append h).elim
                  · next hlast =>
                      -- `num_pending` was 1, so `pnn` was the only node left
                      -- and no answer had failed
                      have hone : st.numPending = 1 := by
                        simp only [ne_eq, not_not] at hlast
                        omega
                      have hlen : st.awaiting.length = 1 := by
                        have := List.length_pos_of_mem hmem
                        omega
                      obtain ⟨x, hx⟩ := List.length_eq_one_iff.mp hlen
                      have hxp : x = pnn := by
                        rw [hx, List.mem_singleton] at hmem
                        exact hmem.symm
                      refine ⟨st, not_not.mp hmode, hst, ?_, not_not.mp hstatus, hx ▸ hxp ▸ rfl,
                        by omega, hone⟩
                      simp only [Trans3Daemon.freeState_replies, Trans3Daemon.reply_replies] at h
                      exact (reply_eq_append h).1

theorem ctdbPersistentStoreTimeout_reply_zero
    (h : (ctdbPersistentStoreTimeout d).replies = d.replies ++ [(c, 0)]) : False := by
  unfold ctdbPersistentStoreTimeout at h
  split at h
  · exact replies_ne_append h
  split at h
  · exact replies_ne_append h
  split at h
  · exact replies_ne_append h
  · simp only [Trans3Daemon.freeState_replies, Trans3Daemon.reply_replies] at h
    exact absurd (reply_eq_append h).2 (by decide)

theorem ctdbPersistentFinishTrans3Commits_reply_zero
    (h : (ctdbPersistentFinishTrans3Commits d).replies = d.replies ++ [(c, 0)]) : False := by
  unfold ctdbPersistentFinishTrans3Commits at h
  split at h
  · exact replies_ne_append h
  split at h
  · exact replies_ne_append h
  · simp only [Trans3Daemon.freeState_replies, Trans3Daemon.reply_replies] at h
    exact absurd (reply_eq_append h).2 (by decide)

end ReplyZero

/-- In every run from a node with no commit in progress, a status-0 reply
to control `c` is the reply of a commit made when no node of the vnn map
was active, which sent nothing; or it is sent on the success, in normal
mode, of the last unanswered `UPDATE_RECORD` of commit `c`, which was sent
to at least one node, none of whose answers failed, and whose `num_pending`
equals the number of unanswered nodes — every earlier answer was counted as
a success. -/
theorem trans3Run_reply_zero (cfg : Trans3Config) {d₀ : Trans3Daemon}
    (h₀ : d₀.persistentState = none) (events : List Trans3Event) (e : Trans3Event) (c : Nat)
    (h : (trans3Step cfg (trans3Run cfg d₀ events) e).replies =
      (trans3Run cfg d₀ events).replies ++ [(c, 0)]) :
    (∃ client dbId, e = .trans3Commit c client dbId ∧ cfg.targets = []) ∨
      ∃ pnn st, e = .updateReply pnn 0 ∧ (trans3Run cfg d₀ events).recoveryMode = .normal ∧
        (trans3Run cfg d₀ events).persistentState = some st ∧ st.c = c ∧ st.awaiting = [pnn] ∧
        st.numFailed = 0 ∧ st.numPending = 1 ∧ 0 < st.numSent := by
  have hi : Trans3Inv (trans3Run cfg d₀ events) :=
    Trans3Inv.run events fun st hst => by rw [h₀] at hst; cases hst
  cases e with
  | trans3Commit c' client dbId =>
      obtain ⟨rfl, htargets⟩ := ctdbControlTrans3Commit_reply_zero h
      exact Or.inl ⟨client, dbId, rfl, htargets⟩
  | updateReply pnn status =>
      obtain ⟨st, hmode, hst, hc, rfl, hawait, hfailed, hone⟩ :=
        ctdbPersistentCallback_reply_zero hi h
      have hsent := (hi st hst).2.2
      exact Or.inr ⟨pnn, st, rfl, hmode, hst, hc, hawait, hfailed, hone, by omega⟩
  | commitTimeout => exact (ctdbPersistentStoreTimeout_reply_zero h).elim
  | setRecoveryMode mode => exact (replies_ne_append h).elim
  | endRecovery => exact (ctdbPersistentFinishTrans3Commits_reply_zero h).elim

/-- Two active nodes, neither stopped. -/
def twoNodeCluster : Trans3Config := ⟨7, [0, 1], fun _ => 0, true⟩

/-- A node in normal mode with client 5 connected and no commit running. -/
def idleTrans3 : Trans3Daemon := ⟨.normal, [(5, 0)], none, [], []⟩

theorem trans3Run_reply_zero_two :
    idleTrans3.persistentState = none ∧
      (trans3Step twoNodeCluster
          (trans3Run twoNodeCluster idleTrans3 [.trans3Commit 1 5 7, .updateReply 0 0])
          (.updateReply 1 0)).replies =
        (trans3Run twoNodeCluster idleTrans3 [.trans3Commit 1 5 7, .updateReply 0 0]).replies ++
          [(1, 0)] ∧
      ((∃ client dbId, Trans3Event.updateReply 1 0 = .trans3Commit 1 client dbId ∧
          twoNodeCluster.targets = []) ∨
        ∃ pnn st, Trans3Event.updateReply 1 0 = .updateReply pnn 0 ∧
          (trans3Run twoNodeCluster idleTrans3 [.trans3Commit 1 5 7, .updateReply 0 0]).recoveryMode =
            .normal ∧
          (trans3Run twoNodeCluster idleTrans3
            [.trans3Commit 1 5 7, .updateReply 0 0]).persistentState = some st ∧
          st.c = 1 ∧ st.awaiting = [pnn] ∧ st.numFailed = 0 ∧ st.numPending = 1 ∧ 0 < st.numSent) :=
  ⟨rfl, by decide, trans3Run_reply_zero twoNodeCluster rfl [.trans3Commit 1 5 7, .updateReply 0 0]
    (.updateReply 1 0) 1 (by decide)⟩

/-! ## A commit that no node stores -/

/-- Node 0, the only node of the vnn map, is stopped. -/
def stoppedCluster : Trans3Config := ⟨7, [0], fun _ => NODE_FLAGS_STOPPED, true⟩

/-- With every node of the vnn map inactive, a commit is answered 0 at once
and no `UPDATE_RECORD` is sent; the client then returns 0, though its node
still holds the old sequence number. -/
theorem trans3Commit_succeeds_unsent :
    trans3Run stoppedCluster idleTrans3 [.trans3Commit 1 5 7] =
        { idleTrans3 with replies := [(1, 0)] } ∧
      transactionCommitOutcome true 0 3 (some 3) = some 0 := by
  decide

end Ctdb

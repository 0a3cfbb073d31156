import Ctdb.Proofs.LockSchedule

/-!
# The scheduler's bookkeeping

`LockInv` is what the scheduler's lists and counters are meant to be: each
counter the length of its list, no context on a list twice or on both, the
contexts of `lock_current` live, at most `MAX_LOCK_PROCESSES_PER_DB` of them,
and no two of them locking the same. Every function keeps it, and so does every
run from the start that does not fault (`lockRun_bookkeeping`). What it leaves
out is that the contexts of `lock_pending` are live: a context freed while
pending stays there (`lockRun_free_pending_faults`).

The proofs follow the lists. A change that keeps the lists, the counters and
what each current context locks keeps the invariant (`LockInv.frame`), which
covers every write to a queue or to the requests; the moves between the lists
have a lemma each. The walk of `ctdb_lock_schedule` keeps the invariant over
the distinct pending contexts it walks, and the context it picks is pending,
live, and locks nothing a current context locks (`schedulePick_inv`), which is
what moving it to `lock_current` needs. The destructor's schedule cannot put
the context it frees back on `lock_current` (`ctdbLockSchedule_current`).
-/

namespace Ctdb.Lock

/-- The bookkeeping of the scheduler: the counters are the lengths of the
lists, no context is on a list twice or on both, at most
`MAX_LOCK_PROCESSES_PER_DB` contexts are current, each of them is live and
locks something no other current context locks, and every listed address is
below the next free one. -/
structure LockInv (s : LockState) : Prop where
  numPending : s.lockNumPending = s.lockPending.length
  numCurrent : s.lockNumCurrent = s.lockCurrent.length
  currentMax : s.lockNumCurrent ≤ MAX_LOCK_PROCESSES_PER_DB
  nodup : (s.lockPending ++ s.lockCurrent).Nodup
  currentLive : ∀ c ∈ s.lockCurrent, ∃ lockCtx, s.contexts c = some lockCtx
  below : ∀ c ∈ s.lockPending ++ s.lockCurrent, c < s.next
  distinct : s.lockCurrent.Pairwise fun a b => ∀ ca cb, s.contexts a = some ca → s.contexts b = some cb →
    lockMatches ca cb.ctdbDb cb.key cb.priority cb.type = false

theorem lockInv_init : LockInv LockState.init where
  numPending := rfl
  numCurrent := rfl
  currentMax := by decide
  nodup := List.nodup_nil
  currentLive := by simp [LockState.init]
  below := by simp [LockState.init]
  distinct := List.Pairwise.nil

/-- What a context locks is all of it but its queue. -/
def LockContext.target (x : LockContext) : LockContext := { x with reqQueue := [] }

/-- Whether two contexts lock the same depends only on their targets. -/
theorem lockMatches_congr {x y u v : LockContext} (hxy : x.target = y.target) (huv : u.target = v.target) :
    lockMatches x u.ctdbDb u.key u.priority u.type = lockMatches y v.ctdbDb v.key v.priority v.type := by
  -- the fields `lockMatches` reads are those of the targets
  change lockMatches x.target u.target.ctdbDb u.target.key u.target.priority u.target.type =
    lockMatches y.target v.target.ctdbDb v.target.key v.target.priority v.target.type
  rw [hxy, huv]

namespace LockInv

variable {s : LockState}

theorem pending_not_current (h : LockInv s) {c : Nat} (hc : c ∈ s.lockPending) : c ∉ s.lockCurrent :=
  List.disjoint_of_nodup_append h.nodup hc

/-- A change that keeps the lists, the counters and what each current context
locks keeps the invariant, whatever else it does to the heap. -/
theorem frame (h : LockInv s) {s' : LockState} (hp : s'.lockPending = s.lockPending)
    (hcur : s'.lockCurrent = s.lockCurrent) (hnp : s'.lockNumPending = s.lockNumPending)
    (hnc : s'.lockNumCurrent = s.lockNumCurrent) (hnext : s.next ≤ s'.next)
    (hctx : ∀ a ∈ s.lockCurrent, (s'.contexts a).map LockContext.target = (s.contexts a).map LockContext.target) :
    LockInv s' := by
  -- a current context of `s'` is one of `s` with the same target
  have hsame : ∀ a ∈ s.lockCurrent, ∀ x, s'.contexts a = some x →
      ∃ y, s.contexts a = some y ∧ x.target = y.target := by
    intro a ha x hx
    obtain ⟨y, hy⟩ := h.currentLive a ha
    have := hctx a ha
    rw [hx, hy] at this
    exact ⟨y, hy, Option.some.inj this⟩
  refine ⟨by rw [hnp, hp, h.numPending], by rw [hnc, hcur, h.numCurrent], hnc ▸ h.currentMax,
    hp ▸ hcur ▸ h.nodup, ?_, ?_, ?_⟩
  · intro a ha
    rw [hcur] at ha
    obtain ⟨y, hy⟩ := h.currentLive a ha
    have := hctx a ha
    rw [hy] at this
    obtain ⟨x, hx, -⟩ := Option.map_eq_some_iff.mp this
    exact ⟨x, hx⟩
  · intro a ha
    rw [hp, hcur] at ha
    exact Nat.lt_of_lt_of_le (h.below a ha) hnext
  · rw [hcur]
    refine h.distinct.imp_of_mem fun ha hb hab ca cb hca hcb => ?_
    obtain ⟨ya, hya, hta⟩ := hsame _ ha ca hca
    obtain ⟨yb, hyb, htb⟩ := hsame _ hb cb hcb
    rw [lockMatches_congr hta htb]
    exact hab ya yb hya hyb

/-- The requests are not part of the bookkeeping. -/
theorem setRequests (h : LockInv s) (requests : Nat → Option LockRequest) :
    LockInv { s with requests } :=
  h.frame rfl rfl rfl rfl le_rfl fun _ _ => rfl

/-- Writing the queue of a live context leaves every target as it was. -/
theorem map_target_update_queue {contexts : Nat → Option LockContext} {c : Nat} {lockCtx : LockContext}
    (hc : contexts c = some lockCtx) (q : List Nat) (a : Nat) :
    (Function.update contexts c (some { lockCtx with reqQueue := q }) a).map LockContext.target =
      (contexts a).map LockContext.target := by
  by_cases ha : a = c
  · subst ha
    simp only [Function.update_self, hc, Option.map_some]
    rfl
  · simp only [Function.update_of_ne ha]

/-- Nor is the queue of a context. -/
theorem setQueue (h : LockInv s) {c : Nat} {lockCtx : LockContext} (hc : s.contexts c = some lockCtx)
    (q : List Nat) :
    LockInv { s with contexts := Function.update s.contexts c (some { lockCtx with reqQueue := q }) } :=
  h.frame rfl rfl rfl rfl le_rfl fun a _ => map_target_update_queue hc q a

/-- Freeing a context off `lock_current` keeps the invariant. -/
theorem freeContext (h : LockInv s) {c : Nat} (hc : c ∉ s.lockCurrent) : LockInv (tallocFreeContext s c) := by
  refine h.frame rfl rfl rfl rfl le_rfl fun a ha => ?_
  have hne : a ≠ c := fun e => hc (e ▸ ha)
  simp only [tallocFreeContext, Function.update_of_ne hne]

/-- Taking a pending context off its list, as the walk of `ctdb_lock_schedule`
does before it frees one. -/
theorem erasePending (h : LockInv s) {c : Nat} (hc : c ∈ s.lockPending) :
    LockInv { s with lockPending := s.lockPending.erase c, lockNumPending := s.lockNumPending - 1 } := by
  have hsub : List.Sublist (s.lockPending.erase c ++ s.lockCurrent) (s.lockPending ++ s.lockCurrent) :=
    List.erase_sublist.append_right _
  refine ⟨?_, h.numCurrent, h.currentMax, h.nodup.sublist hsub, h.currentLive,
    fun a ha => h.below a (hsub.subset ha), h.distinct⟩
  have hpos := List.length_pos_of_mem hc
  simp only [h.numPending, List.length_erase_of_mem hc]
  omega

/-- Taking a current context off its list, as its destructor does. -/
theorem eraseCurrent (h : LockInv s) {c : Nat} (hc : c ∈ s.lockCurrent) :
    LockInv { s with lockCurrent := s.lockCurrent.erase c, lockNumCurrent := s.lockNumCurrent - 1 } := by
  have hsub : List.Sublist (s.lockPending ++ s.lockCurrent.erase c) (s.lockPending ++ s.lockCurrent) :=
    List.erase_sublist.append_left _
  have hpos := List.length_pos_of_mem hc
  refine ⟨h.numPending, ?_, ?_, h.nodup.sublist hsub, fun a ha => h.currentLive a (List.erase_subset ha),
    fun a ha => h.below a (hsub.subset ha), h.distinct.sublist List.erase_sublist⟩
  · simp only [h.numCurrent, List.length_erase_of_mem hc]
    omega
  · dsimp only
    have := h.currentMax
    omega

/-- Moving a pending context whose lock no current context holds to
`lock_current`, below the limit. -/
theorem moveToCurrent (h : LockInv s) {c : Nat} {lockCtx : LockContext} (hc : c ∈ s.lockPending)
    (hlive : s.contexts c = some lockCtx) (hmax : ¬ s.lockNumCurrent ≥ MAX_LOCK_PROCESSES_PER_DB)
    (hfree : ∀ a ∈ s.lockCurrent, ∀ ca, s.contexts a = some ca →
      lockMatches ca lockCtx.ctdbDb lockCtx.key lockCtx.priority lockCtx.type = false) :
    LockInv { s with
      lockPending := s.lockPending.erase c
      lockNumPending := s.lockNumPending - 1
      lockCurrent := s.lockCurrent ++ [c]
      lockNumCurrent := s.lockNumCurrent + 1 } := by
  -- the two lists hold the contexts they held, `c` moved from one to the other
  have hperm : List.Perm (s.lockPending.erase c ++ (s.lockCurrent ++ [c])) (s.lockPending ++ s.lockCurrent) := by
    refine (List.perm_append_comm.append_left _).trans (List.perm_middle.trans ?_)
    exact ((List.perm_cons_erase hc).append_right _).symm
  have hpos := List.length_pos_of_mem hc
  refine ⟨?_, ?_, ?_, hperm.nodup_iff.mpr h.nodup, ?_, fun a ha => h.below a (hperm.subset ha), ?_⟩ <;>
    dsimp only
  · simp only [h.numPending, List.length_erase_of_mem hc]
    omega
  · simp only [h.numCurrent, List.length_append, List.length_singleton]
    omega
  · omega
  · intro a ha
    rcases List.mem_append.mp ha with ha | ha
    · exact h.currentLive a ha
    · rw [List.mem_singleton] at ha
      subst ha
      exact ⟨lockCtx, hlive⟩
  · refine List.pairwise_append.mpr ⟨h.distinct, List.pairwise_singleton _ _, fun a ha b hb ca cb hca hcb => ?_⟩
    rw [List.mem_singleton] at hb
    subst hb
    rw [hlive, Option.some.injEq] at hcb
    subst hcb
    exact hfree a ha ca hca

/-- A new context at the next free address, at the end of `lock_pending`. -/
theorem addPending (h : LockInv s) (lockCtx : LockContext) :
    LockInv { s with
      contexts := Function.update s.contexts s.next (some lockCtx)
      lockPending := s.lockPending ++ [s.next]
      lockNumPending := s.lockNumPending + 1
      next := s.next + 1 } := by
  have hfresh : s.next ∉ s.lockPending ++ s.lockCurrent := fun hm => Nat.lt_irrefl _ (h.below _ hm)
  have hcur : ∀ a ∈ s.lockCurrent, a ≠ s.next := fun a ha e => hfresh (List.mem_append_right _ (e ▸ ha))
  refine ⟨?_, h.numCurrent, h.currentMax, ?_, ?_, ?_, ?_⟩ <;> dsimp only
  · simp only [h.numPending, List.length_append, List.length_singleton]
    omega
  · have hperm : List.Perm (s.lockPending ++ [s.next] ++ s.lockCurrent) (s.next :: (s.lockPending ++ s.lockCurrent)) := by
      rw [List.append_assoc, List.singleton_append]
      exact List.perm_middle
    exact hperm.nodup_iff.mpr (List.nodup_cons.mpr ⟨hfresh, h.nodup⟩)
  · intro a ha
    rw [Function.update_of_ne (hcur a ha)]
    exact h.currentLive a ha
  · intro a ha
    simp only [List.mem_append, List.mem_singleton] at ha
    rcases ha with (ha | rfl) | ha
    · exact Nat.lt_succ_of_lt (h.below a (List.mem_append_left _ ha))
    · exact Nat.lt_succ_self _
    · exact Nat.lt_succ_of_lt (h.below a (List.mem_append_right _ ha))
  · refine h.distinct.imp_of_mem fun ha hb hab ca cb hca hcb => ?_
    rw [Function.update_of_ne (hcur _ ha)] at hca
    rw [Function.update_of_ne (hcur _ hb)] at hcb
    exact hab ca cb hca hcb

/-- A request filed at the next free address on the queue of a live context. -/
theorem fileRequest (h : LockInv s) {c : Nat} {lockCtx : LockContext} (hc : s.contexts c = some lockCtx)
    (q : List Nat) (req : LockRequest) :
    LockInv { s with
      contexts := Function.update s.contexts c (some { lockCtx with reqQueue := q })
      requests := Function.update s.requests s.next (some req)
      next := s.next + 1 } :=
  h.frame rfl rfl rfl rfl (Nat.le_succ _) fun a _ => map_target_update_queue hc q a

end LockInv

/-! ## The walk over `lock_pending` -/

/-- A walk that found nothing read every context of the list and none of them
locks the same. -/
theorem findLockContext_eq_none {s : LockState} {ctdbDb : Option Nat} {key : TdbData}
    {priority : UInt32} {type : LockType} {cs : List Nat}
    (h : findLockContext s ctdbDb key priority type cs = some none) :
    ∀ a ∈ cs, ∀ ca, s.contexts a = some ca → lockMatches ca ctdbDb key priority type = false := by
  induction cs with
  | nil => intro a ha; cases ha
  | cons c cs ih =>
      intro a ha ca hca
      cases hc : s.contexts c with
      | none => simp [findLockContext, hc] at h
      | some lockCtx =>
          simp only [findLockContext, hc, Option.bind_eq_bind, Option.bind_some] at h
          split at h
          · simp at h
          · next hm =>
              rcases List.mem_cons.mp ha with rfl | ha
              · rw [hc, Option.some.injEq] at hca
                subst hca
                simpa using hm
              · exact ih h a ha ca hca

/-- The walk neither touches `lock_current` nor its counter, only takes
contexts off `lock_pending`, and picks from the list it walks. -/
theorem schedulePick_current {s s' : LockState} {cs : List Nat} {picked : Option Nat}
    (h : schedulePick s cs = some (s', picked)) :
    s'.lockCurrent = s.lockCurrent ∧ s'.lockNumCurrent = s.lockNumCurrent ∧
      (∀ a ∈ s'.lockPending, a ∈ s.lockPending) ∧ ∀ c, picked = some c → c ∈ cs := by
  induction cs generalizing s with
  | nil =>
      simp only [schedulePick, pure, Option.some.injEq, Prod.mk.injEq] at h
      obtain ⟨rfl, rfl⟩ := h
      exact ⟨rfl, rfl, fun _ h => h, fun _ h => by cases h⟩
  | cons c cs ih =>
      obtain ⟨lockCtx, hc, h⟩ := Option.bind_eq_some_iff.mp h
      split at h
      · obtain ⟨h1, h2, h3, h4⟩ := ih h
        exact ⟨h1, h2, fun a ha => List.erase_subset (h3 a ha), fun c' hc' => List.mem_cons_of_mem _ (h4 c' hc')⟩
      · obtain ⟨found, -, h⟩ := Option.bind_eq_some_iff.mp h
        cases found with
        | none =>
            simp only [pure, Option.some.injEq, Prod.mk.injEq] at h
            obtain ⟨rfl, rfl⟩ := h
            exact ⟨rfl, rfl, fun _ h => h, fun c' hc' => by cases hc'; exact List.mem_cons_self⟩
        | some _ =>
            obtain ⟨h1, h2, h3, h4⟩ := ih h
            exact ⟨h1, h2, h3, fun c' hc' => List.mem_cons_of_mem _ (h4 c' hc')⟩

/-- Over distinct pending contexts the walk keeps the invariant, and what it
picks is a live pending context whose lock no current context holds. -/
theorem schedulePick_inv {s s' : LockState} {cs : List Nat} {picked : Option Nat} (h : LockInv s)
    (hcs : cs.Nodup) (hsub : ∀ c ∈ cs, c ∈ s.lockPending) (hpick : schedulePick s cs = some (s', picked)) :
    LockInv s' ∧ ∀ c, picked = some c → c ∈ s'.lockPending ∧ ∃ lockCtx, s'.contexts c = some lockCtx ∧
      ∀ a ∈ s'.lockCurrent, ∀ ca, s'.contexts a = some ca →
        lockMatches ca lockCtx.ctdbDb lockCtx.key lockCtx.priority lockCtx.type = false := by
  induction cs generalizing s with
  | nil =>
      simp only [schedulePick, pure, Option.some.injEq, Prod.mk.injEq] at hpick
      obtain ⟨rfl, rfl⟩ := hpick
      exact ⟨h, fun c hc => by cases hc⟩
  | cons c cs ih =>
      obtain ⟨hcnot, hcs'⟩ := List.nodup_cons.mp hcs
      have hc := hsub c List.mem_cons_self
      obtain ⟨lockCtx, hctx, hpick⟩ := Option.bind_eq_some_iff.mp hpick
      split at hpick
      · -- no request waits on `c`: it is taken off the list and freed
        refine ih ((h.erasePending hc).freeContext (h.pending_not_current hc)) hcs' (fun a ha => ?_) hpick
        have hne : a ≠ c := by
          rintro rfl
          exact hcnot ha
        exact (List.mem_erase_of_ne hne).mpr (hsub a (List.mem_cons_of_mem _ ha))
      · obtain ⟨found, hfound, hpick⟩ := Option.bind_eq_some_iff.mp hpick
        cases found with
        | none =>
            simp only [pure, Option.some.injEq, Prod.mk.injEq] at hpick
            obtain ⟨rfl, rfl⟩ := hpick
            refine ⟨h, fun c' hc' => ?_⟩
            cases hc'
            exact ⟨hc, lockCtx, hctx, findLockContext_eq_none hfound⟩
        | some _ => exact ih h hcs' (fun a ha => hsub a (List.mem_cons_of_mem _ ha)) hpick

/-- `ctdb_lock_schedule` keeps the invariant: a context moves to
`lock_current` only below the limit and when no current context holds its
lock. -/
theorem ctdbLockSchedule_inv {s s' : LockState} {setup : LockSetup} (h : LockInv s)
    (hs : ctdbLockSchedule s setup = some s') : LockInv s' := by
  simp only [ctdbLockSchedule, Option.bind_eq_bind] at hs
  split_ifs at hs with hmax hnil
  · exact Option.some.inj hs ▸ h
  · exact Option.some.inj hs ▸ h
  · obtain ⟨⟨s₁, picked⟩, hpick, hmove⟩ := Option.bind_eq_some_iff.mp hs
    obtain ⟨h₁, hpicked⟩ := schedulePick_inv h (List.nodup_append.mp h.nodup).1 (fun _ h => h) hpick
    obtain ⟨-, hnc, -, -⟩ := schedulePick_current hpick
    split at hmove
    · next _ _ c hpc =>
        obtain ⟨hc, lockCtx, hlive, hfree⟩ := hpicked c hpc
        rw [← Option.some.inj hmove]
        exact h₁.moveToCurrent hc hlive (hnc ▸ hmax) hfree
    · exact Option.some.inj hmove ▸ h₁

/-- A context is current after `ctdb_lock_schedule` only if it was current or
pending before. -/
theorem ctdbLockSchedule_current {s s' : LockState} {setup : LockSetup}
    (hs : ctdbLockSchedule s setup = some s') :
    ∀ a ∈ s'.lockCurrent, a ∈ s.lockCurrent ∨ a ∈ s.lockPending := by
  simp only [ctdbLockSchedule, Option.bind_eq_bind] at hs
  split_ifs at hs
  · exact Option.some.inj hs ▸ fun a ha => Or.inl ha
  · exact Option.some.inj hs ▸ fun a ha => Or.inl ha
  · obtain ⟨⟨s₁, picked⟩, hpick, hmove⟩ := Option.bind_eq_some_iff.mp hs
    obtain ⟨hcur, -, -, hpicked⟩ := schedulePick_current hpick
    intro a ha
    split at hmove
    · next _ _ c hpc =>
        rw [← Option.some.inj hmove] at ha
        rcases List.mem_append.mp ha with ha | ha
        · exact Or.inl (hcur ▸ ha)
        · rw [List.mem_singleton] at ha
          exact Or.inr (ha ▸ hpicked c hpc)
    · rw [← Option.some.inj hmove, hcur] at ha
      exact Or.inl ha

/-! ## Every function keeps the invariant -/

/-- The free of a context: a current one is taken off its list by its
destructor, and the schedule that follows cannot put it back. -/
theorem tallocFreeLockContext_inv {s s' : LockState} {c : Nat} {setup : LockSetup} (h : LockInv s)
    (hs : tallocFreeLockContext s c setup = some s') : LockInv s' := by
  obtain ⟨_, -, hs⟩ := Option.bind_eq_some_iff.mp hs
  dsimp only at hs
  split at hs
  · next hcur =>
      obtain ⟨s₁, hs₁, hs⟩ := Option.bind_eq_some_iff.mp hs
      rw [← Option.some.inj hs]
      have hc₁ : c ∉ s₁.lockCurrent := by
        intro hm
        rcases ctdbLockSchedule_current hs₁ c hm with hm | hm
        · exact (List.nodup_append.mp h.nodup).2.1.not_mem_erase hm
        · exact h.pending_not_current hm hcur
      exact (ctdbLockSchedule_inv (h.eraseCurrent hcur) hs₁).freeContext hc₁
  · next hcur =>
      rw [← Option.some.inj hs]
      exact h.freeContext hcur

theorem tallocFreeRequest_inv {s s' : LockState} {r : Nat} (h : LockInv s)
    (hs : tallocFreeRequest s r = some s') : LockInv s' := by
  obtain ⟨req, -, hs⟩ := Option.bind_eq_some_iff.mp hs
  dsimp only at hs
  split at hs
  · obtain ⟨lockCtx, hc, hs⟩ := Option.bind_eq_some_iff.mp hs
    rw [← Option.some.inj hs]
    exact (h.setQueue hc _).setRequests _
  · rw [← Option.some.inj hs]
    exact h.setRequests _

theorem ctdbLockFreeRequestContext_inv {s s' : LockState} {r : Nat} {setup : LockSetup} (h : LockInv s)
    (hs : ctdbLockFreeRequestContext s r setup = some s') : LockInv s' := by
  obtain ⟨_, -, hs⟩ := Option.bind_eq_some_iff.mp hs
  obtain ⟨s₁, hs₁, hs⟩ := Option.bind_eq_some_iff.mp hs
  exact tallocFreeLockContext_inv (tallocFreeRequest_inv h hs₁) hs

theorem ctdbLockInternal_inv {s s' : LockState} {r : Nat} {ctdbDb : Option Nat} {key : TdbData}
    {priority : UInt32} {callback : Bool → LockCallback} {type : LockType} {autoMark : Bool}
    {setup : LockSetup} (h : LockInv s)
    (hs : ctdbLockInternal s ctdbDb key priority callback type autoMark setup = some (r, s')) : LockInv s' := by
  obtain ⟨found, -, hs⟩ := Option.bind_eq_some_iff.mp hs
  -- the context the request joins: the one found, or a new one
  obtain ⟨c, s₁, h₁, hs⟩ : ∃ c s₁, LockInv s₁ ∧ (do
      let lockCtx ← s₁.contexts c
      let s := { s₁ with
        contexts := Function.update s₁.contexts c (some { lockCtx with reqQueue := lockCtx.reqQueue ++ [s₁.next] })
        requests := Function.update s₁.requests s₁.next (some ⟨c, callback, true⟩)
        next := s₁.next + 1 }
      let s ← ctdbLockSchedule s setup
      pure (s₁.next, s)) = some (r, s') := by
    cases found with
    | some c => exact ⟨c, s, h, hs⟩
    | none => exact ⟨_, _, h.addPending _, hs⟩
  obtain ⟨lockCtx, hc, hs⟩ := Option.bind_eq_some_iff.mp hs
  obtain ⟨s₂, hs₂, hs⟩ := Option.bind_eq_some_iff.mp hs
  simp only [pure, Option.some.injEq, Prod.mk.injEq] at hs
  rw [← hs.2]
  exact ctdbLockSchedule_inv (h₁.fileRequest hc _ _) hs₂

theorem runCallback_inv {s s' : LockState} {c r : Nat} {locked : Bool} {setup : LockSetup} (h : LockInv s)
    (hs : runCallback s c r locked setup = some s') : LockInv s' := by
  obtain ⟨lockCtx, -, hs⟩ := Option.bind_eq_some_iff.mp hs
  obtain ⟨req, -, hs⟩ := Option.bind_eq_some_iff.mp hs
  -- the reset of the request's destructor touches only the requests
  have h₁ : LockInv (if lockCtx.autoMark then
      { s with requests := Function.update s.requests r (some { req with destructor := false }) } else s) := by
    split
    · exact h.setRequests _
    · exact h
  dsimp only at hs
  split at hs
  · exact Option.some.inj hs ▸ h₁
  · exact tallocFreeRequest_inv h₁ hs
  · exact ctdbLockFreeRequestContext_inv h₁ hs

theorem processCallbacksLoop_inv {s s' : LockState} {c : Nat} {locked : Bool} {setup : LockSetup}
    {rs : List Nat} (h : LockInv s) (hs : processCallbacksLoop s c locked setup rs = some s') : LockInv s' := by
  induction rs generalizing s with
  | nil => exact Option.some.inj hs ▸ h
  | cons r rs ih =>
      obtain ⟨s₁, hs₁, hs⟩ := Option.bind_eq_some_iff.mp hs
      exact ih (runCallback_inv h hs₁) hs

theorem ctdbLockHandler_inv {s s' : LockState} {c : Nat} {locked : Bool} {setup : LockSetup} (h : LockInv s)
    (hs : ctdbLockHandler s c locked setup = some s') : LockInv s' := by
  obtain ⟨_, -, hs⟩ := Option.bind_eq_some_iff.mp hs
  obtain ⟨s₁, hs₁, hs⟩ := Option.bind_eq_some_iff.mp hs
  have h₁ : LockInv s₁ := by
    obtain ⟨lockCtx, -, hs₁⟩ := Option.bind_eq_some_iff.mp hs₁
    obtain ⟨s₀, hs₀, hs₁⟩ := Option.bind_eq_some_iff.mp hs₁
    obtain ⟨_, -, hs₁⟩ := Option.bind_eq_some_iff.mp hs₁
    exact Option.some.inj hs₁ ▸ processCallbacksLoop_inv h hs₀
  obtain ⟨lockCtx, -, hs⟩ := Option.bind_eq_some_iff.mp hs
  split at hs
  · exact tallocFreeLockContext_inv h₁ hs
  · exact Option.some.inj hs ▸ h₁

/-! ## Runs -/

theorem lockStep_inv {s s' : LockState} {e : LockEvent} (h : LockInv s) (hs : lockStep s e = some s') :
    LockInv s' := by
  cases e with
  | lockRecord ctdbDb key autoMark callback setup =>
      obtain ⟨⟨r, s₁⟩, hs₁, rfl⟩ := Option.map_eq_some_iff.mp hs
      exact ctdbLockInternal_inv h hs₁
  | lockDb ctdbDb autoMark callback setup =>
      obtain ⟨⟨r, s₁⟩, hs₁, rfl⟩ := Option.map_eq_some_iff.mp hs
      exact ctdbLockInternal_inv h hs₁
  | lockAlldbPrio priority autoMark callback setup =>
      obtain ⟨⟨r, s₁⟩, hs₁, rfl⟩ := Option.map_eq_some_iff.mp hs
      simp only [ctdbLockAlldbPrio] at hs₁
      split at hs₁
      · exact (Prod.mk.inj (Option.some.inj hs₁)).2 ▸ h
      · obtain ⟨⟨r', s₂⟩, hs₂, heq⟩ := Option.map_eq_some_iff.mp hs₁
        exact (Prod.mk.inj heq).2 ▸ ctdbLockInternal_inv h hs₂
  | lockAlldb autoMark callback setup =>
      obtain ⟨⟨r, s₁⟩, hs₁, rfl⟩ := Option.map_eq_some_iff.mp hs
      exact ctdbLockInternal_inv h hs₁
  | freeRequest r => exact tallocFreeRequest_inv h hs
  | freeRequestContext r setup => exact ctdbLockFreeRequestContext_inv h hs
  | helper c locked setup =>
      simp only [lockStep] at hs
      split at hs
      · exact ctdbLockHandler_inv h hs
      · exact Option.some.inj hs ▸ h

theorem lockRun_inv {s s' : LockState} {es : List LockEvent} (h : LockInv s) (hs : lockRun s es = some s') :
    LockInv s' := by
  induction es generalizing s with
  | nil => exact Option.some.inj hs ▸ h
  | cons e es ih =>
      obtain ⟨s₁, hs₁, hs⟩ := Option.bind_eq_some_iff.mp hs
      exact ih (lockStep_inv h hs₁) hs

/-- On every run from the start that does not fault, the scheduler's
bookkeeping holds. -/
theorem lockRun_bookkeeping (es : List LockEvent) {s : LockState} (h : lockRun LockState.init es = some s) :
    LockInv s :=
  lockRun_inv lockInv_init h

theorem lockRun_bookkeeping_record_twice :
    ∃ s, lockRun LockState.init [.lockRecord 0 [1] true (fun _ => .keep) .ok,
      .lockRecord 0 [1] true (fun _ => .keep) .ok, .helper 0 true .ok] = some s ∧ LockInv s :=
  ⟨_, rfl, lockRun_bookkeeping [.lockRecord 0 [1] true (fun _ => .keep) .ok,
    .lockRecord 0 [1] true (fun _ => .keep) .ok, .helper 0 true .ok] rfl⟩

end Ctdb.Lock

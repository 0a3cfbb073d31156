import Ctdb.Lock.Schedule

/-!
# A lock context freed while it is pending

`ctdb_lock_context_destructor` is what takes a lock context off its list, and
it is installed only once the context's helper is forked. A context that is
still pending has none: when its helper could not be started, when another
context holds the same lock, or when `MAX_LOCK_PROCESSES_PER_DB` helpers run.
`ctdb_lock_free_request_context` frees such a context all the same
(`ctdbLockFreeRequestContext_of_not_current`): it is gone from the heap but
still on `lock_pending`, and `lock_num_pending` still counts it. Every lock
request walks `lock_pending` from its start, so the next one reads the freed
context (`ctdbLockInternal_of_freed_head`). The freeze code is the caller: a
thaw frees the freeze handle, whose destructor frees its request and context
together, pending or not (`lockRun_free_pending_faults`).

The walk of `ctdb_lock_schedule` over contexts that all have requests changes
nothing (`schedulePick_fst`), which is what pins down the state after a
request whose helper cannot be started.

A context on `lock_current` can be freed too early as well. When the first
callback that `process_callbacks` runs frees its request with the context, as
the freeze code does when the lock failed, the loop goes on to read the freed
context: in its next round, or in the test of `auto_mark` after it
(`ctdbLockHandler_reads_freed`).
-/

namespace Ctdb.Lock

/-! ## Reading the lists -/

theorem findLockContext_of_freed {s : LockState} {c : Nat} (hc : s.contexts c = none)
    (ctdbDb : Option Nat) (key : TdbData) (priority : UInt32) (type : LockType) (cs : List Nat) :
    findLockContext s ctdbDb key priority type (c :: cs) = none := by
  simp [findLockContext, hc]

/-! ## A walk that frees nothing -/

/-- Over contexts that all have requests, the walk of `ctdb_lock_schedule`
frees nothing and leaves the state as it is. -/
theorem schedulePick_fst {s s' : LockState} {cs : List Nat} {picked : Option Nat}
    (hreq : ∀ c ∈ cs, ∃ lockCtx, s.contexts c = some lockCtx ∧ lockCtx.reqQueue ≠ [])
    (h : schedulePick s cs = some (s', picked)) : s' = s := by
  induction cs with
  | nil =>
      simp only [schedulePick, pure, Option.some.injEq, Prod.mk.injEq] at h
      exact h.1.symm
  | cons c cs ih =>
      obtain ⟨lockCtx, hc, hq⟩ := hreq c (List.mem_cons_self ..)
      have ih := ih fun c' h => hreq c' (List.mem_cons_of_mem _ h)
      simp only [schedulePick, hc, hq, Option.bind_eq_bind, Option.bind_some, if_false] at h
      obtain ⟨found, -, h⟩ := Option.bind_eq_some_iff.mp h
      cases found with
      | none =>
          simp only [pure, Option.some.injEq, Prod.mk.injEq] at h
          exact h.1.symm
      | some _ => exact ih h

/-- When the helper cannot be started and every pending context has requests,
`ctdb_lock_schedule` changes nothing. -/
theorem ctdbLockSchedule_of_not_ok {s s' : LockState} {setup : LockSetup} (hsetup : setup ≠ .ok)
    (hreq : ∀ c ∈ s.lockPending, ∃ lockCtx, s.contexts c = some lockCtx ∧ lockCtx.reqQueue ≠ [])
    (h : ctdbLockSchedule s setup = some s') : s' = s := by
  simp only [ctdbLockSchedule, Option.bind_eq_bind] at h
  split_ifs at h with hmax hnil
  · exact (Option.some.inj h).symm
  · exact (Option.some.inj h).symm
  · obtain ⟨⟨s₁, picked⟩, hpick, hmove⟩ := Option.bind_eq_some_iff.mp h
    rw [← schedulePick_fst hreq hpick]
    split at hmove
    · exact absurd rfl hsetup
    · exact (Option.some.inj hmove).symm

/-! ## Freeing a request and its context -/

@[simp] theorem tallocFreeContext_contexts_self (s : LockState) (c : Nat) :
    (tallocFreeContext s c).contexts c = none := by
  simp [tallocFreeContext]

/-- The free of a live request with a live context. -/
theorem tallocFreeRequest_eq {s : LockState} {r : Nat} {req : LockRequest} {lockCtx : LockContext}
    (hr : s.requests r = some req) (hc : s.contexts req.lctx = some lockCtx) :
    tallocFreeRequest s r = some { s with
      contexts := if req.destructor then
          Function.update s.contexts req.lctx (some { lockCtx with reqQueue := lockCtx.reqQueue.erase r })
        else s.contexts
      requests := Function.update s.requests r none } := by
  cases hd : req.destructor <;> simp [tallocFreeRequest, hr, hc, hd]

/-- A context off `lock_current` has no destructor: its free touches no list. -/
theorem tallocFreeLockContext_of_not_current {s : LockState} {c : Nat} {lockCtx : LockContext}
    (setup : LockSetup) (hc : s.contexts c = some lockCtx) (hcur : c ∉ s.lockCurrent) :
    tallocFreeLockContext s c setup = some (tallocFreeContext s c) := by
  simp [tallocFreeLockContext, hc, hcur]

/-- `ctdb_lock_free_request_context` on a request whose context is not on
`lock_current` frees the context, which stays on `lock_pending`, and
`lock_num_pending` still counts it. -/
theorem ctdbLockFreeRequestContext_of_not_current {s : LockState} {r : Nat} {req : LockRequest}
    {lockCtx : LockContext} (setup : LockSetup) (hr : s.requests r = some req)
    (hc : s.contexts req.lctx = some lockCtx) (hcur : req.lctx ∉ s.lockCurrent) :
    ∃ s', ctdbLockFreeRequestContext s r setup = some s' ∧ s'.contexts req.lctx = none ∧
      s'.lockPending = s.lockPending ∧ s'.lockNumPending = s.lockNumPending := by
  obtain ⟨lockCtx', hc'⟩ : ∃ lockCtx', (if req.destructor then
      Function.update s.contexts req.lctx (some { lockCtx with reqQueue := lockCtx.reqQueue.erase r })
      else s.contexts) req.lctx = some lockCtx' := by
    split <;> simp [hc]
  let s₁ : LockState := { s with
    contexts := if req.destructor then
        Function.update s.contexts req.lctx (some { lockCtx with reqQueue := lockCtx.reqQueue.erase r })
      else s.contexts
    requests := Function.update s.requests r none }
  have hfree : tallocFreeLockContext s₁ req.lctx setup = some (tallocFreeContext s₁ req.lctx) :=
    tallocFreeLockContext_of_not_current setup hc' hcur
  refine ⟨_, ?_, tallocFreeContext_contexts_self s₁ req.lctx, rfl, rfl⟩
  simp only [ctdbLockFreeRequestContext, hr, tallocFreeRequest_eq hr hc, Option.bind_eq_bind, Option.bind_some]
  exact hfree

/-! ## Requests -/

/-- A lock request reads the first context of `lock_pending`: once that context
is freed, every request faults. -/
theorem ctdbLockInternal_of_freed_head {s : LockState} {c : Nat} {cs : List Nat}
    (hpend : s.lockPending = c :: cs) (hc : s.contexts c = none) (ctdbDb : Option Nat) (key : TdbData)
    (priority : UInt32) (callback : Bool → LockCallback) (type : LockType) (autoMark : Bool)
    (setup : LockSetup) :
    ctdbLockInternal s ctdbDb key priority callback type autoMark setup = none := by
  simp [ctdbLockInternal, hpend, findLockContext_of_freed hc]

/-- With nothing pending and a helper that cannot be started, a request gets a
new context at the next address, is filed at the address after it, and stays
pending. -/
theorem ctdbLockInternal_of_pending_nil {s s' : LockState} {r : Nat} {ctdbDb : Option Nat}
    {key : TdbData} {priority : UInt32} {callback : Bool → LockCallback} {type : LockType}
    {autoMark : Bool} {setup : LockSetup} (hpend : s.lockPending = []) (hsetup : setup ≠ .ok)
    (h : ctdbLockInternal s ctdbDb key priority callback type autoMark setup = some (r, s')) :
    r = s.next + 1 ∧ s'.lockPending = [s.next] ∧ s'.lockCurrent = s.lockCurrent ∧
      s'.contexts s.next = some ⟨type, ctdbDb, key, priority, autoMark, [s.next + 1]⟩ ∧
      s'.requests (s.next + 1) = some ⟨s.next, callback, true⟩ := by
  simp only [ctdbLockInternal, hpend, findLockContext, Option.bind_eq_bind, Option.bind_some,
    Function.update_self, List.nil_append, Function.update_idem] at h
  obtain ⟨s₁, hsched, hret⟩ := Option.bind_eq_some_iff.mp h
  simp only [pure, Option.some.injEq, Prod.mk.injEq] at hret
  obtain ⟨rfl, rfl⟩ := hret
  rw [ctdbLockSchedule_of_not_ok hsetup ?_ hsched]
  · simp
  · simp

/-! ## A context freed while pending -/

/-- A request for the databases of a priority stays pending when its helper
cannot be started; `ctdb_lock_free_request_context`, as the freeze handle's
destructor calls it on a thaw before the lock is taken, frees the context but
leaves it on `lock_pending`, and the next lock request reads it. -/
theorem lockRun_free_pending_faults (s : LockState) (hpend : s.lockPending = [])
    (hnext : s.next ∉ s.lockCurrent) {priority : UInt32} (hp : priority.toNat ≤ NUM_DB_PRIORITIES)
    (autoMark : Bool) (callback : Bool → LockCallback) {setup : LockSetup} (hsetup : setup ≠ .ok)
    (setup' : LockSetup) (ctdbDb : Nat) (key : TdbData) (autoMark' : Bool)
    (callback' : Bool → LockCallback) (setup'' : LockSetup) :
    lockRun s [.lockAlldbPrio priority autoMark callback setup, .freeRequestContext (s.next + 1) setup',
      .lockRecord ctdbDb key autoMark' callback' setup''] = none := by
  have hp' : ¬ priority.toNat > NUM_DB_PRIORITIES := Nat.not_lt.mpr hp
  cases h₁ : ctdbLockInternal s none [] priority callback .lockAlldbPrio autoMark setup with
  | none => simp [lockRun, lockStep, ctdbLockAlldbPrio, hp', h₁]
  | some p =>
      obtain ⟨r, s₁⟩ := p
      obtain ⟨rfl, hpend₁, hcur₁, hc₁, hr₁⟩ := ctdbLockInternal_of_pending_nil hpend hsetup h₁
      obtain ⟨s₂, hfree, hc₂, hpend₂, -⟩ :=
        ctdbLockFreeRequestContext_of_not_current setup' hr₁ hc₁ (hcur₁ ▸ hnext)
      have hfault := ctdbLockInternal_of_freed_head (hpend₂.trans hpend₁) hc₂ (some ctdbDb) key 0
        callback' .lockRecord autoMark' setup''
      simp [lockRun, lockStep, ctdbLockAlldbPrio, hp', h₁, hfree, ctdbLockRecord, hfault]

theorem lockRun_thaw_before_lock_faults :
    lockRun LockState.init
      [.lockAlldbPrio 1 false (fun locked => if locked then .keep else .freeRequestContext) .pipeFails,
        .freeRequestContext 1 .ok, .lockRecord 0 [1] true (fun _ => .keep) .ok] = none :=
  lockRun_free_pending_faults LockState.init rfl (by simp [LockState.init]) (by decide) false _
    (by decide) .ok 0 [1] true _ .ok

/-! ## A context freed by its own callback -/

/-- Whatever else it does, the free of a context leaves it freed. -/
theorem tallocFreeLockContext_contexts {s s' : LockState} {c : Nat} {setup : LockSetup}
    (hs : tallocFreeLockContext s c setup = some s') : s'.contexts c = none := by
  obtain ⟨_, -, hs⟩ := Option.bind_eq_some_iff.mp hs
  dsimp only at hs
  split at hs
  · obtain ⟨s₁, -, hs⟩ := Option.bind_eq_some_iff.mp hs
    rw [← Option.some.inj hs]
    exact tallocFreeContext_contexts_self s₁ c
  · rw [← Option.some.inj hs]
    exact tallocFreeContext_contexts_self s c

/-- Once the context is freed, the loop of `process_callbacks` faults at its
next round. -/
theorem processCallbacksLoop_of_freed {s s' : LockState} {c : Nat} {locked : Bool} {setup : LockSetup}
    {rs : List Nat} (hc : s.contexts c = none) (hs : processCallbacksLoop s c locked setup rs = some s') :
    s' = s := by
  cases rs with
  | nil => exact (Option.some.inj hs).symm
  | cons r rs => simp [processCallbacksLoop, runCallback, hc] at hs

/-- When the first callback of a context frees its request with the context,
as `ctdb_freeze_lock_handler` does through the freeze handle's destructor when
the lock failed, `ctdb_lock_handler` reads the freed context: in the next round
of the loop of `process_callbacks`, or in its test of `auto_mark` after it. -/
theorem ctdbLockHandler_reads_freed {s : LockState} {c r : Nat} {rs : List Nat} {lockCtx : LockContext}
    {req : LockRequest} {locked : Bool} (setup : LockSetup) (hc : s.contexts c = some lockCtx)
    (hq : lockCtx.reqQueue = r :: rs) (hr : s.requests r = some req) (hlctx : req.lctx = c)
    (hcb : req.callback locked = .freeRequestContext) :
    ctdbLockHandler s c locked setup = none := by
  -- the first round: the request's destructor may be reset, then the callback frees the context
  have hfirst : ∀ s₁, runCallback s c r locked setup = some s₁ → s₁.contexts c = none := by
    intro s₁ h₁
    simp only [runCallback, hc, hr, Option.bind_eq_bind, Option.bind_some] at h₁
    rw [hcb] at h₁
    obtain ⟨req', hr', h₁⟩ := Option.bind_eq_some_iff.mp h₁
    have hlctx' : req'.lctx = c := by
      split at hr'
      · simp only [Function.update_self, Option.some.injEq] at hr'
        rw [← hr', ← hlctx]
      · rw [hr, Option.some.injEq] at hr'
        rw [← hr', hlctx]
    obtain ⟨s₂, -, h₁⟩ := Option.bind_eq_some_iff.mp h₁
    exact hlctx' ▸ tallocFreeLockContext_contexts h₁
  have hcallbacks : processCallbacks s c locked setup = none := by
    simp only [processCallbacks, hc, hq, processCallbacksLoop, Option.bind_eq_bind, Option.bind_some]
    cases h₁ : runCallback s c r locked setup with
    | none => rfl
    | some s₁ =>
        cases h₂ : processCallbacksLoop s₁ c locked setup rs with
        | none => simp [h₂]
        | some s₂ =>
            have hs₂ := processCallbacksLoop_of_freed (hfirst s₁ h₁) h₂
            simp [h₂, hs₂, hfirst s₁ h₁]
  simp [ctdbLockHandler, hc, hcallbacks]

theorem ctdbLockHandler_freeze_fails :
    ctdbLockHandler ((lockRun LockState.init [.lockAlldbPrio 1 false
      (fun locked => if locked then .keep else .freeRequestContext) .ok]).getD LockState.init) 0 false .ok = none :=
  ctdbLockHandler_reads_freed .ok rfl rfl rfl rfl rfl

end Ctdb.Lock

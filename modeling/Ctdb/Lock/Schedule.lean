import Ctdb.Ltdb.Header
import Ctdb.Freeze.Control

/-!
# The lock scheduler (`server/ctdb_lock.c`)

A request for a lock on a record, a database, the databases of a priority or
all databases (`ctdb_lock_internal`) joins a lock context for what it locks:
the pending context that locks the same, or a new one at the end of
`ctdb->lock_pending`. `ctdb_lock_schedule` walks `lock_pending`, frees the
contexts no request waits on any more, and starts a lock helper for the first
context whose lock no context of `ctdb->lock_current` holds, unless
`MAX_LOCK_PROCESSES_PER_DB` helpers run already; a context whose helper is
running moves to `lock_current`. When the helper answers or dies,
`ctdb_lock_handler` runs the callbacks of the context's requests
(`process_callbacks`), and with `auto_mark` frees the context after them.

Contexts and requests live at addresses of an explicit heap, where a freed one
is `none`. Reading or freeing what has been freed is a fault, the `none` of
every function here. `ctdb_lock_context_destructor` is installed on a context
once its helper is forked and removed again on every failure after that, so it
is set exactly while the context is on `lock_current`: the model reads it off
that list. A callback is what it does to its own request. The statistics, the
marks of `auto_mark`, the timeout handler and the file descriptors are not
modelled, and every `ctdb_lock_schedule` of one event meets the same outcome
of the helper's setup.
-/

namespace Ctdb.Lock

def MAX_LOCK_PROCESSES_PER_DB : Int := 100

/-- `enum lock_type`. -/
inductive LockType
  | lockRecord
  | lockDb
  | lockAlldbPrio
  | lockAlldb
  deriving DecidableEq, Repr

/-- What a callback does to the request it is called for. -/
inductive LockCallback
  | keep
  /-- `talloc_free` of the request. -/
  | freeRequest
  /-- `ctdb_lock_free_request_context`, as the freeze handle's destructor does. -/
  | freeRequestContext
  deriving DecidableEq, Repr

/-- `struct lock_context`: what it locks (`ctdb_db` is `NULL` for the locks of
many databases) and its requests, oldest first. -/
structure LockContext where
  type : LockType
  ctdbDb : Option Nat
  key : TdbData
  priority : UInt32
  autoMark : Bool
  reqQueue : List Nat
  deriving DecidableEq, Repr

/-- `struct lock_request`: its context, its callback given whether the lock was
taken, and whether `ctdb_lock_request_destructor` is still set. -/
structure LockRequest where
  lctx : Nat
  callback : Bool → LockCallback
  destructor : Bool

/-- How `ctdb_lock_schedule` gets the helper of the context it picked going. -/
inductive LockSetup
  | pipeFails
  /-- `talloc_new` or `lock_helper_args` fails. -/
  | argsFail
  | forkFails
  /-- `tevent_add_timer` fails, and the child is killed. -/
  | timerFails
  /-- `tevent_add_fd` fails, and the child is killed. -/
  | fdEventFails
  | ok
  deriving DecidableEq, Repr

/-- The part of `struct ctdb_context` the scheduler uses, with the heap of
contexts and requests and the next free address. -/
structure LockState where
  contexts : Nat → Option LockContext
  requests : Nat → Option LockRequest
  lockPending : List Nat
  lockCurrent : List Nat
  lockNumPending : Int
  lockNumCurrent : Int
  next : Nat

/-- Nothing allocated, no context on either list. -/
def LockState.init : LockState := ⟨fun _ => none, fun _ => none, [], [], 0, 0, 0⟩

/-- The test of `find_lock_context` for one context: the same type, and the same
database and key for a record, the same database for a database, the same
priority for the databases of a priority. -/
def lockMatches (lockCtx : LockContext) (ctdbDb : Option Nat) (key : TdbData) (priority : UInt32)
    (type : LockType) : Bool :=
  lockCtx.type == type &&
    match lockCtx.type with
    | .lockRecord => ctdbDb == lockCtx.ctdbDb && key == lockCtx.key
    | .lockDb => ctdbDb == lockCtx.ctdbDb
    | .lockAlldbPrio => priority == lockCtx.priority
    | .lockAlldb => true

/-- `find_lock_context`: the first context of the list that locks the same,
each context before it read on the way. -/
def findLockContext (s : LockState) (ctdbDb : Option Nat) (key : TdbData) (priority : UInt32)
    (type : LockType) : List Nat → Option (Option Nat)
  | [] => some none
  | c :: cs => do
      let lockCtx ← s.contexts c
      if lockMatches lockCtx ctdbDb key priority type then pure (some c)
      else findLockContext s ctdbDb key priority type cs

/-! ## Freeing -/

/-- `talloc_free` of a context without a destructor: the context goes, and with
it its requests, which are its talloc children. -/
def tallocFreeContext (s : LockState) (c : Nat) : LockState :=
  { s with
    contexts := Function.update s.contexts c none
    requests := fun r => (s.requests r).filter fun req => req.lctx != c }

/-- `talloc_free` of a request: `ctdb_lock_request_destructor`, while set, takes
it off its context's queue. -/
def tallocFreeRequest (s : LockState) (r : Nat) : Option LockState := do
  let req ← s.requests r
  let contexts ←
    if req.destructor then do
      let lockCtx ← s.contexts req.lctx
      pure (Function.update s.contexts req.lctx (some { lockCtx with reqQueue := lockCtx.reqQueue.erase r }))
    else pure s.contexts
  pure { s with contexts, requests := Function.update s.requests r none }

/-! ## Scheduling -/

/-- The walk of `ctdb_lock_schedule` over `lock_pending`: a context no request
waits on is taken off the list and freed, and the walk stops at the first
context whose lock no context of `lock_current` holds. -/
def schedulePick (s : LockState) : List Nat → Option (LockState × Option Nat)
  | [] => pure (s, none)
  | c :: cs => do
      let lockCtx ← s.contexts c
      if lockCtx.reqQueue = [] then
        schedulePick (tallocFreeContext { s with
          lockPending := s.lockPending.erase c
          lockNumPending := s.lockNumPending - 1 } c) cs
      else
        match ← findLockContext s lockCtx.ctdbDb lockCtx.key lockCtx.priority lockCtx.type s.lockCurrent with
        | none => pure (s, some c)
        | some _ => schedulePick s cs

/-- `ctdb_lock_schedule`: the context picked moves to `lock_current` once its
helper runs; when a step of the setup fails it stays pending. -/
def ctdbLockSchedule (s : LockState) (setup : LockSetup) : Option LockState := do
  if s.lockNumCurrent ≥ MAX_LOCK_PROCESSES_PER_DB then return s
  if s.lockPending = [] then return s
  let (s, picked) ← schedulePick s s.lockPending
  match picked, setup with
  | some c, .ok =>
      pure { s with
        lockPending := s.lockPending.erase c
        lockNumPending := s.lockNumPending - 1
        lockCurrent := s.lockCurrent ++ [c]
        lockNumCurrent := s.lockNumCurrent + 1 }
  | _, _ => pure s

/-- `talloc_free` of a context: on `lock_current` its destructor takes it off
the list and schedules the next helper before it goes. -/
def tallocFreeLockContext (s : LockState) (c : Nat) (setup : LockSetup) : Option LockState := do
  let _ ← s.contexts c
  let s ←
    if c ∈ s.lockCurrent then
      ctdbLockSchedule { s with
        lockCurrent := s.lockCurrent.erase c
        lockNumCurrent := s.lockNumCurrent - 1 } setup
    else pure s
  pure (tallocFreeContext s c)

/-- `ctdb_lock_free_request_context`: the request, then its context. -/
def ctdbLockFreeRequestContext (s : LockState) (r : Nat) (setup : LockSetup) : Option LockState := do
  let req ← s.requests r
  let s ← tallocFreeRequest s r
  tallocFreeLockContext s req.lctx setup

/-! ## Requests -/

/-- `ctdb_lock_internal`: the new request and the state after the schedule. Only
the pending contexts are searched, as the current ones may be running their
callbacks. -/
def ctdbLockInternal (s : LockState) (ctdbDb : Option Nat) (key : TdbData) (priority : UInt32)
    (callback : Bool → LockCallback) (type : LockType) (autoMark : Bool) (setup : LockSetup) :
    Option (Nat × LockState) := do
  let found ← findLockContext s ctdbDb key priority type s.lockPending
  let (c, s) := match found with
    | some c => (c, s)
    | none => (s.next, { s with
        contexts := Function.update s.contexts s.next (some ⟨type, ctdbDb, key, priority, autoMark, []⟩)
        lockPending := s.lockPending ++ [s.next]
        lockNumPending := s.lockNumPending + 1
        next := s.next + 1 })
  let lockCtx ← s.contexts c
  let r := s.next
  let s := { s with
    contexts := Function.update s.contexts c (some { lockCtx with reqQueue := lockCtx.reqQueue ++ [r] })
    requests := Function.update s.requests r (some ⟨c, callback, true⟩)
    next := r + 1 }
  let s ← ctdbLockSchedule s setup
  pure (r, s)

/-- `ctdb_lock_record`. -/
def ctdbLockRecord (s : LockState) (ctdbDb : Nat) (key : TdbData) (autoMark : Bool)
    (callback : Bool → LockCallback) (setup : LockSetup) : Option (Nat × LockState) :=
  ctdbLockInternal s (some ctdbDb) key 0 callback .lockRecord autoMark setup

/-- `ctdb_lock_db`. -/
def ctdbLockDb (s : LockState) (ctdbDb : Nat) (autoMark : Bool) (callback : Bool → LockCallback)
    (setup : LockSetup) : Option (Nat × LockState) :=
  ctdbLockInternal s (some ctdbDb) [] 0 callback .lockDb autoMark setup

/-- `ctdb_lock_alldb_prio`: no request (`NULL`) for a priority out of range. -/
def ctdbLockAlldbPrio (s : LockState) (priority : UInt32) (autoMark : Bool)
    (callback : Bool → LockCallback) (setup : LockSetup) : Option (Option Nat × LockState) :=
  if priority.toNat > NUM_DB_PRIORITIES then some (none, s)
  else (ctdbLockInternal s none [] priority callback .lockAlldbPrio autoMark setup).map
    fun (r, s) => (some r, s)

/-- `ctdb_lock_alldb`. -/
def ctdbLockAlldb (s : LockState) (autoMark : Bool) (callback : Bool → LockCallback)
    (setup : LockSetup) : Option (Nat × LockState) :=
  ctdbLockInternal s none [] 0 callback .lockAlldb autoMark setup

/-! ## The helper's answer -/

/-- One round of the loop of `process_callbacks`, for request `r` of context `c`:
with `auto_mark` the request's destructor is reset first, then its callback
runs. -/
def runCallback (s : LockState) (c r : Nat) (locked : Bool) (setup : LockSetup) : Option LockState := do
  let lockCtx ← s.contexts c
  let req ← s.requests r
  let s := if lockCtx.autoMark then
      { s with requests := Function.update s.requests r (some { req with destructor := false }) }
    else s
  match req.callback locked with
  | .keep => pure s
  | .freeRequest => tallocFreeRequest s r
  | .freeRequestContext => ctdbLockFreeRequestContext s r setup

/-- The loop of `process_callbacks`, over the queue as it was when the loop
began: a callback frees at most its own request or the whole context, so the
`next` read before each callback is the next request of that list. -/
def processCallbacksLoop (s : LockState) (c : Nat) (locked : Bool) (setup : LockSetup) :
    List Nat → Option LockState
  | [] => pure s
  | r :: rs => do
      let s ← runCallback s c r locked setup
      processCallbacksLoop s c locked setup rs

/-- `process_callbacks`: after the loop it reads `lock_ctx->auto_mark` again. -/
def processCallbacks (s : LockState) (c : Nat) (locked : Bool) (setup : LockSetup) : Option LockState := do
  let lockCtx ← s.contexts c
  let s ← processCallbacksLoop s c locked setup lockCtx.reqQueue
  let _ ← s.contexts c
  pure s

/-- `ctdb_lock_handler`: the callbacks, then, with `auto_mark`, the free of the
temporary context that holds the lock context. -/
def ctdbLockHandler (s : LockState) (c : Nat) (locked : Bool) (setup : LockSetup) : Option LockState := do
  let _ ← s.contexts c
  let s ← processCallbacks s c locked setup
  let lockCtx ← s.contexts c
  if lockCtx.autoMark then tallocFreeLockContext s c setup else pure s

/-! ## Runs -/

/-- What can happen to the scheduler: a request for a lock, the free of a
request or of a request and its context, and the answer or the death of the
helper of a context on `lock_current` (the fd event of a context exists only
while it is there). -/
inductive LockEvent
  | lockRecord (ctdbDb : Nat) (key : TdbData) (autoMark : Bool) (callback : Bool → LockCallback)
      (setup : LockSetup)
  | lockDb (ctdbDb : Nat) (autoMark : Bool) (callback : Bool → LockCallback) (setup : LockSetup)
  | lockAlldbPrio (priority : UInt32) (autoMark : Bool) (callback : Bool → LockCallback)
      (setup : LockSetup)
  | lockAlldb (autoMark : Bool) (callback : Bool → LockCallback) (setup : LockSetup)
  | freeRequest (r : Nat)
  | freeRequestContext (r : Nat) (setup : LockSetup)
  | helper (c : Nat) (locked : Bool) (setup : LockSetup)

/-- One event; `none` is a fault. -/
def lockStep (s : LockState) : LockEvent → Option LockState
  | .lockRecord ctdbDb key autoMark callback setup =>
      (ctdbLockRecord s ctdbDb key autoMark callback setup).map (·.2)
  | .lockDb ctdbDb autoMark callback setup => (ctdbLockDb s ctdbDb autoMark callback setup).map (·.2)
  | .lockAlldbPrio priority autoMark callback setup =>
      (ctdbLockAlldbPrio s priority autoMark callback setup).map (·.2)
  | .lockAlldb autoMark callback setup => (ctdbLockAlldb s autoMark callback setup).map (·.2)
  | .freeRequest r => tallocFreeRequest s r
  | .freeRequestContext r setup => ctdbLockFreeRequestContext s r setup
  | .helper c locked setup => if c ∈ s.lockCurrent then ctdbLockHandler s c locked setup else pure s

/-- The state a run of events leaves, or `none` if one of them faults. -/
def lockRun : LockState → List LockEvent → Option LockState
  | s, [] => some s
  | s, e :: es => (lockStep s e).bind fun s => lockRun s es

end Ctdb.Lock

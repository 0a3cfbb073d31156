import Mathlib.Logic.Function.Basic

/-!
# Freezing the databases (`server/ctdb_freeze.c`, `server/ctdb_lock.c`,
`server/ctdb_lock_helper.c`)

A node freezes the databases of one priority before recovery. The first
freeze request starts a lock helper process (`ctdb_start_freeze`), which
takes `tdb_lockall` on each database of the priority and writes one byte to
a pipe: 0 when it holds them all, 1 when a lock failed, after which it
exits. It may also exit without writing, when `execv` or its argument
checks fail, and it may die at any later time. The priority is *pending*
until the daemon's `ctdb_lock_handler` reads the byte; on a 0 it becomes
*frozen* and the queued freeze requests are answered with status 0.

The pipe stays watched after that. When the helper dies its end of the pipe
closes, the handler runs again and, the priority being frozen, destroys the
freeze handle: the priority is thawed, and the helper, if alive, is killed.
A thaw control destroys the handle too. Freeing the handle frees the
waiters still queued on it, and each is answered then, with -1.

`ctdb_lock_handler` declares `char c` without a value and sets it with
`read(fd, &c, 1)`. At end of file `read` returns 0 and leaves `c` as it was,
so whether the handler reports the locks as taken depends on a byte nobody
wrote; `ctdbLockHandler` takes that byte as its argument `garbage`.

The state is one freeze mode and at most one handle per priority, and the
replies sent so far. The helper's lock holding, the pipe contents and its
exit are the environment's moves. What the freeze does to transactions and
vacuuming is not modelled.
-/

namespace Ctdb

def NUM_DB_PRIORITIES : Nat := 3

/-- `enum ctdb_freeze_mode`. -/
inductive FreezeMode
  | none
  | pending
  | frozen
  deriving DecidableEq, Repr

/-- The lock helper of a freeze handle, as its parent sees it. -/
structure LockHelper where
  /-- Bytes the helper wrote that the daemon has not read. -/
  pipe : List UInt8
  /-- The helper has exited, and its end of the pipe is closed. -/
  exited : Bool
  /-- The helper holds the lock on every database it was given. -/
  holdsLocks : Bool
  deriving DecidableEq, Repr

/-- `struct ctdb_freeze_waiter`: a queued freeze control and the status its
reply will carry. -/
structure FreezeWaiter where
  reqid : Nat
  status : Int
  deriving DecidableEq, Repr

/-- `struct ctdb_freeze_handle`: its lock request's helper and its waiters. -/
structure FreezeHandle where
  helper : LockHelper
  waiters : List FreezeWaiter
  deriving DecidableEq, Repr

/-- `freeze_mode[]`, `freeze_handles[]`, and the control replies sent, in
order. -/
structure FreezeState where
  freezeMode : Nat → FreezeMode
  freezeHandles : Nat → Option FreezeHandle
  replies : List (Nat × Int)

/-- A daemon that has frozen nothing. -/
def FreezeState.init : FreezeState := ⟨fun _ => .none, fun _ => none, []⟩

/-- Send the reply to control `reqid`. -/
def FreezeState.reply (s : FreezeState) (reqid : Nat) (status : Int) : FreezeState :=
  { s with replies := s.replies ++ [(reqid, status)] }

/-- `ctdb_freeze_handle_destructor` on priority `p`'s handle `h`: the priority
is thawed, the lock context and its helper go, and each waiter freed with the
handle is answered with the status it holds. -/
def freezeHandleDestructor (s : FreezeState) (p : Nat) (h : FreezeHandle) : FreezeState :=
  { freezeMode := Function.update s.freezeMode p .none
    freezeHandles := Function.update s.freezeHandles p none
    replies := s.replies ++ h.waiters.map fun w => (w.reqid, w.status) }

/-- `ctdb_freeze_lock_handler`, the lock request's callback. -/
def ctdbFreezeLockHandler (s : FreezeState) (p : Nat) (h : FreezeHandle) (locked : Bool) :
    FreezeState :=
  -- "freeze child died - unfreezing"
  if s.freezeMode p = .frozen then freezeHandleDestructor s p h
  -- "we didn't get the locks - destroy the handle"
  else if !locked then freezeHandleDestructor s p h
  else
    { freezeMode := Function.update s.freezeMode p .frozen
      freezeHandles := Function.update s.freezeHandles p (some { h with waiters := [] })
      replies := s.replies ++ h.waiters.map fun w => (w.reqid, 0) }

/-- `ctdb_lock_handler` on priority `p`'s lock context, when its pipe is
readable: a byte is there, or the helper's end is closed. At end of file `c`
keeps its indeterminate value, `garbage`. -/
def ctdbLockHandler (s : FreezeState) (p : Nat) (garbage : UInt8) : Option FreezeState :=
  match s.freezeHandles p with
  | none => none
  | some h =>
      match h.helper.pipe with
      | c :: rest =>
          some (ctdbFreezeLockHandler s p { h with helper := { h.helper with pipe := rest } } (c == 0))
      | [] => if h.helper.exited then some (ctdbFreezeLockHandler s p h (garbage == 0)) else none

/-- `ctdb_start_freeze`: `none` for an invalid priority, where the daemon
aborts. -/
def ctdbStartFreeze (s : FreezeState) (p : Nat) : Option FreezeState :=
  if p < 1 ∨ p > NUM_DB_PRIORITIES then none
  -- "we're already frozen"
  else if s.freezeMode p = .frozen then some s
  else
    match s.freezeHandles p with
    -- "if there isn't a freeze lock child then create one"
    | none =>
        some { s with
          freezeHandles := Function.update s.freezeHandles p (some ⟨⟨[], false, false⟩, []⟩)
          freezeMode := Function.update s.freezeMode p .pending }
    | some _ => some s

/-- `ctdb_control_freeze` for the control `reqid`: answered at once, or queued
as a waiter on the handle. -/
def ctdbControlFreeze (s : FreezeState) (srvid : UInt64) (reqid : Nat) : Option FreezeState :=
  let priority := srvid.toUInt32.toNat
  -- "Freeze priority 0 requested, remapping to priority 1"
  let priority := if priority = 0 then 1 else priority
  if priority < 1 ∨ priority > NUM_DB_PRIORITIES then some (s.reply reqid (-1))
  else if s.freezeMode priority = .frozen then some (s.reply reqid 0)
  else do
    let s ← ctdbStartFreeze s priority
    match s.freezeHandles priority with
    -- "No freeze lock handle when adding a waiter"
    | none => some (s.reply reqid (-1))
    | some h =>
        some { s with
          freezeHandles :=
            Function.update s.freezeHandles priority (some { h with waiters := ⟨reqid, -1⟩ :: h.waiters }) }

/-- `thaw_priority`. -/
def thawPriority (s : FreezeState) (p : Nat) : FreezeState :=
  match s.freezeHandles p with
  | some h => freezeHandleDestructor s p h
  | none => s

/-- `ctdb_control_thaw` for the control `reqid`; priority 0 thaws them all. -/
def ctdbControlThaw (s : FreezeState) (priority : UInt32) (reqid : Nat) : FreezeState :=
  if priority.toNat > NUM_DB_PRIORITIES then s.reply reqid (-1)
  else if priority = 0 then ((List.range' 1 NUM_DB_PRIORITIES).foldl thawPriority s).reply reqid 0
  else (thawPriority s priority.toNat).reply reqid 0

/-! ## The lock helper -/

/-- `send_result(fd, 0)` after `tdb_lockall` succeeded on every database. -/
def lockHelperLocked (hp : LockHelper) : Option LockHelper :=
  if !hp.exited && !hp.holdsLocks && hp.pipe = [] then some { hp with pipe := [0], holdsLocks := true }
  else none

/-- `send_result(fd, 1)` after a failed lock, which exits. -/
def lockHelperFailed (hp : LockHelper) : Option LockHelper :=
  if !hp.exited && !hp.holdsLocks && hp.pipe = [] then some { hp with pipe := [1], exited := true }
  else none

/-- The helper exits or dies, releasing whatever it held. -/
def lockHelperExit (hp : LockHelper) : Option LockHelper :=
  if !hp.exited then some { hp with exited := true, holdsLocks := false } else none

/-- A move of priority `p`'s helper. -/
def helperMove (f : LockHelper → Option LockHelper) (s : FreezeState) (p : Nat) :
    Option FreezeState :=
  match s.freezeHandles p with
  | none => none
  | some h =>
      (f h.helper).map fun hp =>
        { s with freezeHandles := Function.update s.freezeHandles p (some { h with helper := hp }) }

/-! ## Runs -/

/-- What can happen next: a control, a freeze started by the daemon itself,
the lock handler running, or a move of a helper. -/
inductive FreezeEvent
  | controlFreeze (srvid : UInt64) (reqid : Nat)
  | controlThaw (priority : UInt32) (reqid : Nat)
  | startFreeze (priority : Nat)
  | lockHandler (priority : Nat) (garbage : UInt8)
  | helperLocked (priority : Nat)
  | helperFailed (priority : Nat)
  | helperExit (priority : Nat)
  deriving DecidableEq, Repr

def freezeStep (s : FreezeState) : FreezeEvent → Option FreezeState
  | .controlFreeze srvid reqid => ctdbControlFreeze s srvid reqid
  | .controlThaw priority reqid => some (ctdbControlThaw s priority reqid)
  | .startFreeze p => ctdbStartFreeze s p
  | .lockHandler p garbage => ctdbLockHandler s p garbage
  | .helperLocked p => helperMove lockHelperLocked s p
  | .helperFailed p => helperMove lockHelperFailed s p
  | .helperExit p => helperMove lockHelperExit s p

/-- The state after the events, or `none` if one cannot happen. -/
def freezeRun (s : FreezeState) (events : List FreezeEvent) : Option FreezeState :=
  events.foldlM freezeStep s

end Ctdb

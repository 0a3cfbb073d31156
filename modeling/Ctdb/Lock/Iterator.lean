import Mathlib.Data.List.Infix
import Mathlib.Data.List.Perm.Basic

/-!
# Acting on every database of a priority (`server/ctdb_lock.c`)

Freezing locks the databases one priority at a time, and everything that
acts on "all databases of priority `p`" goes through `ctdb_db_iterator`:
counting and naming the databases for the lock helper's command line, and
marking and unmarking their locks in the main daemon.

The iterator walks the database list twice. The first pass hands the
handler each database of priority `p` whose name `later_db` does not single
out. Only for priority 1 is there a second pass, which hands the handler
every database `later_db` does single out, whatever its priority. `later_db`
is the `Samba3AvoidDeadlocks` tunable's workaround for Samba versions that
leave all their databases at priority 1: with the tunable set, a name
containing one of five fixed strings puts the database after the others.

A handler that fails stops the walk; handlers are modelled as steps
`σ → DbContext → Option σ` over whatever they accumulate.
-/

namespace Ctdb

/-- What the iterator and its handlers read of `struct ctdb_db_context`. -/
structure DbContext where
  name : String
  path : String
  priority : UInt32
  deriving DecidableEq, Repr

/-- The names `later_db` looks for, each anywhere in a database's name. -/
def laterDbNames : List String :=
  ["brlock", "g_lock", "notify_onelevel", "serverid", "xattr_tdb"]

/-- `later_db`: `strstr(name, s)` for the five names, once the
`samba3_hack` tunable is set. -/
def laterDb (samba3Hack : UInt32) (name : String) : Bool :=
  samba3Hack != 0 && laterDbNames.any fun s => decide (s.toList <:+: name.toList)

/-- `ctdb_db_iterator`: `none` for the -1 of a failing handler. -/
def ctdbDbIterator {σ : Type} (samba3Hack : UInt32) (dbList : List DbContext)
    (priority : UInt32) (handler : σ → DbContext → Option σ) (s : σ) : Option σ := do
  let s ← (dbList.filter fun db => db.priority == priority && !laterDb samba3Hack db.name).foldlM
    handler s
  if priority != 1 then pure s
  else (dbList.filter fun db => laterDb samba3Hack db.name).foldlM handler s

/-- `db_count_handler`. -/
def dbCountHandler (count : Nat) (_ : DbContext) : Option Nat := some (count + 1)

/-- `db_name_handler`: the path goes into the next slot. -/
def dbNameHandler (names : List String) (db : DbContext) : Option (List String) :=
  some (names ++ [db.path])

/-- `lock_helper_args` for a `LOCK_ALLDB_PRIO` lock: the size of the array
it allocates (`nargs` and the terminating `NULL`), and what it writes
before that `NULL`. -/
def lockHelperArgsAlldbPrio (samba3Hack : UInt32) (dbList : List DbContext) (priority : UInt32)
    (pid fd : Int) : Option (Nat × List String) := do
  let nargs ← ctdbDbIterator samba3Hack dbList priority dbCountHandler 4
  let names ← ctdbDbIterator samba3Hack dbList priority dbNameHandler []
  pure (nargs + 1, ["ctdb_lock_helper", toString pid, toString fd, "DB"] ++ names)

/-- `db_lock_mark_handler`, over the databases whose locks are marked held. -/
def dbLockMarkHandler (marked : List DbContext) (db : DbContext) : Option (List DbContext) :=
  some (marked ++ [db])

/-- `db_lock_unmark_handler`. -/
def dbLockUnmarkHandler (marked : List DbContext) (db : DbContext) : Option (List DbContext) :=
  some (marked.erase db)

/-- The body `ctdb_lockall_mark_prio` and `ctdb_lockall_unmark_prio` share:
refused unless the priority is frozen, then the handler on every database
the iterator hands it. -/
def lockallPrio (handler : List DbContext → DbContext → Option (List DbContext)) (frozen : Bool)
    (samba3Hack : UInt32) (dbList : List DbContext) (priority : UInt32)
    (marked : List DbContext) : Option (List DbContext) :=
  if !frozen then none
  else ctdbDbIterator samba3Hack dbList priority handler marked

/-- `ctdb_lockall_mark_prio`. -/
def ctdbLockallMarkPrio (frozen : Bool) (samba3Hack : UInt32) (dbList : List DbContext)
    (priority : UInt32) (marked : List DbContext) : Option (List DbContext) :=
  lockallPrio dbLockMarkHandler frozen samba3Hack dbList priority marked

/-- `ctdb_lockall_unmark_prio`. -/
def ctdbLockallUnmarkPrio (frozen : Bool) (samba3Hack : UInt32) (dbList : List DbContext)
    (priority : UInt32) (marked : List DbContext) : Option (List DbContext) :=
  lockallPrio dbLockUnmarkHandler frozen samba3Hack dbList priority marked

end Ctdb

import Ctdb.Lock.Iterator

/-!
# Which databases a priority covers

`ctdb_db_iterator` hands its handler the databases of `iteratorOrder`: the
first pass's, then, for priority 1 only, every database `later_db` singles
out (`ctdbDbIterator_eq`). Counting, naming and marking are folds of their
handlers over that list, so the lock helper's command line holds one path
for each of its databases and exactly fills the array `lock_helper_args`
allocates, and marking and unmarking act on the same databases.

That list is the databases of the priority, the singled-out ones last,
exactly when no database `later_db` singles out has a priority other than
1 — always so with the tunable off. A database that is singled out and has
priority 2 is on the list for priority 1 and on no other: the freeze of
priority 2 leaves it out of its lock helper's command line.
-/

namespace Ctdb

/-- The databases `ctdb_db_iterator` hands its handler, in order. -/
def iteratorOrder (samba3Hack : UInt32) (dbList : List DbContext) (priority : UInt32) :
    List DbContext :=
  dbList.filter (fun db => db.priority == priority && !laterDb samba3Hack db.name) ++
    if priority != 1 then [] else dbList.filter fun db => laterDb samba3Hack db.name

/-- The databases of `priority`, those `later_db` singles out after the
others. -/
def priorityOrder (samba3Hack : UInt32) (dbList : List DbContext) (priority : UInt32) :
    List DbContext :=
  dbList.filter (fun db => db.priority == priority && !laterDb samba3Hack db.name) ++
    dbList.filter fun db => db.priority == priority && laterDb samba3Hack db.name

section Iterator

variable (samba3Hack : UInt32) (dbList : List DbContext) (priority : UInt32)

theorem ctdbDbIterator_eq {σ : Type} (handler : σ → DbContext → Option σ) (s : σ) :
    ctdbDbIterator samba3Hack dbList priority handler s =
      (iteratorOrder samba3Hack dbList priority).foldlM handler s := by
  rw [ctdbDbIterator, iteratorOrder, List.foldlM_append]
  by_cases hp : priority = 1
  · simp [hp]
  · simp only [bne_iff_ne, ne_eq, hp, not_false_eq_true, if_true, List.foldlM_nil]

theorem priorityOrder_perm :
    (priorityOrder samba3Hack dbList priority).Perm
      (dbList.filter fun db => db.priority == priority) := by
  have h := List.filter_append_perm (fun db => !laterDb samba3Hack db.name)
    (dbList.filter fun db => db.priority == priority)
  simp only [List.filter_filter, Bool.not_not] at h
  rw [priorityOrder]
  refine List.Perm.trans ?_ h
  simp only [Bool.and_comm]
  exact List.Perm.refl _

/-- With every singled-out database at priority 1, the iterator's list is
the databases of the priority. -/
theorem iteratorOrder_eq_priorityOrder
    (hlater : ∀ db ∈ dbList, laterDb samba3Hack db.name = true → db.priority = 1) :
    iteratorOrder samba3Hack dbList priority = priorityOrder samba3Hack dbList priority := by
  rw [iteratorOrder, priorityOrder]
  congr 1
  by_cases hp : priority = 1
  · -- the second pass's databases all have priority 1
    subst hp
    simp only [bne_self_eq_false, Bool.false_eq_true, if_false]
    refine List.filter_congr fun db hdb => ?_
    cases hl : laterDb samba3Hack db.name with
    | false => simp
    | true => simp [hlater db hdb hl]
  · -- and none of them has the priority asked for
    simp only [bne_iff_ne, ne_eq, hp, not_false_eq_true, if_true]
    refine (List.filter_eq_nil_iff.mpr fun db hdb => ?_).symm
    cases hl : laterDb samba3Hack db.name with
    | false => simp
    | true =>
        have h1 := hlater db hdb hl
        simp only [h1, Bool.and_true, beq_iff_eq]
        exact fun h => hp h.symm

end Iterator

/-! ## The handlers -/

theorem foldlM_dbCountHandler : ∀ (l : List DbContext) (count : Nat),
    l.foldlM dbCountHandler count = some (count + l.length)
  | [], _ => rfl
  | db :: l, count => by
      rw [List.foldlM_cons, dbCountHandler, Option.bind_eq_bind, Option.bind_some,
        foldlM_dbCountHandler l, List.length_cons, Nat.add_assoc, Nat.add_comm 1]

theorem foldlM_dbNameHandler : ∀ (l : List DbContext) (names : List String),
    l.foldlM dbNameHandler names = some (names ++ l.map DbContext.path)
  | [], _ => by simp
  | db :: l, names => by
      rw [List.foldlM_cons, dbNameHandler, Option.bind_eq_bind, Option.bind_some,
        foldlM_dbNameHandler l, List.map_cons, List.append_assoc, List.singleton_append]

theorem foldlM_dbLockMarkHandler : ∀ (l marked : List DbContext),
    l.foldlM dbLockMarkHandler marked = some (marked ++ l)
  | [], _ => by simp
  | db :: l, marked => by
      rw [List.foldlM_cons, dbLockMarkHandler, Option.bind_eq_bind, Option.bind_some,
        foldlM_dbLockMarkHandler l, List.append_assoc, List.singleton_append]

theorem foldlM_dbLockUnmarkHandler : ∀ (l marked : List DbContext),
    l.foldlM dbLockUnmarkHandler marked = some (l.foldl List.erase marked)
  | [], _ => rfl
  | db :: l, marked => by
      rw [List.foldlM_cons, dbLockUnmarkHandler, Option.bind_eq_bind, Option.bind_some,
        foldlM_dbLockUnmarkHandler l, List.foldl_cons]

section Consequences

variable (samba3Hack : UInt32) (dbList : List DbContext) (priority : UInt32)

/-- The helper's command line: one path for each database of the
iterator's list, filling the array up to its terminating `NULL`. -/
theorem lockHelperArgsAlldbPrio_eq (pid fd : Int) :
    lockHelperArgsAlldbPrio samba3Hack dbList priority pid fd =
      some ((iteratorOrder samba3Hack dbList priority).length + 5,
        ["ctdb_lock_helper", toString pid, toString fd, "DB"] ++
          (iteratorOrder samba3Hack dbList priority).map DbContext.path) := by
  simp only [lockHelperArgsAlldbPrio, ctdbDbIterator_eq, foldlM_dbCountHandler,
    foldlM_dbNameHandler, List.nil_append, Option.bind_eq_bind, Option.bind_some, Option.pure_def]
  congr 2
  omega

theorem ctdbLockallMarkPrio_eq (frozen : Bool) (marked : List DbContext) :
    ctdbLockallMarkPrio frozen samba3Hack dbList priority marked =
      if frozen then some (marked ++ iteratorOrder samba3Hack dbList priority) else none := by
  cases frozen <;>
    simp [ctdbLockallMarkPrio, lockallPrio, ctdbDbIterator_eq, foldlM_dbLockMarkHandler]

theorem ctdbLockallUnmarkPrio_eq (frozen : Bool) (marked : List DbContext) :
    ctdbLockallUnmarkPrio frozen samba3Hack dbList priority marked =
      if frozen then some ((iteratorOrder samba3Hack dbList priority).foldl List.erase marked)
      else none := by
  cases frozen <;>
    simp [ctdbLockallUnmarkPrio, lockallPrio, ctdbDbIterator_eq, foldlM_dbLockUnmarkHandler]

end Consequences

/-- With every database `later_db` singles out at priority 1, every handler
is handed each database of `priority`, and no other, exactly once, the
singled-out ones last; the lock helper's command line and the marks are of
exactly those databases. -/
theorem ctdbDbIterator_covers_priority (samba3Hack : UInt32) (dbList : List DbContext)
    (priority : UInt32)
    (hlater : ∀ db ∈ dbList, laterDb samba3Hack db.name = true → db.priority = 1) :
    (priorityOrder samba3Hack dbList priority).Perm
        (dbList.filter fun db => db.priority == priority) ∧
      (∀ {σ : Type} (handler : σ → DbContext → Option σ) (s : σ),
        ctdbDbIterator samba3Hack dbList priority handler s =
          (priorityOrder samba3Hack dbList priority).foldlM handler s) ∧
      (∀ pid fd : Int, lockHelperArgsAlldbPrio samba3Hack dbList priority pid fd =
        some ((priorityOrder samba3Hack dbList priority).length + 5,
          ["ctdb_lock_helper", toString pid, toString fd, "DB"] ++
            (priorityOrder samba3Hack dbList priority).map DbContext.path)) ∧
      (∀ (frozen : Bool) (marked : List DbContext),
        ctdbLockallMarkPrio frozen samba3Hack dbList priority marked =
          if frozen then some (marked ++ priorityOrder samba3Hack dbList priority) else none) ∧
      (∀ (frozen : Bool) (marked : List DbContext),
        ctdbLockallUnmarkPrio frozen samba3Hack dbList priority marked =
          if frozen then some ((priorityOrder samba3Hack dbList priority).foldl List.erase marked)
          else none) := by
  have horder := iteratorOrder_eq_priorityOrder samba3Hack dbList priority hlater
  refine ⟨priorityOrder_perm samba3Hack dbList priority, ?_, ?_, ?_, ?_⟩
  · intro σ handler s
    rw [ctdbDbIterator_eq, horder]
  · intro pid fd
    rw [lockHelperArgsAlldbPrio_eq, horder]
  · intro frozen marked
    rw [ctdbLockallMarkPrio_eq, horder]
  · intro frozen marked
    rw [ctdbLockallUnmarkPrio_eq, horder]

/-- Samba 3 databases, all at priority 1, one of them singled out. -/
def samba3Dbs : List DbContext :=
  [⟨"locking.tdb", "locking.tdb.0", 1⟩, ⟨"brlock.tdb", "brlock.tdb.0", 1⟩,
    ⟨"secrets.tdb", "secrets.tdb.0", 2⟩]

theorem ctdbDbIterator_covers_priority_samba3 :
    (∀ db ∈ samba3Dbs, laterDb 1 db.name = true → db.priority = 1) ∧
      (priorityOrder 1 samba3Dbs 1).Perm (samba3Dbs.filter fun db => db.priority == 1) ∧
      (∀ {σ : Type} (handler : σ → DbContext → Option σ) (s : σ),
        ctdbDbIterator 1 samba3Dbs 1 handler s = (priorityOrder 1 samba3Dbs 1).foldlM handler s) ∧
      (∀ pid fd : Int, lockHelperArgsAlldbPrio 1 samba3Dbs 1 pid fd =
        some ((priorityOrder 1 samba3Dbs 1).length + 5,
          ["ctdb_lock_helper", toString pid, toString fd, "DB"] ++
            (priorityOrder 1 samba3Dbs 1).map DbContext.path)) ∧
      (∀ (frozen : Bool) (marked : List DbContext),
        ctdbLockallMarkPrio frozen 1 samba3Dbs 1 marked =
          if frozen then some (marked ++ priorityOrder 1 samba3Dbs 1) else none) ∧
      (∀ (frozen : Bool) (marked : List DbContext),
        ctdbLockallUnmarkPrio frozen 1 samba3Dbs 1 marked =
          if frozen then some ((priorityOrder 1 samba3Dbs 1).foldl List.erase marked)
          else none) :=
  ⟨by decide, ctdbDbIterator_covers_priority 1 samba3Dbs 1 (by decide)⟩

/-- A database `later_db` singles out, at priority 2. -/
def brlockDb : DbContext := ⟨"brlock.tdb", "brlock.tdb.0", 2⟩

/-- With the tunable set, the freeze of priority 2 leaves the priority 2
database `brlock.tdb` off its lock helper's command line, and the freeze of
priority 1 puts it on. -/
theorem lockHelperArgsAlldbPrio_misses_later_db :
    laterDb 1 brlockDb.name = true ∧ brlockDb.priority = 2 ∧
      lockHelperArgsAlldbPrio 1 [brlockDb] 2 0 0 = some (5, ["ctdb_lock_helper", "0", "0", "DB"]) ∧
      lockHelperArgsAlldbPrio 1 [brlockDb] 1 0 0 =
        some (6, ["ctdb_lock_helper", "0", "0", "DB", "brlock.tdb.0"]) := by
  decide

end Ctdb

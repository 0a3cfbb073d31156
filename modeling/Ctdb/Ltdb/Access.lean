import Ctdb.Ltdb.StoreServer

/-!
# Reading and writing a local record (`common/ctdb_ltdb.c`)

`ctdb_ltdb_store` writes through the database's store function, which is
`ctdb_ltdb_store_server` for a volatile database and nothing for a
persistent one, whose records go into the tdb as given.

`ctdb_ltdb_fetch` reads a record and splits off its header. What it does
when the record is missing depends on who calls it. A client, which has no
vnn map, gets -1 and a header whose dmaster is `(uint32_t)-1`. The daemon
gets the initial header, naming the key's lmaster as dmaster, and in a
persistent database, or on the lmaster itself, that header is also stored,
with empty data, so that the record exists from then on. The store goes
through the caller's header, which therefore comes back as the store left
it.
-/

namespace Ctdb

/-- `ctdb_ltdb_store`. -/
def ctdbLtdbStore (hash : TdbData → UInt32) (ctx : StoreCtx) (ltdb : Ltdb) (key : TdbData)
    (header : LtdbHeader) (data : TdbData) : StoreResult :=
  if ctx.persistent then ⟨tdbStore ltdb key (header, data), true, header, false, false⟩
  else ctdbLtdbStoreServer hash ctx ltdb key header data

/-- `ctdb_ltdb_fetch`: the database afterwards, and the header and data, or
`none` for the client's -1 on a missing record. -/
def ctdbLtdbFetch (hash : TdbData → UInt32) (ctx : StoreCtx) (ltdb : Ltdb) (key : TdbData) :
    Ltdb × Option (LtdbHeader × TdbData) :=
  match tdbFetch ltdb key with
  | some r => (ltdb, some r)
  | none =>
      match ctx.vnnMap with
      -- called from a client
      | none => (ltdb, none)
      | some vnnMap =>
          let header := ltdbInitialHeader (ctdbLmaster hash vnnMap key)
          if ctx.persistent || header.dmaster == ctx.pnn then
            let r := ctdbLtdbStore hash ctx ltdb key header []
            (r.ltdb, some (r.header, []))
          else (ltdb, some (header, []))

theorem ctdbLtdbFetch_of_found (hash : TdbData → UInt32) (ctx : StoreCtx) {ltdb : Ltdb}
    {key : TdbData} {r : LtdbHeader × TdbData} (h : tdbFetch ltdb key = some r) :
    ctdbLtdbFetch hash ctx ltdb key = (ltdb, some r) := by
  rw [ctdbLtdbFetch, h]

end Ctdb

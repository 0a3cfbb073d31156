import Ctdb.Ltdb.Header
import Ctdb.RbTree.Array

/-!
# Deferred fetches and sticky records (`server/ctdb_daemon.c`, `server/ctdb_call.c`)

With fetch collapsing on, a fetch-lock for a record that is already being
fetched from another node is not sent again: `setup_deferred_fetch_locks`
files a queue for the fetch in flight in the tree `ctdb_db->deferred_fetch`,
and `requeue_duplicate_fetch` puts a later call for the record on that queue
until the queue is freed, when the fetch ends or after 30 seconds. A record
that keeps migrating is made sticky (`ctdb_make_record_sticky`): it is filed
in `ctdb_db->sticky_records`, `ctdb_set_sticky_pindown` pins it down for a
while, and while it is pinned down `ctdb_defer_pinned_down_request` holds back
the requests that would take it away.

All five functions file the record key the same way: an array `k` whose first
word `k[0] = (dsize + 3) / 4 + 1` is the number of its words, followed by the
key copied into zeroed memory, passed to the tree as `k[0], &k[0]`. The words
are read on a little-endian host. `recordKeyArray` is that array; `KeyStore`
is what the functions do with it, so that they are written once over the
trees (`trbtStore`) and can be read over any other store.

Both insert callbacks free an entry that is already filed under the key. The
entry owns the tree node that holds it, so the node goes with it, and the
insert then stores the new entry through the freed node: such an insert fails
here, as a use after free.

A record key fits the 32-bit offsets of a tdb file (`RecordKey`). The trees
hold pointers: a queue, a sticky record and its pin-down context are addresses
into `DeferralHeap`, which holds what the functions read and write behind
them. Logging, the timers themselves and allocation failures are not
modelled; the end of a queue, of a sticky record and of a pin-down are events.
-/

namespace Ctdb

open Lib

/-- Word `i` of the key in the buffer `&k[1]`: four of its bytes, the first
the least significant, past the key the zeros of `talloc_zero_size`. -/
def keyWord (key : TdbData) (i : Nat) : UInt32 :=
  UInt32.ofNat (leNat ((List.range 4).map fun j => key.getD (4 * i + j) 0))

/-- The array `k` the five functions build for a record key: the number of
its words, then the key. -/
def recordKeyArray (key : TdbData) : List UInt32 :=
  UInt32.ofNat ((key.length + 3) / 4 + 1) :: (List.range ((key.length + 3) / 4)).map (keyWord key)

/-- The key of a record of a tdb file. -/
abbrev RecordKey := { key : TdbData // key.length < 2 ^ 32 }

/-- Pointers filed by record key. `lookup` answers `none` when it fails and
`some none` when nothing is filed; `insert` hands its callback what was filed
and files what it returns, the callback also saying whether it freed what it
was handed; `free` is `talloc_free` of what is filed. -/
structure KeyStore (τ : Type) where
  lookup : τ → RecordKey → Option (Option Nat)
  insert : (Option Nat → Nat × Bool) → τ → RecordKey → Option τ
  free : τ → RecordKey → Option τ

/-- `trbt_lookuparray32`, `trbt_insertarray32_callback` and the free of the
data, each called with `k[0], &k[0]`. -/
def trbtStore : KeyStore (KeyTree Nat) where
  lookup t key := KeyTree.trbtLookuparray32 t (recordKeyArray key.1)
  insert cb t key := KeyTree.trbtInsertarray32CallbackFreeing cb t (recordKeyArray key.1)
  free t key := KeyTree.trbtFreearray32 t (recordKeyArray key.1)

/-- What the trees' pointers lead to: the calls deferred on each queue
(`dfq->deferred_calls`, by request id), the pin-down context of each sticky
record (`sr->pindown`, holding the deferred requests; `NULL` is `none`), and the
next address `talloc` hands out. -/
structure DeferralHeap where
  deferredCalls : Nat → List Nat
  pindown : Nat → Option (List Nat)
  next : Nat

/-- The part of `struct ctdb_db_context` these functions use. -/
structure Deferrals (τ : Type) where
  deferredFetch : τ
  stickyRecords : τ
  heap : DeferralHeap

variable {τ : Type}

/-- Both trees as `trbt_create` makes them, and nothing allocated. -/
def Deferrals.init (t : τ) : Deferrals τ := ⟨t, t, ⟨fun _ => [], fun _ => none, 0⟩⟩

variable (S : KeyStore τ)

/-- `insert_dfq_callback`: the new queue takes the place of any old one, which
is freed. -/
def insertDfqCallback (parm : Nat) (data : Option Nat) : Nat × Bool := (parm, data.isSome)

/-- `ctdb_make_sticky_record_callback`: the same for a sticky record. -/
def ctdbMakeStickyRecordCallback (parm : Nat) (data : Option Nat) : Nat × Bool := (parm, data.isSome)

/-- `setup_deferred_fetch_locks`: a new empty queue under the key of the call
that went out. -/
def setupDeferredFetchLocks (s : Deferrals τ) (key : RecordKey) : Option (Int × Deferrals τ) := do
  let dfq := s.heap.next
  let t ← S.insert (insertDfqCallback dfq) s.deferredFetch key
  pure (0, { s with
    deferredFetch := t
    heap := { s.heap with deferredCalls := Function.update s.heap.deferredCalls dfq [], next := dfq + 1 } })

/-- `requeue_duplicate_fetch`: 0 with the call on the queue of the fetch in
flight for the key, or -1 when there is none. -/
def requeueDuplicateFetch (s : Deferrals τ) (key : RecordKey) (reqid : Nat) : Option (Int × Deferrals τ) := do
  match ← S.lookup s.deferredFetch key with
  | none => pure (-1, s)
  | some dfq =>
      pure (0, { s with heap := { s.heap with
        deferredCalls := Function.update s.heap.deferredCalls dfq (s.heap.deferredCalls dfq ++ [reqid]) } })

/-- `talloc_free` of the queue under the key, when its fetch ends or by
`dfq_timeout`: `deferred_fetch_queue_destructor` sends its calls back to the
event loop, and its node leaves the tree. -/
def deferredFetchQueueFree (s : Deferrals τ) (key : RecordKey) : Option (Int × Deferrals τ) := do
  match ← S.lookup s.deferredFetch key with
  | none => pure (0, s)
  | some dfq =>
      let t ← S.free s.deferredFetch key
      pure (0, { s with
        deferredFetch := t
        heap := { s.heap with deferredCalls := Function.update s.heap.deferredCalls dfq [] } })

/-- `ctdb_make_record_sticky`: a sticky record, not pinned down, under the key
unless there is one. -/
def ctdbMakeRecordSticky (s : Deferrals τ) (key : RecordKey) : Option (Int × Deferrals τ) := do
  match ← S.lookup s.stickyRecords key with
  | some _ => pure (0, s)
  | none =>
      let sr := s.heap.next
      let t ← S.insert (ctdbMakeStickyRecordCallback sr) s.stickyRecords key
      pure (0, { s with
        stickyRecords := t
        heap := { s.heap with pindown := Function.update s.heap.pindown sr none, next := sr + 1 } })

/-- `ctdb_set_sticky_pindown`: the sticky record of the key, if there is one,
is pinned down unless it already is. -/
def ctdbSetStickyPindown (s : Deferrals τ) (key : RecordKey) : Option (Int × Deferrals τ) := do
  match ← S.lookup s.stickyRecords key with
  | none => pure (0, s)
  | some sr =>
      match s.heap.pindown sr with
      | none => pure (0, { s with heap := { s.heap with pindown := Function.update s.heap.pindown sr (some []) } })
      | some _ => pure (0, s)

/-- `ctdb_defer_pinned_down_request`: 0 with the request held on the pin-down
of the key's sticky record, or -1 when there is no record or it is not
pinned down. -/
def ctdbDeferPinnedDownRequest (s : Deferrals τ) (key : RecordKey) (hdr : Nat) :
    Option (Int × Deferrals τ) := do
  match ← S.lookup s.stickyRecords key with
  | none => pure (-1, s)
  | some sr =>
      match s.heap.pindown sr with
      | none => pure (-1, s)
      | some hdrs =>
          pure (0, { s with heap := { s.heap with
            pindown := Function.update s.heap.pindown sr (some (hdrs ++ [hdr])) } })

/-- `ctdb_sticky_record_timeout`: the sticky record under the key is freed, its
node leaves the tree, and its pin-down context goes with it, sending the
requests held there back to the event loop (`pinned_down_destructor`). -/
def ctdbStickyRecordTimeout (s : Deferrals τ) (key : RecordKey) : Option (Int × Deferrals τ) := do
  match ← S.lookup s.stickyRecords key with
  | none => pure (0, s)
  | some sr =>
      let t ← S.free s.stickyRecords key
      pure (0, { s with
        stickyRecords := t
        heap := { s.heap with pindown := Function.update s.heap.pindown sr none } })

/-- `ctdb_sticky_pindown_timeout`: the pin-down of the record at `sr` ends, and
the requests held on it go back to the event loop. -/
def ctdbStickyPindownTimeout (s : Deferrals τ) (sr : Nat) : Deferrals τ :=
  { s with heap := { s.heap with pindown := Function.update s.heap.pindown sr none } }

/-! ## Runs -/

/-- What can happen to the two trees: the five functions, and the ends of a
queue, of a sticky record and of a pin-down. -/
inductive DeferralEvent
  | setupDeferredFetchLocks (key : RecordKey)
  | requeueDuplicateFetch (key : RecordKey) (reqid : Nat)
  | deferredFetchQueueFree (key : RecordKey)
  | makeRecordSticky (key : RecordKey)
  | setStickyPindown (key : RecordKey)
  | deferPinnedDownRequest (key : RecordKey) (hdr : Nat)
  | stickyRecordTimeout (key : RecordKey)
  | stickyPindownTimeout (sr : Nat)

/-- One event, with the answer of the function it calls (0 for the ends). -/
def deferralStep (s : Deferrals τ) : DeferralEvent → Option (Int × Deferrals τ)
  | .setupDeferredFetchLocks key => setupDeferredFetchLocks S s key
  | .requeueDuplicateFetch key reqid => requeueDuplicateFetch S s key reqid
  | .deferredFetchQueueFree key => deferredFetchQueueFree S s key
  | .makeRecordSticky key => ctdbMakeRecordSticky S s key
  | .setStickyPindown key => ctdbSetStickyPindown S s key
  | .deferPinnedDownRequest key hdr => ctdbDeferPinnedDownRequest S s key hdr
  | .stickyRecordTimeout key => ctdbStickyRecordTimeout S s key
  | .stickyPindownTimeout sr => some (0, ctdbStickyPindownTimeout s sr)

/-- The answers of a run of events and the state it leaves. -/
def deferralRun : Deferrals τ → List DeferralEvent → Option (List Int × Deferrals τ)
  | s, [] => some ([], s)
  | s, e :: es => do
      let (r, s) ← deferralStep S s e
      let (rs, s) ← deferralRun s es
      pure (r :: rs, s)

end Ctdb

import Ctdb.Call.Migration
import Ctdb.Proofs.Revoke

/-!
# What a daemon's store and fetch do to one record

Every write of the call protocol goes through `ctdb_ltdb_store_server`, whose
decision to keep or delete a record and to bump its rsn is spread over a
chain of tests. `daemonKeeps` names that decision and `daemonStored` the
header a kept record is stored under, and `tdbFetch_daemonStore` says what
the record is afterwards, under its own key and every other one. A delete
fails only when there is no record, which is the state a delete leaves, so
the lemma needs no case for it; `daemonStore_ok` says when the call returns
0.

In a database without read-only copies the flag words stay *clean*: no
read-only flag, and neither of the two flags the store strips
(`CleanFlags`). For such headers the store keeps every record with data or
migrated with data, and deletes an empty one only where
`storeKeep_eq_false_iff` says. The daemon's fetch returns the copy, or on
the lmaster creates the record under sequence number 1
(`ctdbLtdbFetch_daemon`).
-/

namespace Ctdb.Migration

open Lib

/-! ## Flags -/

/-- A flag word as a daemon's store leaves it in a database without read-only
copies. -/
structure CleanFlags (f : UInt32) : Prop where
  ro : f &&& CTDB_REC_RO_FLAGS = 0
  automatic : f &&& CTDB_REC_FLAG_AUTOMATIC = 0
  vacuum : f &&& CTDB_REC_FLAG_VACUUM_MIGRATED = 0

theorem cleanFlags_zero : CleanFlags 0 := ⟨by decide, by decide, by decide⟩

theorem CleanFlags.or_migrated {f : UInt32} (h : CleanFlags f) :
    CleanFlags (f ||| CTDB_REC_FLAG_MIGRATED_WITH_DATA) where
  ro := by rw [or_and_of_disjoint _ (by decide)]; exact h.ro
  automatic := by rw [or_and_of_disjoint _ (by decide)]; exact h.automatic
  vacuum := by rw [or_and_of_disjoint _ (by decide)]; exact h.vacuum

/-- The store strips neither the migrated-with-data flag nor anything else a
clean word has. -/
theorem clearStoreFlags_of_clean {header : LtdbHeader} (h : CleanFlags header.flags) :
    clearStoreFlags header = header := by
  simp only [clearStoreFlags, and_not_of_and_eq_zero h.vacuum, and_not_of_and_eq_zero h.automatic]

theorem bumpedHeader_of_ro {pnn : UInt32} {header : LtdbHeader} (h : header.flags &&& CTDB_REC_RO_FLAGS = 0) :
    bumpedHeader pnn false header =
      if pnn = header.dmaster then { header with rsn := header.rsn + 1 } else header := by
  by_cases hp : pnn = header.dmaster <;> simp [bumpedHeader, storeBump, hp, h]

/-- The one place the `keep` chain deletes: an empty record that never left a
node with data, on a node that does not hold it, or on the lmaster holding it
after a vacuum migration. -/
theorem storeKeep_eq_false_iff {pnn lmaster : UInt32} {header : LtdbHeader} {data : TdbData} :
    (storeKeep pnn lmaster false header data).1 = false ↔
      data = [] ∧ header.flags &&& CTDB_REC_RO_FLAGS = 0 ∧ header.flags &&& CTDB_REC_FLAG_AUTOMATIC = 0 ∧
        header.flags &&& CTDB_REC_FLAG_MIGRATED_WITH_DATA = 0 ∧
        (if pnn = lmaster then header.flags &&& CTDB_REC_FLAG_VACUUM_MIGRATED ≠ 0 ∧ pnn = header.dmaster
          else pnn ≠ header.dmaster) := by
  unfold storeKeep
  split_ifs <;> simp_all

/-! ## The store -/

section Store

variable (hash : TdbData → UInt32) (vnnMap : List UInt32) (pnn : UInt32)

@[simp] theorem daemonCtx_pnn : (daemonCtx vnnMap pnn).pnn = pnn := rfl
@[simp] theorem daemonCtx_persistent : (daemonCtx vnnMap pnn).persistent = false := rfl
@[simp] theorem daemonCtx_vnnMap : (daemonCtx vnnMap pnn).vnnMap = some vnnMap := rfl

/-- Whether the daemon of `pnn` keeps a record it stores. -/
def daemonKeeps (key : TdbData) (header : LtdbHeader) (data : TdbData) : Bool :=
  (storeKeep pnn (ctdbLmaster hash vnnMap key) false header data).1

/-- The header a kept record is stored under. -/
def daemonStored (header : LtdbHeader) : LtdbHeader := clearStoreFlags (bumpedHeader pnn false header)

variable {hash vnnMap pnn} (ltdb : Ltdb) (key : TdbData) (header : LtdbHeader) (data : TdbData)

theorem daemonStore_of_keeps (hk : daemonKeeps hash vnnMap pnn key header data = true) :
    (ctdbLtdbStore hash (daemonCtx vnnMap pnn) ltdb key header data).ltdb =
        tdbStore ltdb key (daemonStored pnn header, data) ∧
      (ctdbLtdbStore hash (daemonCtx vnnMap pnn) ltdb key header data).ok = true ∧
      (ctdbLtdbStore hash (daemonCtx vnnMap pnn) ltdb key header data).header = daemonStored pnn header := by
  unfold daemonKeeps at hk
  simp only [ctdbLtdbStore, ctdbLtdbStoreServer, daemonCtx, daemonStored, Bool.false_eq_true, if_false, hk,
    if_true, and_self]

theorem daemonStore_of_not_keeps (hk : daemonKeeps hash vnnMap pnn key header data = false) :
    (ctdbLtdbStore hash (daemonCtx vnnMap pnn) ltdb key header data).ltdb = (tdbDelete ltdb key).getD ltdb ∧
      (ctdbLtdbStore hash (daemonCtx vnnMap pnn) ltdb key header data).ok = (tdbFetch ltdb key).isSome ∧
      (ctdbLtdbStore hash (daemonCtx vnnMap pnn) ltdb key header data).header = clearStoreFlags header := by
  unfold daemonKeeps at hk
  simp only [ctdbLtdbStore, ctdbLtdbStoreServer, daemonCtx, Bool.false_eq_true, if_false, hk]
  cases hdel : tdbDelete ltdb key with
  | none => simp [tdbDelete_eq_none.mp hdel]
  | some l =>
      have hfound : (tdbFetch ltdb key).isSome = true := by
        rw [Option.isSome_iff_ne_none, ne_eq, ← tdbDelete_eq_none, hdel]
        exact Option.some_ne_none l
      simp [hfound]

/-- The record after a store of the daemon, under any key. -/
theorem tdbFetch_daemonStore (k : TdbData) :
    tdbFetch (ctdbLtdbStore hash (daemonCtx vnnMap pnn) ltdb key header data).ltdb k =
      if k = key then
        (if daemonKeeps hash vnnMap pnn key header data then some (daemonStored pnn header, data) else none)
      else tdbFetch ltdb k := by
  cases hk : daemonKeeps hash vnnMap pnn key header data
  · rw [(daemonStore_of_not_keeps ltdb key header data hk).1]
    cases hdel : tdbDelete ltdb key with
    | none =>
        have hnone := tdbDelete_eq_none.mp hdel
        by_cases hkey : k = key
        · subst hkey
          simpa using hnone
        · simp [hkey]
    | some l => simpa using tdbDelete_eq_some hdel k
  · rw [(daemonStore_of_keeps ltdb key header data hk).1]
    by_cases hkey : k = key
    · subst hkey
      simp
    · rw [if_neg hkey, tdbFetch_tdbStore_ne _ _ (Ne.symm hkey)]

theorem daemonStore_ok :
    (ctdbLtdbStore hash (daemonCtx vnnMap pnn) ltdb key header data).ok =
      (daemonKeeps hash vnnMap pnn key header data || (tdbFetch ltdb key).isSome) := by
  cases hk : daemonKeeps hash vnnMap pnn key header data
  · rw [(daemonStore_of_not_keeps ltdb key header data hk).2.1, Bool.false_or]
  · rw [(daemonStore_of_keeps ltdb key header data hk).2.1, Bool.true_or]

theorem daemonStore_header :
    (ctdbLtdbStore hash (daemonCtx vnnMap pnn) ltdb key header data).header =
      if daemonKeeps hash vnnMap pnn key header data then daemonStored pnn header else clearStoreFlags header := by
  cases hk : daemonKeeps hash vnnMap pnn key header data
  · rw [(daemonStore_of_not_keeps ltdb key header data hk).2.2, if_neg Bool.false_ne_true]
  · rw [(daemonStore_of_keeps ltdb key header data hk).2.2, if_pos rfl]

end Store

/-! ## The fetch -/

/-- The record a daemon's fetch creates on the lmaster: the initial header,
bumped by the store that keeps it and stripped of `CTDB_REC_FLAG_AUTOMATIC`. -/
def createdHeader (lmaster : UInt32) : LtdbHeader := ⟨1, lmaster, 0⟩

theorem ctdbLtdbFetch_daemon (hash : TdbData → UInt32) (vnnMap : List UInt32) (pnn : UInt32) (ltdb : Ltdb)
    (key : TdbData) :
    ctdbLtdbFetch hash (daemonCtx vnnMap pnn) ltdb key =
      match tdbFetch ltdb key with
      | some r => (ltdb, some r)
      | none =>
          if ctdbLmaster hash vnnMap key = pnn then
            (tdbStore ltdb key (createdHeader pnn, []), some (createdHeader pnn, []))
          else (ltdb, some (ltdbInitialHeader (ctdbLmaster hash vnnMap key), [])) := by
  unfold ctdbLtdbFetch
  cases hfetch : tdbFetch ltdb key with
  | some r => rfl
  | none =>
      have hinit : ∀ l : UInt32, (ltdbInitialHeader l).dmaster = l := fun _ => rfl
      by_cases hl : ctdbLmaster hash vnnMap key = pnn
      · subst hl
        have hk : daemonKeeps hash vnnMap (ctdbLmaster hash vnnMap key) key
            (ltdbInitialHeader (ctdbLmaster hash vnnMap key)) [] = true := by
          cases h : daemonKeeps hash vnnMap (ctdbLmaster hash vnnMap key) key
              (ltdbInitialHeader (ctdbLmaster hash vnnMap key)) []
          · have hauto := (storeKeep_eq_false_iff.mp h).2.2.1
            exact absurd hauto (by simp only [ltdbInitialHeader]; decide)
          · rfl
        have hbump : storeBump (ctdbLmaster hash vnnMap key) false
            (ltdbInitialHeader (ctdbLmaster hash vnnMap key)) = true := by
          simp only [storeBump, ltdbInitialHeader, beq_self_eq_true]
          decide
        have hstored : daemonStored (ctdbLmaster hash vnnMap key) (ltdbInitialHeader (ctdbLmaster hash vnnMap key)) =
            createdHeader (ctdbLmaster hash vnnMap key) := by
          rw [daemonStored, bumpedHeader, if_pos hbump]
          simp only [clearStoreFlags, ltdbInitialHeader, createdHeader]
          congr 1
        have hs := daemonStore_of_keeps ltdb key _ [] hk
        rw [hstored] at hs
        simp only [daemonCtx_persistent, daemonCtx_pnn, daemonCtx_vnnMap, hinit, beq_self_eq_true,
          Bool.or_true, if_true, hs.1, hs.2.2]
      · have hne : (ctdbLmaster hash vnnMap key == pnn) = false := by simpa using hl
        simp only [daemonCtx_persistent, daemonCtx_pnn, daemonCtx_vnnMap, hinit, hne, Bool.or_false,
          Bool.false_eq_true, if_false, hl]

/-! ## The stores of the call protocol -/

section Protocol

variable {hash : TdbData → UInt32} {vnnMap : List UInt32} {pnn : UInt32} {key : TdbData} {header : LtdbHeader}
  {data : TdbData}

/-- The dmaster keeps what it stores, and bumps it. -/
theorem daemonKeeps_of_dmaster (hclean : CleanFlags header.flags) (hd : header.dmaster = pnn) :
    daemonKeeps hash vnnMap pnn key header data = true := by
  cases hk : daemonKeeps hash vnnMap pnn key header data
  · obtain ⟨-, -, -, -, hlast⟩ := storeKeep_eq_false_iff.mp hk
    split_ifs at hlast
    · exact absurd hclean.vacuum hlast.1
    · exact absurd hd.symm hlast
  · rfl

theorem daemonStored_of_dmaster (hclean : CleanFlags header.flags) (hd : header.dmaster = pnn) :
    daemonStored pnn header = { header with rsn := header.rsn + 1 } := by
  rw [daemonStored, bumpedHeader_of_ro hclean.ro, if_pos hd.symm]
  apply clearStoreFlags_of_clean
  exact hclean

theorem daemonStored_of_ne_dmaster (hclean : CleanFlags header.flags) (hd : header.dmaster ≠ pnn) :
    daemonStored pnn header = header := by
  rw [daemonStored, bumpedHeader_of_ro hclean.ro, if_neg (Ne.symm hd)]
  exact clearStoreFlags_of_clean hclean

/-- The lmaster keeps every record but one brought back by a vacuum migration. -/
theorem daemonKeeps_of_lmaster (hL : ctdbLmaster hash vnnMap key = pnn)
    (hv : header.flags &&& CTDB_REC_FLAG_VACUUM_MIGRATED = 0) :
    daemonKeeps hash vnnMap pnn key header data = true := by
  cases hk : daemonKeeps hash vnnMap pnn key header data
  · obtain ⟨-, -, -, -, hlast⟩ := storeKeep_eq_false_iff.mp hk
    rw [if_pos hL.symm] at hlast
    exact absurd hv hlast.1
  · rfl

theorem daemonKeeps_of_migrated (hm : header.flags &&& CTDB_REC_FLAG_MIGRATED_WITH_DATA ≠ 0) :
    daemonKeeps hash vnnMap pnn key header data = true := by
  cases hk : daemonKeeps hash vnnMap pnn key header data
  · exact absurd (storeKeep_eq_false_iff.mp hk).2.2.2.1 hm
  · rfl

/-- A node that is neither the lmaster nor the dmaster drops an empty record
that never left a node with data. -/
theorem daemonKeeps_eq_false (hL : ctdbLmaster hash vnnMap key ≠ pnn) (hd : header.dmaster ≠ pnn)
    (hclean : CleanFlags header.flags) (hdata : data = [])
    (hm : header.flags &&& CTDB_REC_FLAG_MIGRATED_WITH_DATA = 0) :
    daemonKeeps hash vnnMap pnn key header data = false := by
  unfold daemonKeeps
  rw [storeKeep_eq_false_iff, if_neg (Ne.symm hL)]
  exact ⟨hdata, hclean.ro, hclean.automatic, hm, Ne.symm hd⟩

/-- A daemon storing a record that names itself, with clean flags marked or not
as vacuum-migrated, keeps it one rsn higher and unmarked; only the lmaster drops
it, an empty record that a vacuum migration brought back. -/
theorem daemonStore_own {f vf : UInt32} {rsn : UInt64} (hf : CleanFlags f)
    (hvf : vf = f ∨ vf = f ||| CTDB_REC_FLAG_VACUUM_MIGRATED) :
    (daemonKeeps hash vnnMap pnn key ⟨rsn, pnn, vf⟩ data = true ∧
        daemonStored pnn ⟨rsn, pnn, vf⟩ = ⟨rsn + 1, pnn, f⟩) ∨
      (daemonKeeps hash vnnMap pnn key ⟨rsn, pnn, vf⟩ data = false ∧
        clearStoreFlags ⟨rsn, pnn, vf⟩ = ⟨rsn, pnn, f⟩ ∧
        ctdbLmaster hash vnnMap key = pnn ∧ data = [] ∧ f &&& CTDB_REC_FLAG_MIGRATED_WITH_DATA = 0) := by
  have hro : vf &&& CTDB_REC_RO_FLAGS = 0 := by
    rcases hvf with rfl | rfl
    · exact hf.ro
    · rw [or_and_of_disjoint _ (by decide)]
      exact hf.ro
  have hmwd : vf &&& CTDB_REC_FLAG_MIGRATED_WITH_DATA = f &&& CTDB_REC_FLAG_MIGRATED_WITH_DATA := by
    rcases hvf with rfl | rfl
    · rfl
    · exact or_and_of_disjoint _ (by decide)
  have hstrip : vf &&& ~~~CTDB_REC_FLAG_VACUUM_MIGRATED = f := by
    rcases hvf with rfl | rfl
    · exact and_not_of_and_eq_zero hf.vacuum
    · exact or_and_not_of_and_eq_zero hf.vacuum
  have hclear : ∀ r : UInt64, clearStoreFlags ⟨r, pnn, vf⟩ = ⟨r, pnn, f⟩ := by
    intro r
    simp only [clearStoreFlags, hstrip, and_not_of_and_eq_zero hf.automatic]
  cases hk : daemonKeeps hash vnnMap pnn key ⟨rsn, pnn, vf⟩ data
  · obtain ⟨hdata, -, -, hm, hlast⟩ := storeKeep_eq_false_iff.mp hk
    have hL : pnn = ctdbLmaster hash vnnMap key := by
      by_contra hne
      rw [if_neg hne] at hlast
      exact hlast rfl
    exact Or.inr ⟨rfl, hclear rsn, hL.symm, hdata, hmwd ▸ hm⟩
  · refine Or.inl ⟨rfl, ?_⟩
    rw [daemonStored, bumpedHeader_of_ro hro, if_pos rfl]
    exact hclear (rsn + 1)

/-- The store `ctdb_become_dmaster` makes: it succeeds when the record it may
drop is there, and leaves the record naming the daemon one rsn higher, or no
record at all. -/
theorem daemonStore_become {ltdb : Ltdb} {f vf : UInt32} {rsn : UInt64} (hf : CleanFlags f)
    (hvf : vf = f ∨ vf = f ||| CTDB_REC_FLAG_VACUUM_MIGRATED)
    (hexists : ctdbLmaster hash vnnMap key = pnn → (tdbFetch ltdb key).isSome) :
    (ctdbLtdbStore hash (daemonCtx vnnMap pnn) ltdb key ⟨rsn, pnn, vf⟩ data).ok = true ∧
      (∀ k, k ≠ key →
        tdbFetch (ctdbLtdbStore hash (daemonCtx vnnMap pnn) ltdb key ⟨rsn, pnn, vf⟩ data).ltdb k =
          tdbFetch ltdb k) ∧
      (((ctdbLtdbStore hash (daemonCtx vnnMap pnn) ltdb key ⟨rsn, pnn, vf⟩ data).header = ⟨rsn + 1, pnn, f⟩ ∧
          tdbFetch (ctdbLtdbStore hash (daemonCtx vnnMap pnn) ltdb key ⟨rsn, pnn, vf⟩ data).ltdb key =
            some (⟨rsn + 1, pnn, f⟩, data)) ∨
        ((ctdbLtdbStore hash (daemonCtx vnnMap pnn) ltdb key ⟨rsn, pnn, vf⟩ data).header = ⟨rsn, pnn, f⟩ ∧
          tdbFetch (ctdbLtdbStore hash (daemonCtx vnnMap pnn) ltdb key ⟨rsn, pnn, vf⟩ data).ltdb key = none ∧
          ctdbLmaster hash vnnMap key = pnn ∧ data = [] ∧ f &&& CTDB_REC_FLAG_MIGRATED_WITH_DATA = 0)) := by
  have hframe : ∀ k, k ≠ key →
      tdbFetch (ctdbLtdbStore hash (daemonCtx vnnMap pnn) ltdb key ⟨rsn, pnn, vf⟩ data).ltdb k =
        tdbFetch ltdb k := by
    intro k hk
    rw [tdbFetch_daemonStore, if_neg hk]
  rcases @daemonStore_own hash vnnMap pnn key data f vf rsn hf hvf with
    ⟨hk, hs⟩ | ⟨hk, hc, hL, hdata, hm⟩
  · refine ⟨by rw [daemonStore_ok, hk, Bool.true_or], hframe, Or.inl ⟨?_, ?_⟩⟩
    · rw [daemonStore_header, hk, if_pos rfl, hs]
    · rw [tdbFetch_daemonStore, if_pos rfl, hk, if_pos rfl, hs]
  · refine ⟨by rw [daemonStore_ok, hk, Bool.false_or]; exact hexists hL, hframe,
      Or.inr ⟨?_, ?_, hL, hdata, hm⟩⟩
    · rw [daemonStore_header, hk, if_neg Bool.false_ne_true, hc]
    · rw [tdbFetch_daemonStore, if_pos rfl, hk, if_neg Bool.false_ne_true]

end Protocol

/-! ## What a daemon reads -/

section Read

variable (hash : TdbData → UInt32) (vnnMap : List UInt32)

/-- What a daemon reads for `key` before its fetch makes anything up: its copy,
or the initial header naming the lmaster, with no data. -/
def daemonView (ltdb : Ltdb) (key : TdbData) : LtdbHeader × TdbData :=
  (tdbFetch ltdb key).getD (ltdbInitialHeader (ctdbLmaster hash vnnMap key), [])

/-- What the dmaster's fetch leaves: the database `ltdb'`, changed at most in
the record of the key, which holds the header `hd` the daemon goes on with and
the data it read. The header names the daemon, its flags are clean, and it is
the one read, or the one the lmaster created for a record nobody had stored. -/
structure HolderRead (pnn : UInt32) (ltdb : Ltdb) (key : TdbData) (ltdb' : Ltdb) (hd : LtdbHeader) : Prop where
  fetch : tdbFetch ltdb' key = some (hd, (daemonView hash vnnMap ltdb key).2)
  frame : ∀ k, k ≠ key → tdbFetch ltdb' k = tdbFetch ltdb k
  dmaster : hd.dmaster = pnn
  clean : CleanFlags hd.flags
  header : hd = (daemonView hash vnnMap ltdb key).1 ∨
    ((daemonView hash vnnMap ltdb key).1 = ltdbInitialHeader pnn ∧ hd = createdHeader pnn)

variable {hash vnnMap} {pnn : UInt32} {ltdb : Ltdb} {key : TdbData}

/-- A daemon that does not find itself the dmaster reads without storing. -/
theorem ctdbLtdbFetch_of_not_holder (h : (daemonView hash vnnMap ltdb key).1.dmaster ≠ pnn) :
    ctdbLtdbFetch hash (daemonCtx vnnMap pnn) ltdb key = (ltdb, some (daemonView hash vnnMap ltdb key)) := by
  rw [ctdbLtdbFetch_daemon]
  unfold daemonView at h ⊢
  cases hf : tdbFetch ltdb key with
  | some r => rfl
  | none =>
      rw [hf] at h
      exact if_neg h

/-- A daemon that finds itself the dmaster reads its copy, or, as the lmaster
of a record nobody has stored, creates it. -/
theorem ctdbLtdbFetch_of_holder (h : (daemonView hash vnnMap ltdb key).1.dmaster = pnn)
    (hclean : ∀ hd d, tdbFetch ltdb key = some (hd, d) → CleanFlags hd.flags) :
    ∃ ltdb' hd, ctdbLtdbFetch hash (daemonCtx vnnMap pnn) ltdb key =
        (ltdb', some (hd, (daemonView hash vnnMap ltdb key).2)) ∧ HolderRead hash vnnMap pnn ltdb key ltdb' hd := by
  rw [ctdbLtdbFetch_daemon]
  unfold daemonView at h ⊢
  cases hf : tdbFetch ltdb key with
  | some r =>
      obtain ⟨hd, d⟩ := r
      rw [hf] at h
      refine ⟨ltdb, hd, rfl, ⟨by simp [daemonView, hf], fun _ _ => rfl, h, hclean hd d hf, ?_⟩⟩
      rw [daemonView, hf]
      exact Or.inl rfl
  | none =>
      rw [hf] at h
      have hL : ctdbLmaster hash vnnMap key = pnn := h
      rw [if_pos hL, hL]
      refine ⟨_, createdHeader pnn, rfl, ⟨by simp [daemonView, hf], ?_, rfl, cleanFlags_zero, ?_⟩⟩
      · intro k hk
        exact tdbFetch_tdbStore_ne _ _ (Ne.symm hk)
      · rw [daemonView, hf, hL]
        exact Or.inr ⟨rfl, rfl⟩

/-- The header the dmaster goes on with is no older than the one it read, at
most one newer, and keeps the migrated-with-data mark. -/
theorem HolderRead.rsn_le {ltdb' : Ltdb} {hd : LtdbHeader} (h : HolderRead hash vnnMap pnn ltdb key ltdb' hd) :
    (daemonView hash vnnMap ltdb key).1.rsn ≤ hd.rsn ∧
      hd.rsn.toNat ≤ (daemonView hash vnnMap ltdb key).1.rsn.toNat + 1 := by
  rcases h.header with heq | ⟨hinit, hcreated⟩
  · rw [heq]
    exact ⟨UInt64.le_refl _, Nat.le_succ _⟩
  · rw [hinit, hcreated]
    simp only [ltdbInitialHeader, createdHeader]
    exact ⟨by decide, by decide⟩

theorem HolderRead.migrated {ltdb' : Ltdb} {hd : LtdbHeader} (h : HolderRead hash vnnMap pnn ltdb key ltdb' hd)
    (hm : (daemonView hash vnnMap ltdb key).1.flags &&& CTDB_REC_FLAG_MIGRATED_WITH_DATA ≠ 0) :
    hd.flags &&& CTDB_REC_FLAG_MIGRATED_WITH_DATA ≠ 0 := by
  rcases h.header with heq | ⟨hinit, -⟩
  · rw [heq]
    exact hm
  · rw [hinit] at hm
    simp only [ltdbInitialHeader] at hm
    exact absurd (by decide) hm

end Read

end Ctdb.Migration

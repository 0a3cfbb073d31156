import Mathlib.Data.List.GetD
import Ctdb.Call.Deferral
import Ctdb.Proofs.RbArray
import Ctdb.Lib.Simulation

/-!
# What the daemon's key arrays tell apart

The array of a record key records the number of its words and the key's bytes
padded with zeros to a whole word, and nothing else: two keys have the same
array exactly when they have as many words and agree at every offset once
read with zeros past their ends (`recordKeyArray_eq_iff`), that is when their
padded keys are equal. `"a"` and `"a\0"` share one, and a call for the second
waits behind the fetch of the first. Keys of one length, and keys that do not
end in a zero byte, are told apart.

That is all that goes wrong. Each key's first word is its length, so under one
top word of a tree all keys have one length, and the tree operations, which
rely on nothing else to tell a value from a subtree, never confuse the two.
The five functions are written once over a `KeyStore`; the trees under the
key arrays simulate maps from padded keys (`trbtStore_simulates`), and a
simulation of the stores lifts, one event at a time, to whole runs of the
daemon (`deferralRun_sim`). So every run of the daemon answers as the maps do
(`deferralRun_refines`).
-/

namespace Ctdb

open Lib

/-! ## The key array -/

theorem length_recordKeyArray (key : TdbData) :
    (recordKeyArray key).length = (key.length + 3) / 4 + 1 := by
  simp [recordKeyArray]

/-- A word gives back its four bytes. -/
theorem keyWord_bytes_eq {a b : TdbData} {i : Nat} (h : keyWord a i = keyWord b i) :
    ∀ j < 4, a.getD (4 * i + j) 0 = b.getD (4 * i + j) 0 := by
  have hdigits : ∀ key : TdbData, leBytes 4 (keyWord key i).toNat =
      (List.range 4).map fun j => key.getD (4 * i + j) 0 := by
    intro key
    have hlt := leNat_lt ((List.range 4).map fun j => key.getD (4 * i + j) 0)
    have hback := leBytes_leNat ((List.range 4).map fun j => key.getD (4 * i + j) 0)
    rw [List.length_map, List.length_range] at hlt hback
    rw [keyWord, UInt32.toNat_ofNat', Nat.mod_eq_of_lt (by simpa using hlt), hback]
  have hmap := (hdigits a).symm.trans (h ▸ hdigits b)
  intro j hj
  exact List.map_inj_left.mp hmap j (List.mem_range.mpr hj)

theorem getD_eq_of_recordKeyArray_eq {a b : TdbData} (h : recordKeyArray a = recordKeyArray b) :
    (a.length + 3) / 4 = (b.length + 3) / 4 ∧ ∀ p, a.getD p 0 = b.getD p 0 := by
  have hw : (a.length + 3) / 4 = (b.length + 3) / 4 := by
    have hlen := congrArg List.length h
    rw [length_recordKeyArray, length_recordKeyArray] at hlen
    omega
  have hwords : (List.range ((a.length + 3) / 4)).map (keyWord a) =
      (List.range ((a.length + 3) / 4)).map (keyWord b) := by
    have htail := (List.cons.inj h).2
    rwa [← hw] at htail
  refine ⟨hw, fun p => ?_⟩
  by_cases hp : p < 4 * ((a.length + 3) / 4)
  · -- byte `p % 4` of word `p / 4`
    have hword := List.map_inj_left.mp hwords (p / 4) (List.mem_range.mpr (by omega))
    have hbyte := keyWord_bytes_eq hword (p % 4) (Nat.mod_lt _ (by omega))
    rwa [Nat.div_add_mod] at hbyte
  · -- past the end of both keys
    rw [List.getD_eq_default _ _ (by omega), List.getD_eq_default _ _ (by omega)]

theorem recordKeyArray_eq_of_getD_eq {a b : TdbData} (hw : (a.length + 3) / 4 = (b.length + 3) / 4)
    (hp : ∀ p, a.getD p 0 = b.getD p 0) : recordKeyArray a = recordKeyArray b := by
  have hword : keyWord a = keyWord b := by
    funext i
    simp only [keyWord, hp]
  rw [recordKeyArray, recordKeyArray, hw, hword]

/-- Two record keys have the same array exactly when they have as many words
and the same byte at every offset, each read with zeros past its end: keys
that differ only by zero bytes within the last word share one array. -/
theorem recordKeyArray_eq_iff (a b : TdbData) :
    recordKeyArray a = recordKeyArray b ↔
      (a.length + 3) / 4 = (b.length + 3) / 4 ∧ ∀ p, a.getD p 0 = b.getD p 0 :=
  ⟨getD_eq_of_recordKeyArray_eq, fun h => recordKeyArray_eq_of_getD_eq h.1 h.2⟩

theorem recordKeyArray_trailing_zero :
    recordKeyArray [97] = recordKeyArray [97, 0] ∧ ([97] : TdbData) ≠ [97, 0] ∧
      (deferralRun trbtStore (Deferrals.init .leaf)
        [.setupDeferredFetchLocks ⟨[97], by decide⟩, .requeueDuplicateFetch ⟨[97, 0], by decide⟩ 7]).map
        (fun r => (r.1, r.2.heap.deferredCalls 0)) = some ([0, 0], [7]) := by
  decide

/-- A record key with the zero bytes that pad its last word. -/
def zeroPad (key : TdbData) : TdbData :=
  key ++ List.replicate (4 * ((key.length + 3) / 4) - key.length) 0

theorem length_zeroPad (key : TdbData) : (zeroPad key).length = 4 * ((key.length + 3) / 4) := by
  simp only [zeroPad, List.length_append, List.length_replicate]
  omega

theorem getD_zeroPad (key : TdbData) (p : Nat) : (zeroPad key).getD p 0 = key.getD p 0 := by
  by_cases hp : p < key.length
  · rw [zeroPad, List.getD_append _ _ _ _ hp]
  · rw [zeroPad, List.getD_append_right _ _ _ _ (by omega), List.getD_eq_default key 0 (by omega)]
    by_cases hq : p - key.length < 4 * ((key.length + 3) / 4) - key.length
    · exact List.getD_replicate 0 hq
    · exact List.getD_eq_default _ _ (by simp at hq ⊢; omega)

theorem zeroPad_eq_iff (a b : TdbData) :
    zeroPad a = zeroPad b ↔ (a.length + 3) / 4 = (b.length + 3) / 4 ∧ ∀ p, a.getD p 0 = b.getD p 0 := by
  constructor
  · intro h
    refine ⟨?_, fun p => ?_⟩
    · have hlen := congrArg List.length h
      rw [length_zeroPad, length_zeroPad] at hlen
      omega
    · rw [← getD_zeroPad a, h, getD_zeroPad]
  · rintro ⟨hw, hp⟩
    refine List.ext_getElem (by rw [length_zeroPad, length_zeroPad, hw]) fun n h₁ h₂ => ?_
    rw [← List.getD_eq_getElem _ 0 h₁, ← List.getD_eq_getElem _ 0 h₂, getD_zeroPad, getD_zeroPad, hp]

/-- The daemon files two keys together exactly when their padded keys are equal. -/
theorem recordKeyArray_eq_iff_zeroPad (a b : TdbData) :
    recordKeyArray a = recordKeyArray b ↔ zeroPad a = zeroPad b := by
  rw [zeroPad_eq_iff]
  exact ⟨getD_eq_of_recordKeyArray_eq, fun h => recordKeyArray_eq_of_getD_eq h.1 h.2⟩

/-- Keys of one length are told apart by their arrays. -/
theorem eq_of_recordKeyArray_eq_of_length_eq {a b : TdbData} (h : recordKeyArray a = recordKeyArray b)
    (hlen : a.length = b.length) : a = b := by
  obtain ⟨-, hp⟩ := getD_eq_of_recordKeyArray_eq h
  refine List.ext_getElem hlen fun n h₁ h₂ => ?_
  rw [← List.getD_eq_getElem _ 0 h₁, ← List.getD_eq_getElem _ 0 h₂, hp]

/-- Keys that do not end with a zero byte are told apart by their arrays. -/
theorem recordKeyArray_injective_of_getLast {a b : TdbData} (ha : a.getLast? ≠ some 0)
    (hb : b.getLast? ≠ some 0) (h : recordKeyArray a = recordKeyArray b) : a = b := by
  obtain ⟨-, hp⟩ := getD_eq_of_recordKeyArray_eq h
  -- past the end of the shorter key the longer one would end with a zero byte
  have hle : ∀ {x y : TdbData}, (∀ p, x.getD p 0 = y.getD p 0) → y.getLast? ≠ some 0 →
      y.length ≤ x.length := by
    intro x y hxy hy
    by_contra hlt
    have hpos : y.length - 1 < y.length := by omega
    apply hy
    rw [List.getLast?_eq_getElem?, List.getElem?_eq_getElem hpos, ← List.getD_eq_getElem _ 0 hpos,
      ← hxy, List.getD_eq_default _ _ (by omega)]
  exact eq_of_recordKeyArray_eq_of_length_eq h
    (Nat.le_antisymm (hle (fun p => (hp p).symm) ha) (hle hp hb))

theorem recordKeyArray_injective_abc :
    ([97, 98, 99] : TdbData).getLast? ≠ some 0 ∧ ([97, 98, 99] : TdbData) = [97, 98, 99] :=
  ⟨by decide, recordKeyArray_injective_of_getLast (by decide) (by decide) rfl⟩

/-! ## The trees refine a map from padded keys -/

/-- What the two trees are for: a map from record keys in which a key stands
for every key with its padding. An insert whose callback frees the entry it
replaces fails, as it does on the trees; nothing else fails. -/
def mapStore : KeyStore (TdbData → Option Nat) where
  lookup m key := some (m (zeroPad key.1))
  insert cb m key :=
    if (cb (m (zeroPad key.1))).2 then none
    else some (Function.update m (zeroPad key.1) (some (cb (m (zeroPad key.1))).1))
  free m key := some (Function.update m (zeroPad key.1) none)

variable {τ₁ τ₂ : Type}

/-- `S₁` does what `S₂` does on the stores `R` relates: the same lookups, and
an insert or a free fails in both or succeeds in both, the stores staying
related. -/
structure KeyStore.Simulates (S₁ : KeyStore τ₁) (S₂ : KeyStore τ₂) (R : τ₁ → τ₂ → Prop) : Prop where
  lookup : ∀ {a b}, R a b → ∀ key, S₁.lookup a key = S₂.lookup b key
  insert : ∀ {a b}, R a b → ∀ cb key, Option.Rel R (S₁.insert cb a key) (S₂.insert cb b key)
  free : ∀ {a b}, R a b → ∀ key, Option.Rel R (S₁.free a key) (S₂.free b key)

/-- Related trees and the same heap. -/
structure DeferralsRel (R : τ₁ → τ₂ → Prop) (s : Deferrals τ₁) (σ : Deferrals τ₂) : Prop where
  fetch : R s.deferredFetch σ.deferredFetch
  sticky : R s.stickyRecords σ.stickyRecords
  heap : s.heap = σ.heap

/-- The same answer, and related states. -/
def AnswerRel {ρ : Type} (R : τ₁ → τ₂ → Prop) (x : ρ × Deferrals τ₁) (y : ρ × Deferrals τ₂) : Prop :=
  x.1 = y.1 ∧ DeferralsRel R x.2 y.2

section Simulation

variable {S₁ : KeyStore τ₁} {S₂ : KeyStore τ₂} {R : τ₁ → τ₂ → Prop} (hS : S₁.Simulates S₂ R)
  {s : Deferrals τ₁} {σ : Deferrals τ₂} (hs : DeferralsRel R s σ)
include hS hs

theorem setupDeferredFetchLocks_rel (key : RecordKey) :
    Option.Rel (AnswerRel R) (setupDeferredFetchLocks S₁ s key) (setupDeferredFetchLocks S₂ σ key) := by
  obtain ⟨f₁, k₁, heap⟩ := s
  obtain ⟨f₂, k₂, heap₂⟩ := σ
  obtain ⟨hf, hk, rfl⟩ := hs
  simp only [setupDeferredFetchLocks, Option.bind_eq_bind, Option.pure_def]
  exact optionRel_bind (hS.insert hf _ key) fun _ _ hR => .some ⟨rfl, hR, hk, rfl⟩

theorem requeueDuplicateFetch_rel (key : RecordKey) (reqid : Nat) :
    Option.Rel (AnswerRel R) (requeueDuplicateFetch S₁ s key reqid) (requeueDuplicateFetch S₂ σ key reqid) := by
  obtain ⟨f₁, k₁, heap⟩ := s
  obtain ⟨f₂, k₂, heap₂⟩ := σ
  obtain ⟨hf, hk, rfl⟩ := hs
  simp only [requeueDuplicateFetch, Option.bind_eq_bind, hS.lookup hf key]
  -- the heap changes the same way on both sides, whatever the lookup found
  refine optionRel_bind_same _ fun o => ?_
  cases o <;> exact .some ⟨rfl, hf, hk, rfl⟩

theorem deferredFetchQueueFree_rel (key : RecordKey) :
    Option.Rel (AnswerRel R) (deferredFetchQueueFree S₁ s key) (deferredFetchQueueFree S₂ σ key) := by
  obtain ⟨f₁, k₁, heap⟩ := s
  obtain ⟨f₂, k₂, heap₂⟩ := σ
  obtain ⟨hf, hk, rfl⟩ := hs
  simp only [deferredFetchQueueFree, Option.bind_eq_bind, hS.lookup hf key]
  refine optionRel_bind_same _ fun o => ?_
  cases o with
  | none => exact .some ⟨rfl, hf, hk, rfl⟩
  | some dfq =>
      simp only [Option.pure_def]
      exact optionRel_bind (hS.free hf key) fun _ _ hR => .some ⟨rfl, hR, hk, rfl⟩

theorem ctdbMakeRecordSticky_rel (key : RecordKey) :
    Option.Rel (AnswerRel R) (ctdbMakeRecordSticky S₁ s key) (ctdbMakeRecordSticky S₂ σ key) := by
  obtain ⟨f₁, k₁, heap⟩ := s
  obtain ⟨f₂, k₂, heap₂⟩ := σ
  obtain ⟨hf, hk, rfl⟩ := hs
  simp only [ctdbMakeRecordSticky, Option.bind_eq_bind, hS.lookup hk key]
  refine optionRel_bind_same _ fun o => ?_
  cases o with
  | some sr => exact .some ⟨rfl, hf, hk, rfl⟩
  | none =>
      simp only [Option.pure_def]
      exact optionRel_bind (hS.insert hk _ key) fun _ _ hR => .some ⟨rfl, hf, hR, rfl⟩

theorem ctdbSetStickyPindown_rel (key : RecordKey) :
    Option.Rel (AnswerRel R) (ctdbSetStickyPindown S₁ s key) (ctdbSetStickyPindown S₂ σ key) := by
  obtain ⟨f₁, k₁, heap⟩ := s
  obtain ⟨f₂, k₂, heap₂⟩ := σ
  obtain ⟨hf, hk, rfl⟩ := hs
  simp only [ctdbSetStickyPindown, Option.bind_eq_bind, hS.lookup hk key]
  refine optionRel_bind_same _ fun o => ?_
  rcases o with _ | sr
  · exact .some ⟨rfl, hf, hk, rfl⟩
  · cases hp : heap.pindown sr <;> simp only [hp] <;> exact .some ⟨rfl, hf, hk, rfl⟩

theorem ctdbDeferPinnedDownRequest_rel (key : RecordKey) (hdr : Nat) :
    Option.Rel (AnswerRel R) (ctdbDeferPinnedDownRequest S₁ s key hdr) (ctdbDeferPinnedDownRequest S₂ σ key hdr) := by
  obtain ⟨f₁, k₁, heap⟩ := s
  obtain ⟨f₂, k₂, heap₂⟩ := σ
  obtain ⟨hf, hk, rfl⟩ := hs
  simp only [ctdbDeferPinnedDownRequest, Option.bind_eq_bind, hS.lookup hk key]
  refine optionRel_bind_same _ fun o => ?_
  rcases o with _ | sr
  · exact .some ⟨rfl, hf, hk, rfl⟩
  · cases hp : heap.pindown sr <;> simp only [hp] <;> exact .some ⟨rfl, hf, hk, rfl⟩

theorem ctdbStickyRecordTimeout_rel (key : RecordKey) :
    Option.Rel (AnswerRel R) (ctdbStickyRecordTimeout S₁ s key) (ctdbStickyRecordTimeout S₂ σ key) := by
  obtain ⟨f₁, k₁, heap⟩ := s
  obtain ⟨f₂, k₂, heap₂⟩ := σ
  obtain ⟨hf, hk, rfl⟩ := hs
  simp only [ctdbStickyRecordTimeout, Option.bind_eq_bind, hS.lookup hk key]
  refine optionRel_bind_same _ fun o => ?_
  cases o with
  | none => exact .some ⟨rfl, hf, hk, rfl⟩
  | some sr =>
      simp only [Option.pure_def]
      exact optionRel_bind (hS.free hk key) fun _ _ hR => .some ⟨rfl, hf, hR, rfl⟩

theorem deferralStep_rel (e : DeferralEvent) :
    Option.Rel (AnswerRel R) (deferralStep S₁ s e) (deferralStep S₂ σ e) := by
  cases e with
  | setupDeferredFetchLocks key => exact setupDeferredFetchLocks_rel hS hs key
  | requeueDuplicateFetch key reqid => exact requeueDuplicateFetch_rel hS hs key reqid
  | deferredFetchQueueFree key => exact deferredFetchQueueFree_rel hS hs key
  | makeRecordSticky key => exact ctdbMakeRecordSticky_rel hS hs key
  | setStickyPindown key => exact ctdbSetStickyPindown_rel hS hs key
  | deferPinnedDownRequest key hdr => exact ctdbDeferPinnedDownRequest_rel hS hs key hdr
  | stickyRecordTimeout key => exact ctdbStickyRecordTimeout_rel hS hs key
  | stickyPindownTimeout sr =>
      -- only the heap changes
      exact .some ⟨rfl, hs.fetch, hs.sticky, by simp [ctdbStickyPindownTimeout, hs.heap]⟩

end Simulation

/-- Runs of `S₁` and `S₂` from related states fail together, and otherwise
give the same answers and end in related states. -/
theorem deferralRun_rel {S₁ : KeyStore τ₁} {S₂ : KeyStore τ₂} {R : τ₁ → τ₂ → Prop}
    (hS : S₁.Simulates S₂ R) : ∀ (evs : List DeferralEvent) {s : Deferrals τ₁} {σ : Deferrals τ₂},
    DeferralsRel R s σ → Option.Rel (AnswerRel R) (deferralRun S₁ s evs) (deferralRun S₂ σ evs)
  | [], _, _, hs => .some ⟨rfl, hs⟩
  | e :: evs, _, _, hs => by
      simp only [deferralRun, Option.bind_eq_bind, Option.pure_def]
      refine optionRel_bind (deferralStep_rel hS hs e) ?_
      rintro ⟨r, s₁⟩ ⟨r', σ₁⟩ ⟨rfl, hs₁⟩
      refine optionRel_bind (deferralRun_rel hS evs hs₁) ?_
      rintro ⟨rs, s₂⟩ ⟨rs', σ₂⟩ ⟨rfl, hs₂⟩
      exact .some ⟨rfl, hs₂⟩

/-! ## The daemon's trees -/

theorem lengthKeyed_recordKeyArray (key : RecordKey) : KeyTree.LengthKeyed (recordKeyArray key.1) := by
  have hw : (key.1.length + 3) / 4 + 1 < 2 ^ 32 := by
    have := key.2
    omega
  simp only [recordKeyArray, KeyTree.LengthKeyed, UInt32.toNat_ofNat', List.length_map, List.length_range]
  exact Nat.mod_eq_of_lt hw

/-- A tree standing for a map from padded keys. -/
def TreeFor (t : KeyTree Nat) (m : TdbData → Option Nat) : Prop :=
  KeyTree.KeyWf t ∧ ∀ key : RecordKey, KeyTree.keyLookup t (recordKeyArray key.1) = m (zeroPad key.1)

/-- Updating the tree's map at a key's array updates the map at its padded key. -/
theorem treeFor_update {t t' : KeyTree Nat} {m : TdbData → Option Nat} (ht : TreeFor t m)
    (hw : KeyTree.KeyWf t') (key : RecordKey) (v : Option Nat)
    (hl : ∀ ks, KeyTree.keyLookup t' ks = Function.update (KeyTree.keyLookup t) (recordKeyArray key.1) v ks) :
    TreeFor t' (Function.update m (zeroPad key.1) v) := by
  refine ⟨hw, fun key' => ?_⟩
  rw [hl, Function.update_apply, Function.update_apply]
  by_cases h : recordKeyArray key'.1 = recordKeyArray key.1
  · rw [if_pos h, if_pos ((recordKeyArray_eq_iff_zeroPad _ _).mp h)]
  · rw [if_neg h, if_neg fun h' => h ((recordKeyArray_eq_iff_zeroPad _ _).mpr h'), ht.2]

theorem trbtStore_simulates : trbtStore.Simulates mapStore TreeFor where
  lookup := by
    intro t m ht key
    simp only [trbtStore, mapStore]
    rw [KeyTree.trbtLookuparray32_eq ht.1 (lengthKeyed_recordKeyArray key), ht.2]
  insert := by
    intro t m ht cb key
    simp only [trbtStore, mapStore]
    rw [KeyTree.trbtInsertarray32CallbackFreeing_eq cb ht.1 (lengthKeyed_recordKeyArray key), ht.2 key]
    split_ifs
    · exact .none
    · obtain ⟨t', hins, hw, hl⟩ := KeyTree.trbtInsertarray32Callback_spec (fun data => (cb data).1) ht.1
        (lengthKeyed_recordKeyArray key)
      rw [ht.2 key] at hl
      rw [hins]
      exact .some (treeFor_update ht hw key _ hl)
  free := by
    intro t m ht key
    obtain ⟨t', hfree, hw, hl⟩ := KeyTree.trbtFreearray32_spec ht.1 (lengthKeyed_recordKeyArray key)
    simp only [trbtStore, mapStore]
    rw [hfree]
    exact .some (treeFor_update ht hw key none hl)

/-- A map step fails only in `setup_deferred_fetch_locks`, when a queue is
filed under the padded key: `insert_dfq_callback` frees it, and with it the
node the insert goes on to write through. -/
theorem deferralStep_mapStore_eq_none (σ : Deferrals (TdbData → Option Nat)) (e : DeferralEvent) :
    deferralStep mapStore σ e = none ↔
      ∃ key, e = .setupDeferredFetchLocks key ∧ σ.deferredFetch (zeroPad key.1) ≠ none := by
  cases e with
  | setupDeferredFetchLocks key =>
      simp only [deferralStep, setupDeferredFetchLocks, mapStore, insertDfqCallback, Option.bind_eq_bind]
      cases h : σ.deferredFetch (zeroPad key.1) <;> simp [h]
  | makeRecordSticky key =>
      -- the sticky callback is only reached when nothing is filed
      simp only [deferralStep, ctdbMakeRecordSticky, mapStore, ctdbMakeStickyRecordCallback, Option.bind_eq_bind]
      cases σ.stickyRecords (zeroPad key.1) <;> simp
  | setStickyPindown key =>
      simp only [deferralStep, ctdbSetStickyPindown, mapStore, Option.bind_eq_bind]
      rcases σ.stickyRecords (zeroPad key.1) with _ | sr
      · simp
      · cases hp : σ.heap.pindown sr <;> simp [hp]
  | deferPinnedDownRequest key hdr =>
      simp only [deferralStep, ctdbDeferPinnedDownRequest, mapStore, Option.bind_eq_bind]
      rcases σ.stickyRecords (zeroPad key.1) with _ | sr
      · simp
      · cases hp : σ.heap.pindown sr <;> simp [hp]
  | requeueDuplicateFetch key reqid =>
      simp only [deferralStep, requeueDuplicateFetch, mapStore, Option.bind_eq_bind]
      cases σ.deferredFetch (zeroPad key.1) <;> simp
  | deferredFetchQueueFree key =>
      simp only [deferralStep, deferredFetchQueueFree, mapStore, Option.bind_eq_bind]
      cases σ.deferredFetch (zeroPad key.1) <;> simp
  | stickyRecordTimeout key =>
      simp only [deferralStep, ctdbStickyRecordTimeout, mapStore, Option.bind_eq_bind]
      cases σ.stickyRecords (zeroPad key.1) <;> simp
  | stickyPindownTimeout sr => simp [deferralStep]

/-- A run fails exactly when, after the events before it have run, one event
fails. -/
theorem deferralRun_eq_none {τ : Type} (S : KeyStore τ) : ∀ (evs : List DeferralEvent) (s : Deferrals τ),
    deferralRun S s evs = none ↔ ∃ i, ∃ h : i < evs.length, ∃ rs s',
      deferralRun S s (evs.take i) = some (rs, s') ∧ deferralStep S s' evs[i] = none
  | [], s => by simp [deferralRun]
  | e :: evs, s => by
      simp only [deferralRun, Option.bind_eq_bind, Option.pure_def]
      cases hstep : deferralStep S s e with
      | none =>
          -- the first event fails
          simp only [Option.bind_none, true_iff]
          exact ⟨0, by simp, [], s, rfl, hstep⟩
      | some p =>
          obtain ⟨r, s₁⟩ := p
          simp only [Option.bind_some]
          constructor
          · intro h
            have hrest : deferralRun S s₁ evs = none := by
              cases hrun : deferralRun S s₁ evs with
              | none => rfl
              | some q => simp [hrun] at h
            obtain ⟨i, hi, rs, s', hrun, hfail⟩ := (deferralRun_eq_none S evs s₁).mp hrest
            refine ⟨i + 1, by simpa using hi, r :: rs, s', ?_, hfail⟩
            simp [deferralRun, hstep, hrun]
          · rintro ⟨i, hi, rs, s', hrun, hfail⟩
            cases i with
            | zero =>
                simp only [List.take_zero, deferralRun, Option.some.injEq, Prod.mk.injEq] at hrun
                obtain ⟨-, rfl⟩ := hrun
                rw [List.getElem_cons_zero, hstep] at hfail
                cases hfail
            | succ i =>
                simp only [List.take_succ_cons, deferralRun, Option.bind_eq_bind, hstep, Option.bind_some,
                  Option.pure_def] at hrun
                cases hrun' : deferralRun S s₁ (evs.take i) with
                | none => simp [hrun'] at hrun
                | some q =>
                    obtain ⟨rs', s''⟩ := q
                    simp only [hrun', Option.bind_some, Option.some.injEq, Prod.mk.injEq] at hrun
                    obtain ⟨-, rfl⟩ := hrun
                    have hnone := (deferralRun_eq_none S evs s₁).mpr ⟨i, by simpa using hi, rs', s'', hrun', hfail⟩
                    simp [hnone]

/-- Whatever the five functions and the ends of queues, sticky records and
pin-downs do, in any order and on any record keys, the daemon's two trees fail
exactly where `setup_deferred_fetch_locks` finds a queue filed under the padded
key, which its callback frees under the insert. Otherwise they never read a
value as a subtree or the other way round, give the answers that two maps from
padded record keys give, and stand for those maps: a call is held behind the
fetch in flight for any key with the same padding, and a record is pinned down
through the sticky entry of any such key. -/
theorem deferralRun_refines (evs : List DeferralEvent) :
    (deferralRun trbtStore (Deferrals.init .leaf) evs = none ↔
      ∃ i, ∃ h : i < evs.length, ∃ key rs σ, evs[i] = .setupDeferredFetchLocks key ∧
        deferralRun mapStore (Deferrals.init fun _ => none) (evs.take i) = some (rs, σ) ∧
        σ.deferredFetch (zeroPad key.1) ≠ none) ∧
    ∀ rs σ, deferralRun mapStore (Deferrals.init fun _ => none) evs = some (rs, σ) →
      ∃ s, deferralRun trbtStore (Deferrals.init .leaf) evs = some (rs, s) ∧
        s.heap = σ.heap ∧ KeyTree.KeyWf s.deferredFetch ∧ KeyTree.KeyWf s.stickyRecords ∧
        ∀ key : RecordKey,
          KeyTree.keyLookup s.deferredFetch (recordKeyArray key.1) = σ.deferredFetch (zeroPad key.1) ∧
          KeyTree.keyLookup s.stickyRecords (recordKeyArray key.1) = σ.stickyRecords (zeroPad key.1) := by
  have hleaf : TreeFor .leaf fun _ => none := ⟨KeyTree.keyWf_leaf, fun _ => KeyTree.keyLookup_leaf _⟩
  have hrel := deferralRun_rel trbtStore_simulates evs (s := Deferrals.init .leaf)
    (σ := Deferrals.init fun _ => none) ⟨hleaf, hleaf, rfl⟩
  refine ⟨?_, fun rs σ hσ => ?_⟩
  · -- the trees fail where the maps do, and the maps where a setup finds a queue
    rw [hrel.eq_none_iff, deferralRun_eq_none]
    simp only [deferralStep_mapStore_eq_none]
    constructor
    · rintro ⟨i, hi, rs, σ, hrun, key, he, hq⟩
      exact ⟨i, hi, key, rs, σ, he, hrun, hq⟩
    · rintro ⟨i, hi, key, rs, σ, he, hrun, hq⟩
      exact ⟨i, hi, rs, σ, hrun, key, he, hq⟩
  · rw [hσ] at hrel
    obtain ⟨⟨rs', s⟩, hs, rfl, hf, hk, hheap⟩ := hrel.exists_of_some
    exact ⟨s, hs, hheap, hf.1, hk.1, fun key => ⟨hf.2 key, hk.2 key⟩⟩

end Ctdb

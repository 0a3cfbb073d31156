import Mathlib.Tactic.Ring
import Mathlib.Data.List.Perm.Subperm
import Ctdb.Event.ScriptList
import Ctdb.Proofs.RbMap
import Ctdb.Proofs.RbArray

/-!
# The order of the event scripts

`ctdb_get_script_list` sorts by a key that packs two numbers into one word:
the prefix `num` in the upper half and the running count in the lower. The
numbers `sscanf` can convert from a name with a `.` at index 2 are 0 to 99
and, through a minus sign, `-1` to `-9` as `unsigned` (`ScanNum`), whose low
halves keep their order; and while fewer than `2 ^ 16` scripts have been
kept, the count fits in the lower half. Then the keys are distinct and ordered
by the prefix and then by `readdir` order (`scriptKey_lt_iff`), the tree holds
one item per script, and the extraction loop lists them in key order
(`scriptListExtract_eq`). So for every directory with at most `2 ^ 16`
scripts the list is the stable sort of the scripts by prefix
(`ctdbGetScriptList_eq`).

Two kept scripts with one key leave the tree an item short of `count`, and
the last round of the extraction loop then reads the `NULL` that
`trbt_findfirstarray32` returns on the empty tree
(`ctdbGetScriptList_of_key_collision`). The 65537th script's count reaches
bit 16 and lands in the prefix's half of the key: in a directory of one
script numbered 1 followed by 65536 scripts numbered 0, the last of these
gets the key of the first, which `trbt_insert32` replaces
(`ctdbGetScriptList_count_overflow`).
-/

namespace Ctdb

open Lib RbNode

/-! ## The numbers `sscanf` gives -/

theorem foldl_digitsValue : ∀ (ds : List UInt8) (acc : Nat),
    ds.foldl (fun acc d => acc * 10 + (d.toNat - 48)) acc = acc * 10 ^ ds.length + digitsValue ds
  | [], acc => by simp [digitsValue]
  | d :: ds, acc => by
      have hcons : digitsValue (d :: ds) = (d.toNat - 48) * 10 ^ ds.length + digitsValue ds := by
        rw [digitsValue, List.foldl_cons, foldl_digitsValue ds]
        simp
      rw [List.foldl_cons, foldl_digitsValue ds, hcons, List.length_cons, Nat.pow_succ]
      ring

theorem isDigit_toNat {d : UInt8} (h : isDigit d = true) : 48 ≤ d.toNat ∧ d.toNat ≤ 57 := by
  simp only [isDigit, Bool.and_eq_true, decide_eq_true_eq, UInt8.le_iff_toNat_le] at h
  exact h

theorem digitsValue_lt : ∀ {ds : List UInt8}, (∀ d ∈ ds, isDigit d = true) →
    digitsValue ds < 10 ^ ds.length
  | [], _ => by simp [digitsValue]
  | d :: ds, h => by
      have hd := isDigit_toNat (h d List.mem_cons_self)
      have hrest := digitsValue_lt fun e he => h e (List.mem_cons_of_mem d he)
      have hcons : digitsValue (d :: ds) = (d.toNat - 48) * 10 ^ ds.length + digitsValue ds := by
        rw [digitsValue, List.foldl_cons, foldl_digitsValue]
        simp
      rw [hcons, List.length_cons, Nat.pow_succ]
      have : (d.toNat - 48) * 10 ^ ds.length ≤ 9 * 10 ^ ds.length := Nat.mul_le_mul_right _ (by omega)
      omega

/-- What `sscanf(name, "%02u.", &num)` can leave in `num`: one or two digits,
or a minus sign and one digit. -/
def ScanNum (n : UInt32) : Prop :=
  n.toNat < 100 ∨ 2 ^ 32 - 9 ≤ n.toNat

theorem sscanfU2_scanNum {s : List UInt8} {num : UInt32} (h : sscanfU2 s = some num) : ScanNum num := by
  unfold sscanfU2 at h
  split at h
  next neg rest width hsplit =>
    -- a sign leaves one character of the field for digits
    have hw : width ≤ 2 ∧ (neg = true → width = 1) := by
      split at hsplit <;> simp only [Prod.mk.injEq] at hsplit <;> obtain ⟨rfl, -, rfl⟩ := hsplit <;> simp
    simp only at h
    split at h
    · cases h
    · have hlen : (List.takeWhile isDigit (List.take width rest)).length ≤ width :=
        Nat.le_trans (List.takeWhile_sublist _).length_le (List.length_take_le _ _)
      have hval := @digitsValue_lt (List.takeWhile isDigit (List.take width rest))
        fun d hd => List.all_eq_true.mp List.all_takeWhile d hd
      generalize hds : List.takeWhile isDigit (List.take width rest) = ds at hlen hval h
      have hlt : digitsValue ds < 100 := by
        have : 10 ^ ds.length ≤ 10 ^ 2 := Nat.pow_le_pow_right (by decide) (by omega)
        omega
      have hv : (UInt32.ofNat (digitsValue ds)).toNat = digitsValue ds := by
        rw [UInt32.toNat_ofNat']
        exact Nat.mod_eq_of_lt (by omega)
      cases neg with
      | false =>
          simp only [Bool.false_eq_true, if_false, Option.some.injEq] at h
          subst h
          exact Or.inl (by omega)
      | true =>
          simp only [if_true, Option.some.injEq] at h
          subst h
          have h10 : digitsValue ds < 10 := by
            have : ds.length ≤ 1 := by have := hw.2 rfl; omega
            have : 10 ^ ds.length ≤ 10 ^ 1 := Nat.pow_le_pow_right (by decide) this
            omega
          rw [ScanNum, UInt32.toNat_neg, hv, show UInt32.size = 2 ^ 32 from rfl]
          by_cases h0 : digitsValue ds = 0
          · left
            rw [h0]
            decide
          · right
            have hmod : (2 ^ 32 - digitsValue ds) % 2 ^ 32 = 2 ^ 32 - digitsValue ds :=
              Nat.mod_eq_of_lt (by omega)
            omega

theorem sscanfU2_of_scriptPrefix {name : List UInt8} {num : UInt32} (h : scriptPrefix name = some num) :
    sscanfU2 name = some num := by
  unfold scriptPrefix at h
  split_ifs at h <;> split at h <;> simp_all

theorem scriptPrefix_scanNum {name : List UInt8} {num : UInt32} (h : scriptPrefix name = some num) :
    ScanNum num :=
  sscanfU2_scanNum (sscanfU2_of_scriptPrefix h)

/-! ## The keys -/

theorem scriptKey_toNat (num : UInt32) {count : Nat} (hc : count < 2 ^ 16) :
    (scriptKey num count).toNat = 2 ^ 16 * (num.toNat % 2 ^ 16) + count := by
  have hshift : (num <<< (16 : UInt32)).toNat = 2 ^ 16 * (num.toNat % 2 ^ 16) := by
    rw [UInt32.toNat_shiftLeft, Nat.shiftLeft_eq]
    show num.toNat * 2 ^ 16 % (2 ^ 16 * 2 ^ 16) = _
    rw [Nat.mul_comm, Nat.mul_mod_mul_left]
  have hcount : (UInt32.ofNat count).toNat = count := by
    rw [UInt32.toNat_ofNat']
    exact Nat.mod_eq_of_lt (by omega)
  rw [scriptKey, UInt32.toNat_or, hshift, hcount, Nat.two_pow_add_eq_or_of_lt hc]

/-- Below `2 ^ 16` scripts, the keys order the scripts by prefix, then by count. -/
theorem scriptKey_lt_iff {a b : UInt32} {i j : Nat} (ha : ScanNum a) (hb : ScanNum b)
    (hi : i < 2 ^ 16) (hj : j < 2 ^ 16) :
    scriptKey a i < scriptKey b j ↔ a.toNat < b.toNat ∨ (a = b ∧ i < j) := by
  rw [UInt32.lt_iff_toNat_lt, scriptKey_toNat a hi, scriptKey_toNat b hj, ← UInt32.toNat_inj]
  unfold ScanNum at ha hb
  have := a.toNat_lt
  have := b.toNat_lt
  omega

theorem scriptKey_count_eq {a b : UInt32} {i j : Nat} (hi : i < 2 ^ 16) (hj : j < 2 ^ 16)
    (h : scriptKey a i = scriptKey b j) : i = j := by
  have := congrArg UInt32.toNat h
  rw [scriptKey_toNat a hi, scriptKey_toNat b hj] at this
  omega

/-! ## The `readdir` loop -/

/-- The scripts the loop keeps, in `readdir` order, with their prefixes. -/
def validScripts (entries : List ScriptEntry) : List (UInt32 × ScriptEntry) :=
  entries.filterMap fun de => (scriptPrefix de.name).map fun num => (num, de)

/-- The keys and items the loop inserts, counting from `start`. -/
def scriptPairs (start : Nat) (v : List (UInt32 × ScriptEntry)) : List (UInt32 × ScriptTreeItem) :=
  (v.zipIdx start).map fun p => (scriptKey p.1.1 p.2, ⟨p.1.2.name, p.1.2.error⟩)

/-- The loop inserts the kept scripts under their keys, and counts them. -/
theorem foldl_scriptTreeInsert : ∀ (entries : List ScriptEntry) (t : TrbtNode ScriptTreeItem) (c : Nat),
    entries.foldl scriptTreeInsert (t, c) =
      (((scriptPairs c (validScripts entries)).map fun p => TrbtEvent.insert32 p.1 p.2).foldl trbtStep t,
        c + (validScripts entries).length)
  | [], t, c => by simp [validScripts, scriptPairs]
  | de :: rest, t, c => by
      rw [List.foldl_cons]
      cases hp : scriptPrefix de.name with
      | none =>
          have hstep : scriptTreeInsert (t, c) de = (t, c) := by simp [scriptTreeInsert, hp]
          have hv : validScripts (de :: rest) = validScripts rest := by simp [validScripts, hp]
          rw [hstep, foldl_scriptTreeInsert rest, hv]
      | some num =>
          have hstep : scriptTreeInsert (t, c) de =
              ((trbtInsert32 t (scriptKey num c) ⟨de.name, de.error⟩).1, c + 1) := by
            simp [scriptTreeInsert, hp]
          have hv : validScripts (de :: rest) = (num, de) :: validScripts rest := by
            simp [validScripts, hp]
          rw [hstep, foldl_scriptTreeInsert rest, hv]
          simp [scriptPairs, List.zipIdx_cons, trbtStep, Nat.add_assoc, Nat.add_comm 1]

/-! ## The extraction loop -/

theorem trbtFirst_eq {β : Type} : ∀ t : TrbtNode β, trbtFirst t = t.toList.head?
  | .leaf => rfl
  | .node _ .leaf _ _ _ => by simp [trbtFirst]
  | .node _ (.node c l k v r) _ _ _ => by
      rw [trbtFirst, trbtFirst_eq (.node c l k v r)]
      simp

/-- On a tree in key order, the loop lists the first `n` entries, or reads a
`NULL` item when there are fewer. -/
theorem scriptListExtract_eq : ∀ (n : Nat) (t : TrbtNode ScriptTreeItem), KeysSorted t.toList →
    scriptListExtract n t = if n ≤ t.toList.length then
      some ((t.toList.take n).map fun e => ⟨e.2.name, -e.2.error⟩) else none
  | 0, t, _ => by simp [scriptListExtract]
  | n + 1, t, hs => by
      rw [scriptListExtract, trbtFirst_eq]
      rcases hl : t.toList with _ | ⟨⟨k, item⟩, rest⟩
      · simp
      · -- the first entry goes, and the tree then lists the rest
        have hrest : (trbtNodeDestructor t k).toList = rest := by
          rw [hl] at hs
          rw [toList_trbtNodeDestructor t k (hl ▸ hs), hl, List.filter_cons_of_neg (by simp),
            List.filter_eq_self]
          exact fun e he => bne_iff_ne.mpr fun h => UInt32.ne_of_lt (List.rel_of_pairwise_cons hs he) h.symm
        rw [List.head?_cons]
        dsimp only
        rw [scriptListExtract_eq n _ (trbtNodeDestructor_spec t k hs).1, hrest]
        by_cases hn : n ≤ rest.length
        · simp [hn]
        · simp [hn]

/-! ## The list -/

/-- What the list should be: the kept scripts, sorted by prefix as unsigned
numbers, stably, so that equal prefixes keep `readdir` order. -/
def expectedScripts (entries : List ScriptEntry) : List CtdbScriptWire :=
  ((validScripts entries).mergeSort fun a b => decide (a.1 ≤ b.1)).map fun p => ⟨p.2.name, -p.2.error⟩

theorem validScripts_scanNum {entries : List ScriptEntry} {p : UInt32 × ScriptEntry}
    (hp : p ∈ validScripts entries) : ScanNum p.1 := by
  obtain ⟨de, -, hde⟩ := List.mem_filterMap.mp hp
  obtain ⟨num, hnum, rfl⟩ := Option.map_eq_some_iff.mp hde
  exact scriptPrefix_scanNum hnum

/-- The key and item the loop inserts for a script and its count. -/
def scriptPair (p : (UInt32 × ScriptEntry) × Nat) : UInt32 × ScriptTreeItem :=
  (scriptKey p.1.1 p.2, ⟨p.1.2.name, p.1.2.error⟩)

theorem scriptPairs_eq (start : Nat) (v : List (UInt32 × ScriptEntry)) :
    scriptPairs start v = (v.zipIdx start).map scriptPair := rfl

theorem zipIdx_nodup {β : Type} (l : List β) : l.zipIdx.Nodup := by
  apply List.Nodup.of_map Prod.snd
  rw [List.zipIdx_map_snd]
  exact List.nodup_range' _

/-- Below `2 ^ 16` scripts the keys are distinct. -/
theorem scriptPairs_keys_nodup {v : List (UInt32 × ScriptEntry)} (hv : v.length ≤ 2 ^ 16) :
    ((scriptPairs 0 v).map Prod.fst).Nodup := by
  rw [scriptPairs, List.map_map]
  refine List.Nodup.map_on ?_ (zipIdx_nodup v)
  rintro ⟨a, i⟩ hx ⟨b, j⟩ hy hkey
  obtain ⟨hi, ha⟩ := List.mem_zipIdx' hx
  obtain ⟨hj, hb⟩ := List.mem_zipIdx' hy
  -- the count fixes the position, and the position the script
  have hij : i = j := scriptKey_count_eq (by omega) (by omega) hkey
  subst hij
  rw [ha, hb]

/-- Sorting the scripts stably by prefix sorts their keys. -/
theorem scriptPair_sorted {v : List (UInt32 × ScriptEntry)} (hv : v.length ≤ 2 ^ 16)
    (hscan : ∀ p ∈ v, ScanNum p.1) :
    KeysSorted ((v.zipIdx.mergeSort (List.zipIdxLE fun a b => decide (a.1 ≤ b.1))).map scriptPair) := by
  have hperm := List.mergeSort_perm v.zipIdx (List.zipIdxLE fun a b => decide (a.1 ≤ b.1))
  have htrans : ∀ a b c : UInt32 × ScriptEntry, decide (a.1 ≤ b.1) = true →
      decide (b.1 ≤ c.1) = true → decide (a.1 ≤ c.1) = true := by
    intro a b c hab hbc
    simp only [decide_eq_true_eq] at *
    exact UInt32.le_trans hab hbc
  have htotal : ∀ a b : UInt32 × ScriptEntry, (decide (a.1 ≤ b.1) || decide (b.1 ≤ a.1)) = true :=
    fun a b => by simpa using UInt32.le_total a.1 b.1
  have hle := List.pairwise_mergeSort (List.zipIdxLE_trans htrans) (List.zipIdxLE_total htotal) v.zipIdx
  rw [KeysSorted, List.pairwise_map]
  refine (hle.and ((zipIdx_nodup v).perm hperm.symm)).imp_of_mem ?_
  rintro ⟨a, i⟩ ⟨b, j⟩ hx hy hxy
  obtain ⟨hi, ha⟩ := List.mem_zipIdx' (hperm.mem_iff.mp hx)
  obtain ⟨hj, hb⟩ := List.mem_zipIdx' (hperm.mem_iff.mp hy)
  have hsa : ScanNum a.1 := hscan a (by rw [ha]; exact List.getElem_mem hi)
  have hsb : ScanNum b.1 := hscan b (by rw [hb]; exact List.getElem_mem hj)
  show scriptKey a.1 i < scriptKey b.1 j
  rw [scriptKey_lt_iff hsa hsb (by omega) (by omega)]
  obtain ⟨hsort, hne⟩ := hxy
  simp only [List.zipIdxLE, decide_eq_true_eq] at hsort
  split_ifs at hsort with hab hba
  · -- equal prefixes: the counts differ, the earlier script first
    have hij : i ≠ j := fun hij => hne (by subst hij; rw [ha, hb])
    exact Or.inr ⟨UInt32.le_antisymm hab hba, by simp at hsort; omega⟩
  · exact Or.inl (UInt32.lt_iff_toNat_lt.mp (UInt32.not_le.mp hba))

/-- With at most `2 ^ 16` scripts, every round of the extraction loop finds an
item, and the list is the stable sort of the scripts by prefix. -/
theorem ctdbGetScriptList_eq (entries : List ScriptEntry) (h : (validScripts entries).length ≤ 2 ^ 16) :
    ctdbGetScriptList (some entries) = .ok (expectedScripts entries) := by
  have hrun := foldl_scriptTreeInsert entries .leaf 0
  have hinv := trbtRun_inv ((scriptPairs 0 (validScripts entries)).map fun p => TrbtEvent.insert32 p.1 p.2)
  -- the tree lists the pairs of the stably sorted scripts
  have hlist : (trbtRun ((scriptPairs 0 (validScripts entries)).map
      fun p => TrbtEvent.insert32 p.1 p.2)).toList =
      ((validScripts entries).zipIdx.mergeSort
        (List.zipIdxLE fun a b => decide (a.1 ≤ b.1))).map scriptPair := by
    apply List.Perm.eq_of_pairwise _ hinv.sorted
      (scriptPair_sorted h fun p hp => validScripts_scanNum hp)
    · refine (trbtRun_insert32_perm (scriptPairs_keys_nodup h)).trans ?_
      rw [scriptPairs_eq]
      exact ((List.mergeSort_perm _ _).map scriptPair).symm
    · intro a b _ _ hab hba
      exact absurd hba (UInt32.lt_asymm hab)
  dsimp only [ctdbGetScriptList]
  rw [hrun]
  dsimp only
  rw [Nat.zero_add, ← trbtRun, scriptListExtract_eq _ _ hinv.sorted, hlist, List.length_map,
    List.length_mergeSort, List.length_zipIdx, if_pos (Nat.le_refl _),
    List.take_of_length_le (by simp), List.map_map]
  dsimp only
  rw [expectedScripts, ← List.mergeSort_zipIdx (l := validScripts entries), List.map_map]
  rfl

theorem ctdbGetScriptList_eq_four :
    (validScripts [⟨[49, 48, 46, 98], 0⟩, ⟨[48, 53, 46, 97], 0⟩, ⟨[45, 49, 46, 122], 0⟩,
        ⟨[48, 53, 46, 99], 0⟩]).length ≤ 2 ^ 16 ∧
      ctdbGetScriptList (some [⟨[49, 48, 46, 98], 0⟩, ⟨[48, 53, 46, 97], 0⟩,
          ⟨[45, 49, 46, 122], 0⟩, ⟨[48, 53, 46, 99], 0⟩]) =
        .ok (expectedScripts [⟨[49, 48, 46, 98], 0⟩, ⟨[48, 53, 46, 97], 0⟩,
          ⟨[45, 49, 46, 122], 0⟩, ⟨[48, 53, 46, 99], 0⟩]) :=
  ⟨by decide, ctdbGetScriptList_eq _ (by decide)⟩

/-! ## Too many scripts -/

/-- When two kept scripts get the same key, the later one replaces the
earlier in the tree, which then holds fewer items than `count`: the last
round of the extraction loop reads `NULL`. -/
theorem ctdbGetScriptList_of_key_collision (entries : List ScriptEntry) {i j : Nat}
    {a b : UInt32 × ScriptEntry} (hij : i < j) (ha : (validScripts entries)[i]? = some a)
    (hb : (validScripts entries)[j]? = some b) (hkey : scriptKey a.1 i = scriptKey b.1 j) :
    ctdbGetScriptList (some entries) = .nullDeref := by
  obtain ⟨hj, rfl⟩ := List.getElem?_eq_some_iff.mp hb
  obtain ⟨hi, rfl⟩ := List.getElem?_eq_some_iff.mp ha
  have hrun := foldl_scriptTreeInsert entries .leaf 0
  have hinv := trbtRun_inv ((scriptPairs 0 (validScripts entries)).map fun p => TrbtEvent.insert32 p.1 p.2)
  have hlen : ((scriptPairs 0 (validScripts entries)).map Prod.fst).length =
      (validScripts entries).length := by
    simp [scriptPairs]
  have hj' : j < ((scriptPairs 0 (validScripts entries)).map Prod.fst).length := by omega
  have hi' : i < ((scriptPairs 0 (validScripts entries)).map Prod.fst).length := by omega
  have hkij : ((scriptPairs 0 (validScripts entries)).map Prod.fst)[i] =
      ((scriptPairs 0 (validScripts entries)).map Prod.fst)[j] := by
    simpa [scriptPairs_eq, scriptPair] using hkey
  -- the tree's keys are distinct, and each is a key of the pairs other than the `j`th
  have hsub : (trbtRun ((scriptPairs 0 (validScripts entries)).map
      fun p => TrbtEvent.insert32 p.1 p.2)).toList.map Prod.fst ⊆
      ((scriptPairs 0 (validScripts entries)).map Prod.fst).eraseIdx j := by
    intro k hk
    obtain ⟨m, hm, rfl⟩ := List.getElem_of_mem ((trbtRun_insert32_mem_keys _ k).mp hk)
    rw [List.mem_eraseIdx_iff_getElem]
    by_cases hmj : m = j
    · subst hmj
      exact ⟨i, hi', by omega, hkij⟩
    · exact ⟨m, hm, hmj, rfl⟩
  have hle := (List.subperm_of_subset
    (keys_nodup_of_keysSorted (fun k => UInt32.lt_irrefl k) hinv.sorted) hsub).length_le
  rw [List.length_map, List.length_eraseIdx, if_pos (by omega), hlen] at hle
  dsimp only [ctdbGetScriptList]
  rw [hrun]
  dsimp only
  rw [Nat.zero_add, ← trbtRun, scriptListExtract_eq _ _ hinv.sorted, if_neg (by omega)]

/-- `00.` and four letters from `a` to `p`, one for each hex digit of `i`. -/
def overflowName (i : Nat) : List UInt8 :=
  [48, 48, 46] ++ [i / 4096, i / 256, i / 16, i].map fun d => UInt8.ofNat (97 + d % 16)

/-- A script `01.a`, then `2 ^ 16` scripts numbered `00`, in `readdir` order. -/
def overflowDir : List ScriptEntry :=
  ⟨[48, 49, 46, 97], 0⟩ :: (List.range (2 ^ 16)).map fun i => ⟨overflowName i, 0⟩

theorem hexLetter_toNat (d : Nat) : (UInt8.ofNat (97 + d % 16)).toNat = 97 + d % 16 := by
  rw [UInt8.toNat_ofNat']
  omega

theorem scriptPrefix_overflowName (i : Nat) : scriptPrefix (overflowName i) = some 0 := by
  -- of all the tests, only the one of the last letter needs an argument: it is not `~`
  have hlast : UInt8.ofNat (97 + i % 16) ≠ 126 := fun h => by
    have := congrArg UInt8.toNat h
    rw [hexLetter_toNat] at this
    simp at this
    omega
  simpa [scriptPrefix, overflowName, sscanfU2, isSpace, isDigit, digitsValue, MAX_SCRIPT_NAME] using hlast

theorem overflowName_inj {i j : Nat} (hi : i < 2 ^ 16) (hj : j < 2 ^ 16)
    (h : overflowName i = overflowName j) : i = j := by
  simp only [overflowName, List.map_cons, List.map_nil, List.cons_append, List.nil_append,
    List.cons.injEq] at h
  obtain ⟨-, -, -, h3, h2, h1, h0, -⟩ := h
  -- the four letters give back the four hex digits
  have e3 := congrArg UInt8.toNat h3
  have e2 := congrArg UInt8.toNat h2
  have e1 := congrArg UInt8.toNat h1
  have e0 := congrArg UInt8.toNat h0
  rw [hexLetter_toNat, hexLetter_toNat] at e3 e2 e1 e0
  omega

theorem validScripts_overflowDir : validScripts overflowDir =
    (1, ⟨[48, 49, 46, 97], 0⟩) :: (List.range (2 ^ 16)).map fun i => (0, ⟨overflowName i, 0⟩) := by
  have h01 : scriptPrefix [48, 49, 46, 97] = some 1 := by decide
  simp [validScripts, overflowDir, List.filterMap_map, h01, scriptPrefix_overflowName]

/-- With `2 ^ 16 + 1` scripts, all distinct and all to be listed, the loop
reads a `NULL` item: the last `00` script's key `(0 << 16) | 65536` is the
key `(1 << 16) | 0` of the first script, which it replaces. -/
theorem ctdbGetScriptList_count_overflow :
    (overflowDir.map ScriptEntry.name).Nodup ∧ (∀ de ∈ overflowDir, (scriptPrefix de.name).isSome) ∧
      ctdbGetScriptList (some overflowDir) = .nullDeref := by
  refine ⟨?_, ?_, ?_⟩
  · rw [overflowDir, List.map_cons, List.map_map, List.nodup_cons]
    refine ⟨?_, List.Nodup.map_on ?_ List.nodup_range⟩
    · simp [overflowName]
    · intro i hi j hj h
      exact overflowName_inj (List.mem_range.mp hi) (List.mem_range.mp hj) h
  · have h01 : scriptPrefix [48, 49, 46, 97] = some 1 := by decide
    simp [overflowDir, h01, scriptPrefix_overflowName]
  · -- the first script, at count 0, and the last, at count `2 ^ 16`
    have hfirst : (validScripts overflowDir)[0]? = some (1, ⟨[48, 49, 46, 97], 0⟩) := by
      rw [validScripts_overflowDir, List.getElem?_cons_zero]
    have hlast : (validScripts overflowDir)[65535 + 1]? = some (0, ⟨overflowName 65535, 0⟩) := by
      rw [validScripts_overflowDir, List.getElem?_cons_succ, List.getElem?_map, List.getElem?_range (by decide)]
      rfl
    exact ctdbGetScriptList_of_key_collision overflowDir (by decide) hfirst hlast (by decide)

end Ctdb

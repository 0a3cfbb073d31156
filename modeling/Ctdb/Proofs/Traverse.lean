import Mathlib.Algebra.Order.BigOperators.Group.List
import Ctdb.Lib.Interleave
import Ctdb.Traverse.All

/-!
# When a cluster-wide traverse ends

The originator of a traverse of a volatile database ends it on the empty
record that brings its count to `ctdb_get_num_active_nodes`. Every node that
takes part sends exactly one empty record, after its own records, and the
nodes that take part are those of the vnn map. So the count can only reach
the number of vnn map nodes, and when that is the number of active nodes
the last empty record to arrive is the last record of all.

Recovery leaves active nodes without the lmaster capability out of the vnn
map, and the count of active nodes still includes them. With such a node
the traverse never ends on its own, whatever order the records come in, and
the records that node is dmaster of are never reported
(`traverseAll_never_ends`). When every active node has the capability, the
callback sees each authoritative record once and then the end
(`traverseAll_complete`).
-/

namespace Ctdb

open Lib

/-- The record that ends a node's traverse. -/
def traverseEnd : TdbData × TdbData := ([], [])

/-! ## The nodes' streams -/

theorem traverseLocalFn_eq_some {n : ClusterNode} {persistent withEmptyRecords : Bool}
    {key : TdbData} {rec : LtdbHeader × TdbData} {x : TdbData × TdbData}
    (h : traverseLocalFn n persistent withEmptyRecords key rec = some x) :
    x = (key, rec.1.toBytes ++ rec.2) ∧ (persistent = false → rec.1.dmaster = n.pnn) := by
  dsimp only [traverseLocalFn] at h
  split at h
  · cases h
  · next hkeep =>
      refine ⟨(Option.some.inj h).symm, fun hp => ?_⟩
      subst hp
      by_contra hne
      apply hkeep
      simp [hne]

theorem traverseLocalFn_ne_end {n : ClusterNode} {persistent withEmptyRecords : Bool}
    {key : TdbData} {rec : LtdbHeader × TdbData} {x : TdbData × TdbData}
    (h : traverseLocalFn n persistent withEmptyRecords key rec = some x) : x ≠ traverseEnd := by
  rw [(traverseLocalFn_eq_some h).1]
  intro hend
  have hdata := congrArg (fun r => r.2.length) hend
  simp [traverseEnd, ltdbHeaderSize] at hdata

theorem count_end_ctdbTraverseLocal (n : ClusterNode) (persistent withEmptyRecords : Bool) :
    (ctdbTraverseLocal n persistent withEmptyRecords).count traverseEnd = 1 := by
  have hend : ([([], [])] : List (TdbData × TdbData)) = [traverseEnd] := rfl
  rw [ctdbTraverseLocal, hend, List.count_append, List.count_singleton_self, Nat.add_eq_right,
    List.count_eq_zero]
  intro hmem
  obtain ⟨r, -, hr⟩ := List.mem_filterMap.mp hmem
  exact traverseLocalFn_ne_end hr rfl

theorem count_end_traverseStream (nodes : List ClusterNode) (persistent withEmptyRecords : Bool)
    (p : UInt32) : (traverseStream nodes persistent withEmptyRecords p).count traverseEnd ≤ 1 := by
  unfold traverseStream
  split
  · rw [count_end_ctdbTraverseLocal]
  · exact Nat.zero_le 1

/-- A record other than the end comes from a node with that number, which
holds it and, for a volatile database, is its dmaster. -/
theorem mem_traverseStream {nodes : List ClusterNode} {withEmptyRecords : Bool} {p : UInt32}
    {x : TdbData × TdbData} (hx : x ∈ traverseStream nodes false withEmptyRecords p)
    (hne : x ≠ traverseEnd) :
    ∃ n ∈ nodes, n.pnn = p ∧ ∃ r, tdbFetch n.ltdb x.1 = some r ∧ r.1.dmaster = n.pnn ∧
      x.2 = r.1.toBytes ++ r.2 := by
  unfold traverseStream at hx
  split at hx
  · next n hfind =>
      have hn := List.mem_of_find?_eq_some hfind
      have hpnn : n.pnn = p := by simpa using List.find?_some hfind
      rw [ctdbTraverseLocal, List.mem_append, List.mem_singleton] at hx
      rcases hx with hx | hx
      · obtain ⟨e, he, hr⟩ := List.mem_filterMap.mp hx
        obtain ⟨rfl, hdm⟩ := traverseLocalFn_eq_some hr
        exact ⟨n, hn, hpnn, e.2, (mem_tdbRecords.mp he), hdm rfl, rfl⟩
      · exact absurd hx hne
  · cases hx

/-! ## The originator's count -/

section Callbacks

variable (persistent : Bool) (numActive : Nat)

theorem mem_traverseAllCallbacks :
    ∀ (nullCount : Nat) (arrived : List (TdbData × TdbData)) {x : TdbData × TdbData},
      x ∈ traverseAllCallbacks persistent numActive nullCount arrived → x ∈ arrived
  | _, [], _, hx => by cases hx
  | nullCount, (key, data) :: arrived, x, hx => by
      simp only [traverseAllCallbacks, List.mem_append] at hx
      rcases hx with hx | hx
      · unfold ctdbControlTraverseData at hx
        split at hx
        · split at hx
          · cases hx
          · have hx' : x = (key, data) := by simpa using hx
            rw [hx']
            exact List.mem_cons_self
        · have hx' : x = (key, data) := by simpa using hx
          rw [hx']
          exact List.mem_cons_self
      · exact List.mem_cons_of_mem _ (mem_traverseAllCallbacks _ arrived hx)

/-- The end reaches the callback of a volatile traverse only once the count
of empty records has reached the number of active nodes. -/
theorem numActive_le_of_end_mem :
    ∀ (nullCount : Nat) (arrived : List (TdbData × TdbData)),
      traverseEnd ∈ traverseAllCallbacks false numActive nullCount arrived →
        numActive ≤ nullCount + arrived.count traverseEnd
  | _, [], h => by cases h
  | nullCount, (key, data) :: arrived, h => by
      simp only [traverseAllCallbacks, List.mem_append] at h
      by_cases hend : key = [] ∧ data = []
      · obtain ⟨rfl, rfl⟩ := hend
        have hcount : ((([] : TdbData), ([] : TdbData)) :: arrived).count traverseEnd =
            arrived.count traverseEnd + 1 := List.count_cons_self
        rw [hcount]
        simp only [ctdbControlTraverseData, and_self, if_true, Bool.not_false, Bool.true_and] at h
        by_cases hreach : nullCount + 1 = numActive
        · omega
        · have hne : (nullCount + 1 != numActive) = true := bne_iff_ne.mpr hreach
          simp only [hne, if_true, Option.toList_none, List.not_mem_nil, false_or] at h
          have := numActive_le_of_end_mem (nullCount + 1) arrived h
          omega
      · simp only [ctdbControlTraverseData, if_neg hend, Option.toList_some,
          List.mem_singleton] at h
        rcases h with h | h
        · exact absurd (Prod.mk.inj h.symm) (by simpa [traverseEnd] using hend)
        · have := numActive_le_of_end_mem nullCount arrived h
          have hle : arrived.count traverseEnd ≤ ((key, data) :: arrived).count traverseEnd :=
            List.count_le_count_cons
          omega

theorem traverseAllCallbacks_append :
    ∀ (nullCount : Nat) (arrived later : List (TdbData × TdbData)),
      traverseAllCallbacks persistent numActive nullCount (arrived ++ later) =
        traverseAllCallbacks persistent numActive nullCount arrived ++
          traverseAllCallbacks persistent numActive (nullCount + arrived.count traverseEnd) later
  | nullCount, [], later => rfl
  | nullCount, (key, data) :: arrived, later => by
      simp only [List.cons_append, traverseAllCallbacks, List.append_assoc]
      rw [traverseAllCallbacks_append _ arrived later]
      congr 3
      -- the count moves by one exactly on an empty record
      unfold ctdbControlTraverseData
      by_cases hend : key = [] ∧ data = []
      · obtain ⟨rfl, rfl⟩ := hend
        have hcount : ((([] : TdbData), ([] : TdbData)) :: arrived).count traverseEnd =
            arrived.count traverseEnd + 1 := List.count_cons_self
        rw [hcount, if_pos ⟨rfl, rfl⟩]
        split <;> omega
      · have hne : (key, data) ≠ traverseEnd := fun h => hend (by simpa [traverseEnd] using h)
        rw [if_neg hend, List.count_cons_of_ne hne]

/-- Before the count can reach the number of active nodes, the callback gets
every record except the empty ones. -/
theorem traverseAllCallbacks_of_lt :
    ∀ (nullCount : Nat) (arrived : List (TdbData × TdbData)),
      nullCount + arrived.count traverseEnd < numActive →
        traverseAllCallbacks false numActive nullCount arrived =
          arrived.filter (· != traverseEnd)
  | _, [], _ => rfl
  | nullCount, (key, data) :: arrived, hlt => by
      by_cases hend : key = [] ∧ data = []
      · obtain ⟨rfl, rfl⟩ := hend
        have hcount : ((([] : TdbData), ([] : TdbData)) :: arrived).count traverseEnd =
            arrived.count traverseEnd + 1 := List.count_cons_self
        rw [hcount] at hlt
        have hne : (nullCount + 1 != numActive) = true := bne_iff_ne.mpr (by omega)
        have hfilter : ((([] : TdbData), ([] : TdbData)) :: arrived).filter (· != traverseEnd) =
            arrived.filter (· != traverseEnd) := List.filter_cons_of_neg (by simp [traverseEnd])
        simp only [traverseAllCallbacks, ctdbControlTraverseData, and_self, if_true,
          Bool.not_false, Bool.true_and, hne, Option.toList_none, List.nil_append]
        rw [traverseAllCallbacks_of_lt (nullCount + 1) arrived (by omega), hfilter]
      · have hne : (key, data) ≠ traverseEnd := fun h => hend (by simpa [traverseEnd] using h)
        rw [List.count_cons_of_ne hne] at hlt
        simp only [traverseAllCallbacks, ctdbControlTraverseData, if_neg hend, Option.toList_some,
          List.singleton_append]
        rw [traverseAllCallbacks_of_lt nullCount arrived hlt, List.filter_cons_of_pos (by simpa using hne)]

end Callbacks

/-! ## A node outside the vnn map -/

/-- Two active nodes; node 1 lacks the lmaster capability and is the dmaster
of key `[5]`. -/
def nonLmasterCluster : List ClusterNode :=
  [⟨0, 0, false, none, some [0], tdbWipeAll⟩,
    ⟨1, 0, false, none, some [0], tdbStore tdbWipeAll [5] (⟨2, 1, 0⟩, [7])⟩]

/-- Only node 0 has the lmaster capability. -/
def nonLmasterCaps (p : UInt32) : UInt32 := if p = 0 then CTDB_CAP_LMASTER else 0

/-- However the records arrive: with fewer vnn map nodes than active nodes the
callback never gets the end, and a key no vnn map node is dmaster of never
reaches it. -/
theorem traverseAll_never_ends (nodes : List ClusterNode) (pnn : UInt32) (vnnMap : List UInt32)
    (withEmptyRecords : Bool) (hmiss : vnnMap.length < ctdbGetNumActiveNodes nodes)
    {arrived : List (TdbData × TdbData)}
    (harrived : Interleaving (traverseAllStreams nodes pnn vnnMap false withEmptyRecords) arrived) :
    traverseEnd ∉ traverseAllCallbacks false (ctdbGetNumActiveNodes nodes) 0 arrived ∧
    ∀ key, (∀ n ∈ nodes, n.pnn ∈ vnnMap → ∀ r ∈ tdbFetch n.ltdb key, r.1.dmaster ≠ n.pnn) →
      ∀ x ∈ traverseAllCallbacks false (ctdbGetNumActiveNodes nodes) 0 arrived, x.1 = key →
        x = traverseEnd := by
  constructor
  · -- each vnn map node sends at most one end
    intro hend
    have hle := numActive_le_of_end_mem _ 0 arrived hend
    have hcount : arrived.count traverseEnd ≤ vnnMap.length := by
      rw [harrived.count_eq, traverseAllStreams, traverseAllDestinations, List.map_map]
      simp only [Bool.not_false, if_true]
      calc ((vnnMap.map (List.count traverseEnd ∘ traverseStream nodes false withEmptyRecords))).sum
          ≤ (vnnMap.map fun _ => 1).sum :=
            List.sum_le_sum fun p _ => count_end_traverseStream nodes false withEmptyRecords p
        _ = vnnMap.length := by simp
    omega
  · intro key hkey x hx hxkey
    by_contra hne
    obtain ⟨s, hs, hxs⟩ := harrived.mem (mem_traverseAllCallbacks false _ 0 arrived hx)
    simp only [traverseAllStreams, traverseAllDestinations, Bool.not_false, if_true,
      List.mem_map] at hs
    obtain ⟨p, hp, rfl⟩ := hs
    obtain ⟨n, hn, rfl, r, hr, hdm, -⟩ := mem_traverseStream hxs hne
    exact hkey n hn hp r (hxkey ▸ hr) hdm

theorem traverseAll_never_ends_two :
    [(0 : UInt32)].length < ctdbGetNumActiveNodes nonLmasterCluster ∧
    Interleaving (traverseAllStreams nonLmasterCluster 0 [0] false false) [traverseEnd] ∧
    traverseEnd ∉ traverseAllCallbacks false (ctdbGetNumActiveNodes nonLmasterCluster) 0
      [traverseEnd] ∧
    ∀ key, (∀ n ∈ nonLmasterCluster, n.pnn ∈ [0] → ∀ r ∈ tdbFetch n.ltdb key,
        r.1.dmaster ≠ n.pnn) →
      ∀ x ∈ traverseAllCallbacks false (ctdbGetNumActiveNodes nonLmasterCluster) 0 [traverseEnd],
        x.1 = key → x = traverseEnd := by
  have hflat : (traverseAllStreams nonLmasterCluster 0 [0] false false).flatten = [traverseEnd] := by
    decide
  have harrived := Interleaving.flatten (traverseAllStreams nonLmasterCluster 0 [0] false false)
  rw [hflat] at harrived
  exact ⟨by decide, harrived, traverseAll_never_ends nonLmasterCluster 0 [0] false (by decide)
    harrived⟩

theorem traverseAll_misses_non_lmaster :
    recoveryVnnMap nonLmasterCaps 0 nonLmasterCluster = [0] ∧
    ctdbGetNumActiveNodes nonLmasterCluster = 2 ∧
    ∀ arrived, Interleaving (traverseAllStreams nonLmasterCluster 0
        (recoveryVnnMap nonLmasterCaps 0 nonLmasterCluster) false false) arrived →
      traverseAllCallbacks false (ctdbGetNumActiveNodes nonLmasterCluster) 0 arrived = [] := by
  have hmap : recoveryVnnMap nonLmasterCaps 0 nonLmasterCluster = [0] := by decide
  have hstreams : traverseAllStreams nonLmasterCluster 0 [0] false false = [[traverseEnd]] := by
    decide
  refine ⟨hmap, by decide, fun arrived harrived => ?_⟩
  -- node 0 alone is asked, and it holds no record: only its end arrives
  rw [hmap, hstreams] at harrived
  have harr : arrived = [traverseEnd] := List.perm_singleton.mp harrived.perm
  rw [harr]
  decide

/-! ## Every active node in the vnn map -/

/-- The records a node reports in a complete traverse: those it names itself
dmaster of, header and data, leaving out records without data unless empty
records are asked for. -/
def authoritativeRecords (n : ClusterNode) (withEmptyRecords : Bool) : List (TdbData × TdbData) :=
  ((tdbRecords n.ltdb).filter fun r =>
      decide (r.2.1.dmaster = n.pnn ∧ (withEmptyRecords = true ∨ r.2.2 ≠ []))).map
    fun r => (r.1, r.2.1.toBytes ++ r.2.2)

theorem traverseLocalFn_volatile (n : ClusterNode) (withEmptyRecords : Bool) (key : TdbData)
    (rec : LtdbHeader × TdbData) :
    traverseLocalFn n false withEmptyRecords key rec =
      if rec.1.dmaster = n.pnn ∧ (withEmptyRecords = true ∨ rec.2 ≠ []) then
        some (key, rec.1.toBytes ++ rec.2)
      else none := by
  by_cases hdm : rec.1.dmaster = n.pnn <;> cases withEmptyRecords <;>
    simp [traverseLocalFn, hdm, ltdbHeaderSize]

theorem filterMap_traverseLocalFn (n : ClusterNode) (withEmptyRecords : Bool) :
    (tdbRecords n.ltdb).filterMap (fun r => traverseLocalFn n false withEmptyRecords r.1 r.2) =
      authoritativeRecords n withEmptyRecords := by
  rw [authoritativeRecords]
  induction tdbRecords n.ltdb with
  | nil => rfl
  | cons r l ih =>
      rw [List.filterMap_cons, traverseLocalFn_volatile n withEmptyRecords r.1 r.2, List.filter_cons]
      by_cases hkeep : r.2.1.dmaster = n.pnn ∧ (withEmptyRecords = true ∨ r.2.2 ≠ [])
      · simp only [if_pos hkeep, decide_eq_true hkeep, if_true, List.map_cons, ih]
      · simp only [if_neg hkeep, decide_eq_false hkeep, Bool.false_eq_true, if_false, ih]

theorem find?_pnn {nodes : List ClusterNode} (hpnn : (nodes.map ClusterNode.pnn).Nodup)
    {n : ClusterNode} (hn : n ∈ nodes) : nodes.find? (fun m => m.pnn == n.pnn) = some n := by
  induction nodes with
  | nil => cases hn
  | cons m ms ih =>
      rw [List.map_cons, List.nodup_cons] at hpnn
      by_cases hm : m.pnn = n.pnn
      · -- the numbers are distinct, so `m` is `n`
        have hmn : m = n := by
          rcases List.mem_cons.mp hn with rfl | hn'
          · rfl
          · exact absurd (hm ▸ List.mem_map_of_mem hn') hpnn.1
        subst hmn
        simp only [List.find?_cons, beq_self_eq_true]
      · have hn' : n ∈ ms := by
          rcases List.mem_cons.mp hn with rfl | hn'
          · exact absurd rfl hm
          · exact hn'
        have hb : (m.pnn == n.pnn) = false := by simpa using hm
        simp only [List.find?_cons, hb]
        exact ih hpnn.2 hn'

/-- With every active node an lmaster, the vnn map is the active nodes. -/
theorem recoveryVnnMap_eq_active (caps : UInt32 → UInt32) (recmaster : UInt32)
    {nodes : List ClusterNode}
    (hcap : ∀ n ∈ nodes, n.active = true → caps n.pnn &&& CTDB_CAP_LMASTER ≠ 0)
    (hactive : ∃ n ∈ nodes, n.active = true) :
    recoveryVnnMap caps recmaster nodes = (nodes.filter ClusterNode.active).map ClusterNode.pnn := by
  have hfilter : (nodes.filter fun n => n.active && caps n.pnn &&& CTDB_CAP_LMASTER != 0) =
      nodes.filter ClusterNode.active := by
    apply List.filter_congr
    intro n hn
    cases ha : n.active with
    | false => rfl
    | true => simpa using hcap n hn ha
  obtain ⟨n, hn, ha⟩ := hactive
  have hne : (nodes.filter ClusterNode.active).map ClusterNode.pnn ≠ [] :=
    List.ne_nil_of_mem (List.mem_map_of_mem (List.mem_filter.mpr ⟨hn, ha⟩))
  simp only [recoveryVnnMap, hfilter, if_neg hne]

theorem traverseAllStreams_eq_active (caps : UInt32 → UInt32) (recmaster pnn : UInt32)
    {nodes : List ClusterNode} (withEmptyRecords : Bool) (hpnn : (nodes.map ClusterNode.pnn).Nodup)
    (hcap : ∀ n ∈ nodes, n.active = true → caps n.pnn &&& CTDB_CAP_LMASTER ≠ 0)
    (hactive : ∃ n ∈ nodes, n.active = true) :
    traverseAllStreams nodes pnn (recoveryVnnMap caps recmaster nodes) false withEmptyRecords =
      (nodes.filter ClusterNode.active).map fun n => ctdbTraverseLocal n false withEmptyRecords := by
  rw [traverseAllStreams, traverseAllDestinations, recoveryVnnMap_eq_active caps recmaster hcap
    hactive]
  simp only [Bool.not_false, if_true, List.map_map]
  apply List.map_congr_left
  intro n hn
  simp only [Function.comp_apply, traverseStream,
    find?_pnn hpnn (List.mem_filter.mp hn).1]

theorem getLast?_ctdbTraverseLocal (n : ClusterNode) (persistent withEmptyRecords : Bool) :
    (ctdbTraverseLocal n persistent withEmptyRecords).getLast? = some traverseEnd := by
  rw [ctdbTraverseLocal, List.getLast?_append, List.getLast?_singleton]
  rfl

/-- Without its end, a node's stream is its authoritative records. -/
theorem filter_ctdbTraverseLocal (n : ClusterNode) (withEmptyRecords : Bool) :
    (ctdbTraverseLocal n false withEmptyRecords).filter (· != traverseEnd) =
      authoritativeRecords n withEmptyRecords := by
  have hrecs : ∀ x ∈ (tdbRecords n.ltdb).filterMap
      (fun r => traverseLocalFn n false withEmptyRecords r.1 r.2), (x != traverseEnd) = true := by
    intro x hx
    obtain ⟨r, -, hr⟩ := List.mem_filterMap.mp hx
    exact bne_iff_ne.mpr (traverseLocalFn_ne_end hr)
  have hend : ([([], [])] : List (TdbData × TdbData)).filter (· != traverseEnd) = [] := by decide
  rw [ctdbTraverseLocal, List.filter_append, List.filter_eq_self.mpr hrecs, hend, List.append_nil,
    filterMap_traverseLocalFn]

/-- The last end arrives when the count is one short: it goes to the callback. -/
theorem traverseAllCallbacks_end {numActive nullCount : Nat} (h : nullCount + 1 = numActive) :
    traverseAllCallbacks false numActive nullCount [traverseEnd] = [traverseEnd] := by
  have hreach : (nullCount + 1 != numActive) = false := by simpa using h
  simp only [traverseEnd, traverseAllCallbacks, ctdbControlTraverseData, and_self, if_true,
    Bool.not_false, Bool.true_and, hreach, Bool.false_eq_true, if_false, Option.toList_some]
  rfl

theorem traverseAll_complete (caps : UInt32 → UInt32) (recmaster pnn : UInt32)
    (nodes : List ClusterNode) (withEmptyRecords : Bool) (hpnn : (nodes.map ClusterNode.pnn).Nodup)
    (hcap : ∀ n ∈ nodes, n.active = true → caps n.pnn &&& CTDB_CAP_LMASTER ≠ 0)
    (hactive : ∃ n ∈ nodes, n.active = true) {arrived : List (TdbData × TdbData)}
    (harrived : Interleaving (traverseAllStreams nodes pnn (recoveryVnnMap caps recmaster nodes)
      false withEmptyRecords) arrived) :
    (traverseAllCallbacks false (ctdbGetNumActiveNodes nodes) 0 arrived).Perm
        ((nodes.filter ClusterNode.active).flatMap (authoritativeRecords · withEmptyRecords) ++
          [traverseEnd]) ∧
      (traverseAllCallbacks false (ctdbGetNumActiveNodes nodes) 0 arrived).getLast? =
        some traverseEnd := by
  rw [traverseAllStreams_eq_active caps recmaster pnn withEmptyRecords hpnn hcap hactive]
    at harrived
  -- one end per active node, the last of them last of all
  have hcount : arrived.count traverseEnd = ctdbGetNumActiveNodes nodes := by
    rw [harrived.count_eq, List.map_map, ctdbGetNumActiveNodes]
    simp [Function.comp_def, count_end_ctdbTraverseLocal]
  have hlast := harrived.getLast?_eq (m := traverseEnd) fun s hs => by
    obtain ⟨n, -, rfl⟩ := List.mem_map.mp hs
    exact Or.inr (getLast?_ctdbTraverseLocal n false withEmptyRecords)
  have hpos : 0 < ctdbGetNumActiveNodes nodes := by
    obtain ⟨n, hn, ha⟩ := hactive
    exact List.length_pos_of_mem (List.mem_filter.mpr ⟨hn, ha⟩)
  obtain ⟨pre, rfl⟩ : ∃ pre, arrived = pre ++ [traverseEnd] := by
    rcases hlast with h | h
    · rw [h] at hcount
      simp only [List.count_nil] at hcount
      omega
    · exact List.getLast?_eq_some_iff.mp h
  rw [List.count_append, List.count_singleton_self] at hcount
  -- the ends before the last one are dropped, the last one is passed on
  have hcb : traverseAllCallbacks false (ctdbGetNumActiveNodes nodes) 0 (pre ++ [traverseEnd]) =
      pre.filter (· != traverseEnd) ++ [traverseEnd] := by
    rw [traverseAllCallbacks_append, traverseAllCallbacks_of_lt _ 0 pre (by omega),
      traverseAllCallbacks_end (by omega)]
  rw [hcb]
  refine ⟨?_, List.getLast?_concat⟩
  have hperm := harrived.perm.filter (· != traverseEnd)
  have hlastend : ([traverseEnd] : List (TdbData × TdbData)).filter (· != traverseEnd) = [] := by
    decide
  rw [List.filter_append, hlastend, List.append_nil, List.filter_flatten, List.map_map] at hperm
  have hstreams : (fun s => s.filter (· != traverseEnd)) ∘
      (fun n => ctdbTraverseLocal n false withEmptyRecords) =
        (authoritativeRecords · withEmptyRecords) := by
    funext n
    exact filter_ctdbTraverseLocal n withEmptyRecords
  rw [hstreams, ← List.flatMap_def] at hperm
  exact hperm.append_right [traverseEnd]

/-- Two lmaster nodes, each the dmaster of one record; node 1 also holds an
old copy of node 0's record. -/
def lmasterCluster : List ClusterNode :=
  [⟨0, 0, false, none, some [0, 1], tdbStore tdbWipeAll [5] (⟨3, 0, 0⟩, [7])⟩,
    ⟨1, 0, false, none, some [0, 1],
      tdbStore (tdbStore tdbWipeAll [5] (⟨2, 0, 0⟩, [6])) [6] (⟨1, 1, 0⟩, [8])⟩]

theorem traverseAll_complete_two :
    (lmasterCluster.map ClusterNode.pnn).Nodup ∧
    (∀ n ∈ lmasterCluster, n.active = true →
      (fun _ => CTDB_CAP_LMASTER : UInt32 → UInt32) n.pnn &&& CTDB_CAP_LMASTER ≠ 0) ∧
    (∃ n ∈ lmasterCluster, n.active = true) ∧
    Interleaving (traverseAllStreams lmasterCluster 0
      (recoveryVnnMap (fun _ => CTDB_CAP_LMASTER) 0 lmasterCluster) false false)
      (traverseAllStreams lmasterCluster 0
        (recoveryVnnMap (fun _ => CTDB_CAP_LMASTER) 0 lmasterCluster) false false).flatten ∧
    (traverseAllCallbacks false (ctdbGetNumActiveNodes lmasterCluster) 0
        (traverseAllStreams lmasterCluster 0
          (recoveryVnnMap (fun _ => CTDB_CAP_LMASTER) 0 lmasterCluster) false false).flatten).Perm
        ((lmasterCluster.filter ClusterNode.active).flatMap (authoritativeRecords · false) ++
          [traverseEnd]) ∧
      (traverseAllCallbacks false (ctdbGetNumActiveNodes lmasterCluster) 0
        (traverseAllStreams lmasterCluster 0
          (recoveryVnnMap (fun _ => CTDB_CAP_LMASTER) 0 lmasterCluster) false false).flatten).getLast? =
        some traverseEnd := by
  have harrived := Interleaving.flatten (traverseAllStreams lmasterCluster 0
    (recoveryVnnMap (fun _ => CTDB_CAP_LMASTER) 0 lmasterCluster) false false)
  exact ⟨by decide, by decide, by decide, harrived,
    traverseAll_complete (fun _ => CTDB_CAP_LMASTER) 0 0 lmasterCluster false (by decide)
      (by decide) (by decide) harrived⟩

end Ctdb

import Mathlib.Data.List.Nodup
import Ctdb.Proofs.RbOrder
import Ctdb.Lib.NestedMap

/-!
# A tree made by `trbt_create` is a red-black map

What a run of inserts and frees should leave is a finite map from keys to
data: `trbt_insert32` sets a key, `trbt_insert32_callback` sets it to what
the callback makes of the data it held, and freeing the data under a key
removes it (`trbtMapRun`).

`TrbtInv` is what the code keeps between operations: the tree is red-black
with a black root, its keys strictly increase in order, and its in-order
entries hold the map. Every event keeps it (`trbtStep_inv`), so every run
from the empty tree does (`trbtRun_inv`), and then `trbt_lookup32` answers
the map and the in-order keys are its keys.
-/

namespace Ctdb

open Lib RbNode

variable {α : Type}

/-- What an event does to the map from keys to the data stored under them. -/
def trbtEventApply (m : UInt32 → Option α) : TrbtEvent α → UInt32 → Option α
  | .insert32 key data => Function.update m key (some data)
  | .insert32Callback key cb => Function.update m key (some (cb (m key)))
  | .free key => Function.update m key none

def trbtMapRun (events : List (TrbtEvent α)) : UInt32 → Option α :=
  events.foldl trbtEventApply fun _ => none

/-- A tree as `rb_tree.c` keeps it, standing for the map `m`. -/
structure TrbtInv (t : TrbtNode α) (m : UInt32 → Option α) : Prop where
  rb : ∃ n, t.IsRb .black n
  sorted : KeysSorted t.toList
  lookup : ∀ k, t.toList.lookup k = m k

theorem TrbtInv.trbtLookup32 {t : TrbtNode α} {m : UInt32 → Option α} (h : TrbtInv t m)
    (k : UInt32) : Ctdb.trbtLookup32 t k = m k := by
  rw [trbtLookup32_eq t k h.sorted, h.lookup]

theorem trbtInsertWith_inv {t : TrbtNode α} {m : UInt32 → Option α} (h : TrbtInv t m)
    (key : UInt32) (cb : Option α → α) :
    TrbtInv (trbtInsertWith t key cb).1 (Function.update m key (some (cb (m key)))) := by
  obtain ⟨hsorted, -, hlookup⟩ := trbtInsertWith_spec t key cb h.sorted
  obtain ⟨n, hrb⟩ := h.rb
  refine ⟨trbtInsertWith_isRb key cb hrb, hsorted, fun k => ?_⟩
  rw [hlookup, Function.update_apply, h.lookup, h.lookup]

theorem trbtNodeDestructor_inv {t : TrbtNode α} {m : UInt32 → Option α} (h : TrbtInv t m)
    (key : UInt32) : TrbtInv (trbtNodeDestructor t key) (Function.update m key none) := by
  obtain ⟨hsorted, hlookup⟩ := trbtNodeDestructor_spec t key h.sorted
  obtain ⟨n, hrb⟩ := h.rb
  refine ⟨trbtNodeDestructor_isRb key hrb, hsorted, fun k => ?_⟩
  rw [hlookup, Function.update_apply, h.lookup]

theorem trbtStep_inv {t : TrbtNode α} {m : UInt32 → Option α} (h : TrbtInv t m)
    (e : TrbtEvent α) : TrbtInv (trbtStep t e) (trbtEventApply m e) := by
  cases e with
  | insert32 key data => exact trbtInsertWith_inv h key fun _ => data
  | insert32Callback key cb => exact trbtInsertWith_inv h key cb
  | free key => exact trbtNodeDestructor_inv h key

theorem trbtRun_inv (events : List (TrbtEvent α)) : TrbtInv (trbtRun events) (trbtMapRun events) := by
  -- the invariant holds of the empty tree and is carried along the fold
  have hfold : ∀ (evs : List (TrbtEvent α)) (t : TrbtNode α) (m : UInt32 → Option α),
      TrbtInv t m → TrbtInv (evs.foldl trbtStep t) (evs.foldl trbtEventApply m) := by
    intro evs
    induction evs with
    | nil => exact fun _ _ h => h
    | cons e evs ih => exact fun t m h => ih _ _ (trbtStep_inv h e)
  exact hfold events _ _ ⟨⟨0, .leaf⟩, List.Pairwise.nil, fun _ => rfl⟩

/-- Inserting the pairs `kvs` one after the other leaves, under each key, the
data of its last pair. -/
theorem foldl_insert32_apply (kvs : List (UInt32 × α)) (m : UInt32 → Option α) (k : UInt32) :
    (kvs.map fun p => TrbtEvent.insert32 p.1 p.2).foldl trbtEventApply m k =
      (kvs.reverse.lookup k).or (m k) := by
  induction kvs generalizing m with
  | nil => simp
  | cons p kvs ih =>
      obtain ⟨k', v⟩ := p
      rw [List.map_cons, List.foldl_cons, ih, List.reverse_cons, List.lookup_append,
        Option.or_assoc]
      congr 1
      by_cases hk : k = k'
      · subst hk
        simp [trbtEventApply]
      · simp [trbtEventApply, hk, List.lookup_cons, beq_false_of_ne hk]

/-- Inserting pairs whose keys are distinct into an empty tree, the tree
lists exactly the pairs. -/
theorem trbtRun_insert32_perm {kvs : List (UInt32 × α)} (hkeys : (kvs.map Prod.fst).Nodup) :
    (trbtRun (kvs.map fun p => TrbtEvent.insert32 p.1 p.2)).toList.Perm kvs := by
  have h := trbtRun_inv (kvs.map fun p => TrbtEvent.insert32 p.1 p.2)
  have hrev : (kvs.reverse.map Prod.fst).Nodup := by
    rw [List.map_reverse]
    exact List.nodup_reverse.mpr hkeys
  have hsorted := keys_nodup_of_keysSorted (fun k => UInt32.lt_irrefl k) h.sorted
  refine (List.perm_ext_iff_of_nodup (hsorted.of_map Prod.fst) (hkeys.of_map Prod.fst)).mpr ?_
  rintro ⟨k, a⟩
  rw [← lookup_eq_some_iff_mem (fun k => UInt32.lt_irrefl k) h.sorted, h.lookup, trbtMapRun,
    foldl_insert32_apply, Option.or_none, lookup_eq_some_iff_mem_of_nodup hrev, List.mem_reverse]

/-- Inserting any pairs into an empty tree, the tree holds the keys inserted. -/
theorem trbtRun_insert32_mem_keys (kvs : List (UInt32 × α)) (k : UInt32) :
    k ∈ (trbtRun (kvs.map fun p => TrbtEvent.insert32 p.1 p.2)).toList.map Prod.fst ↔
      k ∈ kvs.map Prod.fst := by
  rw [mem_keys_iff_lookup_isSome, (trbtRun_inv _).lookup, trbtMapRun, foldl_insert32_apply,
    Option.or_none, ← mem_keys_iff_lookup_isSome, List.map_reverse, List.mem_reverse]

end Ctdb

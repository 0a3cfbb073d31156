import Ctdb.Proofs.RbMap
import Ctdb.RbTree.Array
import Ctdb.Lib.NestedMap

/-!
# Trees keyed by arrays of words are a map from key arrays

A tree of `n + 1` levels stands for a map from lists of words: the value of
`k :: ks` is what the subtree under `k` holds at `ks` (`arrayLookup`), and its
entries, in order, are those of each subtree with the subtree's word in front
(`arrayEntries`). `ArrayWf` is what the array functions keep: every tree on
every level is red-black with increasing keys, and no subtree is empty, which
is what `TRBT_AUTOFREE` is for.

Every step of a run reads as an update of the map at its key. Two facts carry
all of them: when the top tree changes only under one word, the map changes
only under keys starting with it, as the subtree's map does
(`arrayLookup_update`), and the tree stays well formed when the new subtree is
(`arrayWf_update`). The insert then descends with `array_insert_callback`, and
the free climbs back through the destructors, one level at a time.

The walks need no invariant to be stated: the traversal hands the callback the
values of `arrayEntries` in order, stopping as `stopFold` does, and
`trbt_findfirstarray32` takes the first of them once no subtree is empty. The
entries are those of the map, in strictly increasing lexicographic order of
the keys, so after any run the traversal visits each live value once, in order
of its key, and the first one has the least key.
-/

namespace Ctdb

open Lib RbNode

variable {α : Type}

/-- The map a tree of `n` levels stands for. -/
def arrayLookup : (n : Nat) → ArrayTree α n → List UInt32 → Option α
  | 0, v, [] => some v
  | 0, _, _ :: _ => none
  | _ + 1, _, [] => none
  | n + 1, t, k :: ks => (t.toList.lookup k).bind fun sub => arrayLookup n sub ks

/-- The entries of a tree of `n` levels, in order. -/
def arrayEntries : (n : Nat) → ArrayTree α n → List (List UInt32 × α)
  | 0, v => [([], v)]
  | n + 1, t => nestEntries t.toList (arrayEntries n)

/-- Every tree on every level is red-black with a black root and increasing
keys, and every subtree holds a value. -/
def ArrayWf : (n : Nat) → ArrayTree α n → Prop
  | 0, _ => True
  | n + 1, t => (∃ h, t.IsRb .black h) ∧ KeysSorted t.toList ∧
      ∀ e ∈ t.toList, ArrayWf n e.2 ∧ arrayEntries n e.2 ≠ []

/-- What an event does to the map from key arrays to the values stored. -/
def arrayEventApply (n : Nat) (m : List UInt32 → Option α) : ArrayEvent α n → List UInt32 → Option α
  | .insert key cb => Function.update m key.toList (some (cb (m key.toList)))
  | .free key => Function.update m key.toList none

def arrayMapRun (n : Nat) (events : List (ArrayEvent α n)) : List UInt32 → Option α :=
  events.foldl (arrayEventApply n) fun _ => none

/-! ## The map of a tree -/

section Map

variable {n : Nat}

@[simp]
theorem arrayLookup_succ_nil (t : ArrayTree α (n + 1)) : arrayLookup (n + 1) t [] = none := rfl

@[simp]
theorem arrayLookup_succ_cons (t : ArrayTree α (n + 1)) (k : UInt32) (ks : List UInt32) :
    arrayLookup (n + 1) t (k :: ks) = (t.toList.lookup k).bind fun sub => arrayLookup n sub ks :=
  rfl

@[simp]
theorem arrayLookup_leaf (ks : List UInt32) :
    arrayLookup (n + 1) (RbNode.leaf : ArrayTree α (n + 1)) ks = none := by
  cases ks <;> rfl

theorem trbt_lookup_eq_some_iff {β : Type} {t : TrbtNode β} (hs : KeysSorted t.toList)
    {k : UInt32} {b : β} : t.toList.lookup k = some b ↔ (k, b) ∈ t.toList :=
  lookup_eq_some_iff_mem UInt32.lt_irrefl hs k b

/-- The map under the word `k` is that of the subtree there, or empty. -/
theorem arrayLookup_cons_getD (t : ArrayTree α (n + 2)) (k : UInt32) (ks : List UInt32) :
    arrayLookup (n + 2) t (k :: ks) = arrayLookup (n + 1) ((t.toList.lookup k).getD .leaf) ks := by
  rw [arrayLookup_succ_cons]
  cases t.toList.lookup k with
  | none => simp
  | some sub => rfl

theorem arrayWf_leaf : ArrayWf (n + 1) (RbNode.leaf : ArrayTree α (n + 1)) :=
  ⟨⟨0, .leaf⟩, List.Pairwise.nil, fun _ he => by simp at he⟩

/-- On the last level, updating the key `[]` gives the map of the new value. -/
theorem update_arrayLookup_zero (o v : Option α) :
    Function.update (fun ks => o.bind fun x => arrayLookup 0 x ks) [] v =
      fun ks => v.bind fun x => arrayLookup 0 x ks := by
  funext ks
  cases ks with
  | nil => cases v <;> rfl
  | cons k ks => cases o <;> cases v <;> rfl

theorem mem_arrayEntries : ∀ (n : Nat) (t : ArrayTree α n), ArrayWf n t →
    ∀ ks a, (ks, a) ∈ arrayEntries n t ↔ arrayLookup n t ks = some a
  | 0, v, _, [], a => by simp [arrayEntries, arrayLookup, eq_comm]
  | 0, v, _, _ :: _, a => by simp [arrayEntries, arrayLookup]
  | n + 1, t, _, [], a => by simp [arrayEntries, nil_not_mem_nestEntries]
  | n + 1, t, ⟨_, hs, hsub⟩, k :: ks, a => by
      rw [arrayEntries, mem_nestEntries, arrayLookup_succ_cons, Option.bind_eq_some_iff]
      constructor
      · rintro ⟨sub, hmem, hin⟩
        exact ⟨sub, (trbt_lookup_eq_some_iff hs).mpr hmem,
          (mem_arrayEntries n sub (hsub _ hmem).1 ks a).mp hin⟩
      · rintro ⟨sub, hl, hin⟩
        have hmem := (trbt_lookup_eq_some_iff hs).mp hl
        exact ⟨sub, hmem, (mem_arrayEntries n sub (hsub _ hmem).1 ks a).mpr hin⟩

theorem arrayEntries_lex : ∀ (n : Nat) (t : ArrayTree α n), ArrayWf n t →
    ((arrayEntries n t).map Prod.fst).Pairwise (List.Lex (· < ·))
  | 0, _, _ => List.pairwise_singleton _ _
  | n + 1, _, ⟨_, hs, hsub⟩ => nestEntries_lex hs fun e he => arrayEntries_lex n e.2 (hsub e he).1

/-- A well-formed tree that is not empty holds a value. -/
theorem arrayEntries_ne_nil {t : ArrayTree α (n + 1)} (hw : ArrayWf (n + 1) t)
    (ht : t ≠ .leaf) : arrayEntries (n + 1) t ≠ [] := by
  obtain ⟨c, l, k, v, r, rfl⟩ : ∃ c l k v r, t = .node c l k v r := by
    cases t with
    | leaf => exact absurd rfl ht
    | node c l k v r => exact ⟨c, l, k, v, r, rfl⟩
  have hmem : (k, v) ∈ (RbNode.node c l k v r).toList := by simp
  obtain ⟨x, hx⟩ := List.exists_mem_of_ne_nil _ (hw.2.2 _ hmem).2
  refine List.ne_nil_of_mem (a := (k :: x.1, x.2)) ?_
  exact mem_nestEntries.mpr ⟨v, hmem, hx⟩

end Map

/-! ## What the code computes -/

section Walks

variable {n : Nat}

theorem trbtLookuparray32_eq : ∀ (n : Nat) (t : ArrayTree α (n + 1)) (ks : List UInt32),
    ArrayWf (n + 1) t → ks.length = n + 1 → trbtLookuparray32 n t ks = arrayLookup (n + 1) t ks
  | _, _, [], _, hlen => by simp at hlen
  | 0, t, [k], ⟨_, hs, _⟩, _ => by
      rw [trbtLookuparray32, trbtLookup32_eq t k hs, arrayLookup_succ_cons]
      cases t.toList.lookup k <;> rfl
  | 0, _, _ :: _ :: _, _, hlen => by simp at hlen
  | n + 1, t, k :: ks, ⟨_, hs, hsub⟩, hlen => by
      rw [trbtLookuparray32, trbtLookup32_eq t k hs, arrayLookup_succ_cons]
      cases hl : t.toList.lookup k with
      | none => rfl
      | some sub =>
          have hw := (hsub _ ((trbt_lookup_eq_some_iff hs).mp hl)).1
          exact trbtLookuparray32_eq n sub ks hw (by simpa using hlen)

theorem trbtTraversearray32Node_eq {β σ : Type} (visit : σ → β → Int × σ) :
    ∀ (t : TrbtNode β) (s : σ), trbtTraversearray32Node visit t s = stopFold visit (t.toList.map Prod.snd) s
  | .leaf, _ => rfl
  | .node c l k v r, s => by
      rw [trbtTraversearray32Node, trbtTraversearray32Node_eq visit l, toList_node, List.map_append,
        stopFold_append]
      rcases stopFold visit (l.toList.map Prod.snd) s with ⟨ret, s'⟩
      simp only [List.map_cons, stopFold, trbtTraversearray32Node_eq visit r]

/-- The traversal is a walk over the values of the entries, in order. -/
theorem trbtTraversearray32_eq {σ : Type} (cb : σ → α → Int × σ) : ∀ (n : Nat) (t : ArrayTree α (n + 1))
    (s : σ), trbtTraversearray32 cb n t s = stopFold cb ((arrayEntries (n + 1) t).map Prod.snd) s
  | 0, t, s => by
      rw [trbtTraversearray32, trbtTraversearray32Node_eq, arrayEntries, map_snd_nestEntries,
        stopFold_flatMap, stopFold_map]
      simp [arrayEntries]
  | n + 1, t, s => by
      rw [trbtTraversearray32, trbtTraversearray32Node_eq, arrayEntries, map_snd_nestEntries,
        stopFold_flatMap, stopFold_map]
      simp only [trbtTraversearray32_eq cb n]

theorem trbtLeftmost_eq {β : Type} : ∀ t : TrbtNode β, trbtLeftmost t = t.toList.head?.map Prod.snd
  | .leaf => rfl
  | .node _ .leaf _ _ _ => by simp [trbtLeftmost]
  | .node _ (.node c l k v r) _ _ _ => by
      rw [trbtLeftmost, trbtLeftmost_eq (.node c l k v r)]
      simp

/-- `trbt_findfirstarray32` takes the first entry, as no subtree is empty. -/
theorem trbtFindfirstarray32_eq : ∀ (n : Nat) (t : ArrayTree α (n + 1)), ArrayWf (n + 1) t →
    trbtFindfirstarray32 n t = (arrayEntries (n + 1) t).head?.map Prod.snd
  | 0, t, _ => by
      rw [trbtFindfirstarray32, trbtLeftmost_eq, arrayEntries]
      rcases t.toList with _ | ⟨⟨k, v⟩, l⟩
      · rfl
      · rw [map_snd_head_nestEntries_cons l (by simp [arrayEntries])]
        rfl
  | n + 1, t, ⟨_, _, hsub⟩ => by
      rw [trbtFindfirstarray32, trbtLeftmost_eq, arrayEntries]
      rcases hl : t.toList with _ | ⟨⟨k, sub⟩, l⟩
      · rfl
      · have hw := hsub (k, sub) (by simp [hl])
        rw [map_snd_head_nestEntries_cons l hw.2, ← trbtFindfirstarray32_eq n sub hw.1]
        rfl

/-- The walk to a key ends at the node `trbt_lookup32` finds, or off the tree
where it finds nothing. -/
theorem trbtFind_fst_lookup {β : Type} (key : UInt32) : ∀ (t : TrbtNode β) (p : TrbtPath β),
    ((trbtFind key t p).1 = .leaf → trbtLookup32 t key = none) ∧
      ∀ c l k v r, (trbtFind key t p).1 = .node c l k v r → trbtLookup32 t key = some v
  | .leaf, _ => ⟨fun _ => rfl, fun _ _ _ _ _ h => by cases h⟩
  | .node c l k v r, p => by
      by_cases hk : key = k
      · simp only [trbtFind, trbtLookup32, if_pos hk]
        exact ⟨fun h => (by cases h), fun _ _ _ _ _ h => (by cases h; rfl)⟩
      · by_cases hlt : key < k
        · simp only [trbtFind, trbtLookup32, if_neg hk, if_pos hlt]
          exact trbtFind_fst_lookup key l _
        · simp only [trbtFind, trbtLookup32, if_neg hk, if_neg hlt]
          exact trbtFind_fst_lookup key r _

/-- The callback of an insert is handed what `trbt_lookup32` finds. -/
theorem trbtInsertWith_handed {β : Type} (t : TrbtNode β) (key : UInt32) (cb : Option β → β) :
    trbtInsertWith t key cb = trbtInsertWith t key fun _ => cb (trbtLookup32 t key) := by
  cases t with
  | leaf => rfl
  | node c l k v r =>
      have hfind := trbtFind_fst_lookup key (.node c l k v r) []
      unfold trbtInsertWith
      rcases h : trbtFind key (.node c l k v r) [] with ⟨_ | ⟨c', l', k', v', r'⟩, p⟩
      · rw [h] at hfind
        simp only [h, hfind.1 rfl]
      · rw [h] at hfind
        simp only [h, hfind.2 c' l' k' v' r' rfl]

theorem trbtLookuparray32_leaf : ∀ (n : Nat) (ks : List UInt32),
    trbtLookuparray32 n (RbNode.leaf : ArrayTree α (n + 1)) ks = none
  | 0, [] => rfl
  | _ + 1, [] => rfl
  | 0, _ :: _ => rfl
  | _ + 1, _ :: _ => rfl

/-- Below a tree or none, what the lookup finds. -/
theorem trbtLookuparray32_getD (n : Nat) (o : Option (ArrayTree α (n + 1))) (ks : List UInt32) :
    trbtLookuparray32 n (o.getD .leaf) ks = o.bind fun sub => trbtLookuparray32 n sub ks := by
  cases o with
  | none => exact trbtLookuparray32_leaf n ks
  | some sub => rfl

/-- The user's callback is handed what `trbt_lookuparray32` finds under the
key, on every level the same walk. -/
theorem trbtInsertarray32Callback_handed (cb : Option α → α) : ∀ (n : Nat) (t : ArrayTree α (n + 1))
    (ks : List UInt32), trbtInsertarray32Callback cb n t ks =
      trbtInsertarray32Callback (fun _ => cb (trbtLookuparray32 n t ks)) n t ks
  | 0, _, [] => rfl
  | _ + 1, _, [] => rfl
  | 0, t, k :: _ => by
      simp only [trbtInsertarray32Callback, trbtLookuparray32, trbtInsert32Callback]
      rw [trbtInsertWith_handed]
  | n + 1, t, k :: ks => by
      simp only [trbtInsertarray32Callback, trbtLookuparray32, trbtInsert32Callback]
      -- both inserts hand `array_insert_callback` the subtree under `k`
      conv_lhs => rw [trbtInsertWith_handed]
      conv_rhs => rw [trbtInsertWith_handed]
      rw [trbtInsertarray32Callback_handed cb n, trbtLookuparray32_getD]

end Walks

/-! ## The steps of a run -/

section Steps

variable {n : Nat}

/-- When the top tree changes only under the word `k`, to `o`, and the map of
`o` is the old map under `k` updated at `ks`, the whole map is updated at
`k :: ks`. -/
theorem arrayLookup_update {t t' : ArrayTree α (n + 1)} {k : UInt32} {o : Option (ArrayTree α n)}
    {ks : List UInt32} {v : Option α}
    (htop : ∀ k', t'.toList.lookup k' = if k' = k then o else t.toList.lookup k')
    (hsub : ∀ ks', (o.bind fun sub => arrayLookup n sub ks') =
      Function.update (fun ks => arrayLookup (n + 1) t (k :: ks)) ks v ks') :
    ∀ ks', arrayLookup (n + 1) t' ks' = Function.update (arrayLookup (n + 1) t) (k :: ks) v ks'
  | [] => by simp
  | k' :: ks' => by
      rw [arrayLookup_succ_cons, htop]
      by_cases hk : k' = k
      · subst hk
        rw [if_pos rfl, hsub ks', Function.update_apply, Function.update_apply]
        simp
      · rw [if_neg hk, Function.update_apply, if_neg (by simp [hk]), arrayLookup_succ_cons]

/-- The top tree stays well formed when the subtree it now holds under `k` is. -/
theorem arrayWf_update {t t' : ArrayTree α (n + 1)} {k : UInt32} {o : Option (ArrayTree α n)}
    (ht : ArrayWf (n + 1) t) (hrb : ∃ h, t'.IsRb .black h) (hs : KeysSorted t'.toList)
    (htop : ∀ k', t'.toList.lookup k' = if k' = k then o else t.toList.lookup k')
    (ho : ∀ sub ∈ o, ArrayWf n sub ∧ arrayEntries n sub ≠ []) : ArrayWf (n + 1) t' := by
  refine ⟨hrb, hs, fun e he => ?_⟩
  have hl := (trbt_lookup_eq_some_iff hs).mpr he
  rw [htop] at hl
  split_ifs at hl with hk
  · exact ho _ hl
  · exact ht.2.2 _ ((trbt_lookup_eq_some_iff ht.2.1).mp hl)

/-- `trbt_update32` of a key that is there is an insert with a constant callback. -/
theorem trbtUpdate32_eq {β : Type} (t : TrbtNode β) (key : UInt32) (data : β)
    (hs : KeysSorted t.toList) (hk : t.toList.lookup key ≠ none) :
    trbtUpdate32 t key data = (trbtInsertWith t key fun _ => data).1 := by
  cases t with
  | leaf => exact absurd rfl hk
  | node c l k v r =>
      rcases trbtFind_sorted key hs with
        ⟨c', l', v', r', q, hfind, -⟩ | ⟨q, hfind, -⟩
      · simp [trbtUpdate32, trbtInsertWith, hfind]
      · -- the walk missing the key means that it is not there
        have hold := (trbtInsertWith_spec (.node c l k v r) key (fun _ => data) hs).2.1
        simp [trbtInsertWith, hfind] at hold
        exact absurd hold.symm hk

theorem trbtInsertarray32Callback_spec (cb : Option α → α) : ∀ (n : Nat) (t : ArrayTree α (n + 1))
    (ks : List UInt32), ArrayWf (n + 1) t → ks.length = n + 1 →
    ArrayWf (n + 1) (trbtInsertarray32Callback cb n t ks) ∧
      ∀ ks', arrayLookup (n + 1) (trbtInsertarray32Callback cb n t ks) ks' =
        Function.update (arrayLookup (n + 1) t) ks (some (cb (arrayLookup (n + 1) t ks))) ks'
  | _, _, [], _, hlen => by simp at hlen
  | 0, _, _ :: _ :: _, _, hlen => by simp at hlen
  | 0, t, [k], ht, _ => by
      obtain ⟨h, hrb⟩ := ht.1
      obtain ⟨hs', -, htop⟩ := trbtInsertWith_spec t k cb ht.2.1
      have hold : arrayLookup 1 t [k] = t.toList.lookup k := by
        rw [arrayLookup_succ_cons]
        cases t.toList.lookup k <;> rfl
      rw [trbtInsertarray32Callback, trbtInsert32Callback]
      refine ⟨arrayWf_update ht (trbtInsertWith_isRb k cb hrb) hs' htop
        fun _ _ => ⟨trivial, by simp [arrayEntries]⟩, arrayLookup_update htop fun ks' => ?_⟩
      rw [hold]
      exact congrFun (update_arrayLookup_zero (t.toList.lookup k) _).symm ks'
  | n + 1, t, k :: ks, ht, hlen => by
      obtain ⟨h, hrb⟩ := ht.1
      have hs := ht.2.1
      -- `array_insert_callback`: the subtree under `k`, or a new empty one
      have hw : ArrayWf (n + 1) ((t.toList.lookup k).getD .leaf) := by
        cases hl : t.toList.lookup k with
        | none => exact arrayWf_leaf
        | some sub => exact (ht.2.2 _ ((trbt_lookup_eq_some_iff hs).mp hl)).1
      obtain ⟨hw', hl'⟩ := trbtInsertarray32Callback_spec cb n _ ks hw (by simpa using hlen)
      obtain ⟨hs', -, htop⟩ := trbtInsertWith_spec t k
        (fun data => trbtInsertarray32Callback cb n (data.getD .leaf) ks) hs
      have hnew : arrayEntries (n + 1)
          (trbtInsertarray32Callback cb n ((t.toList.lookup k).getD .leaf) ks) ≠ [] := by
        refine List.ne_nil_of_mem
          ((mem_arrayEntries _ _ hw' ks (cb (arrayLookup (n + 1) ((t.toList.lookup k).getD .leaf) ks))).mpr ?_)
        rw [hl', Function.update_self]
      have hmap : (fun ks => arrayLookup (n + 2) t (k :: ks)) =
          arrayLookup (n + 1) ((t.toList.lookup k).getD .leaf) :=
        funext fun ks => arrayLookup_cons_getD t k ks
      rw [trbtInsertarray32Callback, trbtInsert32Callback]
      refine ⟨arrayWf_update ht (trbtInsertWith_isRb k _ hrb) hs' htop ?_,
        arrayLookup_update htop fun ks' => ?_⟩
      · rintro _ ⟨⟩
        exact ⟨hw', hnew⟩
      · rw [hmap, Option.bind_some, hl', arrayLookup_cons_getD]

theorem trbtFreearray32_spec : ∀ (n : Nat) (t : ArrayTree α (n + 1)) (ks : List UInt32),
    ArrayWf (n + 1) t → ks.length = n + 1 →
    ArrayWf (n + 1) (trbtFreearray32 n t ks) ∧
      ∀ ks', arrayLookup (n + 1) (trbtFreearray32 n t ks) ks' =
        Function.update (arrayLookup (n + 1) t) ks none ks'
  | _, _, [], _, hlen => by simp at hlen
  | 0, _, _ :: _ :: _, _, hlen => by simp at hlen
  | 0, t, [k], ht, _ => by
      obtain ⟨h, hrb⟩ := ht.1
      obtain ⟨hs', htop⟩ := trbtNodeDestructor_spec t k ht.2.1
      rw [trbtFreearray32]
      refine ⟨arrayWf_update ht (trbtNodeDestructor_isRb k hrb) hs' htop (fun _ h => by cases h),
        arrayLookup_update htop fun ks' => ?_⟩
      exact congrFun (update_arrayLookup_zero (t.toList.lookup k) none).symm ks'
  | n + 1, t, k :: ks, ht, hlen => by
      obtain ⟨h, hrb⟩ := ht.1
      have hs := ht.2.1
      rw [trbtFreearray32, trbtLookup32_eq t k hs]
      cases hl : t.toList.lookup k with
      | none =>
          -- no subtree under `k`: nothing is stored under `k :: ks`
          refine ⟨ht, fun ks' => ?_⟩
          have hnone : arrayLookup (n + 2) t (k :: ks) = none := by simp [hl]
          rw [← hnone, Function.update_eq_self]
      | some sub =>
          dsimp only
          obtain ⟨hw, hne⟩ := ht.2.2 _ ((trbt_lookup_eq_some_iff hs).mp hl)
          obtain ⟨hw', hl'⟩ := trbtFreearray32_spec n sub ks hw (by simpa using hlen)
          have hmap : (fun ks => arrayLookup (n + 2) t (k :: ks)) = arrayLookup (n + 1) sub := by
            funext ks
            simp [hl]
          cases sub with
          | leaf => exact absurd rfl hne
          | node c₀ l₀ k₀ v₀ r₀ =>
              generalize trbtFreearray32 n (.node c₀ l₀ k₀ v₀ r₀) ks = res at hw' hl' ⊢
              cases res with
              | leaf =>
                  -- the subtree's last node went, and with it the node holding it
                  dsimp only
                  obtain ⟨hs', htop⟩ := trbtNodeDestructor_spec t k hs
                  refine ⟨arrayWf_update ht (trbtNodeDestructor_isRb k hrb) hs' htop
                    (fun _ h => by cases h), arrayLookup_update htop fun ks' => ?_⟩
                  rw [hmap, ← hl', arrayLookup_leaf]
                  rfl
              | node c l k' v r =>
                  dsimp only
                  rw [trbtUpdate32_eq t k _ hs (by simp [hl])]
                  obtain ⟨hs', -, htop⟩ := trbtInsertWith_spec t k (fun _ => .node c l k' v r) hs
                  refine ⟨arrayWf_update ht (trbtInsertWith_isRb k _ hrb) hs' htop ?_,
                    arrayLookup_update htop fun ks' => ?_⟩
                  · rintro _ ⟨⟩
                    exact ⟨hw', arrayEntries_ne_nil hw' (by simp)⟩
                  · rw [hmap, Option.bind_some, hl']

end Steps

/-! ## Runs -/

/-- A tree as the array functions keep it, standing for the map `m`. -/
structure ArrayInv (n : Nat) (t : ArrayTree α (n + 1)) (m : List UInt32 → Option α) : Prop where
  wf : ArrayWf (n + 1) t
  lookup : ∀ ks, arrayLookup (n + 1) t ks = m ks

namespace ArrayInv

variable {n : Nat} {t : ArrayTree α (n + 1)} {m : List UInt32 → Option α}

theorem step (hi : ArrayInv n t m) (e : ArrayEvent α n) :
    ArrayInv n (arrayStep n t e) (arrayEventApply n m e) := by
  have hm : arrayLookup (n + 1) t = m := funext hi.lookup
  cases e with
  | insert key cb =>
      obtain ⟨hw, hl⟩ := trbtInsertarray32Callback_spec cb n t key.toList hi.wf key.toList_length
      rw [hm] at hl
      exact ⟨hw, hl⟩
  | free key =>
      obtain ⟨hw, hl⟩ := trbtFreearray32_spec n t key.toList hi.wf key.toList_length
      rw [hm] at hl
      exact ⟨hw, hl⟩

theorem run : ∀ (events : List (ArrayEvent α n)) {t : ArrayTree α (n + 1)}
    {m : List UInt32 → Option α}, ArrayInv n t m →
    ArrayInv n (events.foldl (arrayStep n) t) (events.foldl (arrayEventApply n) m)
  | [], _, _, hi => hi
  | e :: events, _, _, hi => run events (hi.step e)

end ArrayInv

/-- After any run of `trbt_insertarray32_callback` and frees of stored values
on keys of `n + 1` words, from the tree `trbt_create` makes: every tree
reachable is red-black with increasing keys and no subtree is empty;
`trbt_lookuparray32` answers the map the run should leave; there is a list of
that map's entries in strictly increasing lexicographic order of the keys
over whose values `trbt_traversearray32` walks, stopping at the first non-zero
answer, and whose first value `trbt_findfirstarray32` returns; that value has
the least key, and there is none only when the map is empty. -/
theorem arrayRun_finiteMap (n : Nat) (events : List (ArrayEvent α n)) :
    ArrayWf (n + 1) (arrayRun n events) ∧
      (∀ key : List.Vector UInt32 (n + 1),
        trbtLookuparray32 n (arrayRun n events) key.toList = arrayMapRun n events key.toList) ∧
      (∃ live : List (List UInt32 × α),
        (∀ ks a, (ks, a) ∈ live ↔ arrayMapRun n events ks = some a) ∧
        (live.map Prod.fst).Pairwise (List.Lex (· < ·)) ∧
        (∀ (σ : Type) (cb : σ → α → Int × σ) (s : σ),
          trbtTraversearray32 cb n (arrayRun n events) s = stopFold cb (live.map Prod.snd) s) ∧
        trbtFindfirstarray32 n (arrayRun n events) = live.head?.map Prod.snd) ∧
      (∀ a, trbtFindfirstarray32 n (arrayRun n events) = some a →
        ∃ ks, arrayMapRun n events ks = some a ∧
          ∀ ks' b, arrayMapRun n events ks' = some b → ks' = ks ∨ List.Lex (· < ·) ks ks') ∧
      (trbtFindfirstarray32 n (arrayRun n events) = none → ∀ ks, arrayMapRun n events ks = none) := by
  have hi : ArrayInv n (arrayRun n events) (arrayMapRun n events) :=
    ArrayInv.run events ⟨arrayWf_leaf, fun _ => by simp⟩
  set t := arrayRun n events
  set m := arrayMapRun n events
  have hmem : ∀ ks a, (ks, a) ∈ arrayEntries (n + 1) t ↔ m ks = some a := fun ks a => by
    rw [mem_arrayEntries _ _ hi.wf, hi.lookup]
  have hlex := arrayEntries_lex _ _ hi.wf
  have hfirst := trbtFindfirstarray32_eq n t hi.wf
  refine ⟨hi.wf, fun key => ?_, ⟨arrayEntries (n + 1) t, hmem, hlex,
    fun σ cb s => trbtTraversearray32_eq cb n t s, hfirst⟩, fun a ha => ?_, fun hnone ks => ?_⟩
  · rw [trbtLookuparray32_eq n t key.toList hi.wf key.toList_length, hi.lookup]
  · -- the first entry has the least key
    rw [hfirst] at ha
    obtain ⟨⟨ks, a'⟩, hh, rfl⟩ := Option.map_eq_some_iff.mp ha
    refine ⟨ks, (hmem ks _).mp (List.mem_of_mem_head? hh), fun ks' b hb => ?_⟩
    exact least_of_head_eq hlex hh (ks', b) ((hmem ks' b).mpr hb)
  · -- no first entry: no entry at all
    rw [hfirst, Option.map_eq_none_iff, List.head?_eq_none_iff] at hnone
    cases hks : m ks with
    | none => rfl
    | some a => simp [← hmem, hnone] at hks

/-! ## Keys of many lengths

The daemon builds every key with its length as its first word, so under one
top word all keys have one length, and a top tree where each word is the
length of the keys under it (`KeyWf`) never meets data of the wrong depth.
Each operation on such a key then does not fail and updates the map at the
key, and each is the top-level step around the fixed-depth operation below it.
-/

namespace KeyTree

/-- A key whose first word is its length. -/
def LengthKeyed : List UInt32 → Prop
  | [] => False
  | k :: ks => k.toNat = ks.length + 1

/-- The top tree is red-black with increasing words, and under each word `k`
is a well-formed subtree of `k - 1` levels that holds a value. -/
def KeyWf (t : KeyTree α) : Prop :=
  (∃ h, t.IsRb .black h) ∧ KeysSorted t.toList ∧
    ∀ e ∈ t.toList, e.1.toNat = e.2.1 + 1 ∧ ArrayWf e.2.1 e.2.2 ∧ arrayEntries e.2.1 e.2.2 ≠ []

/-- The map a top tree stands for. -/
def keyLookup (t : KeyTree α) : List UInt32 → Option α
  | [] => none
  | k :: ks => (t.toList.lookup k).bind fun e => arrayLookup e.1 e.2 ks

theorem keyWf_leaf : KeyWf (RbNode.leaf : KeyTree α) :=
  ⟨⟨0, .leaf⟩, List.Pairwise.nil, fun _ he => by simp at he⟩

@[simp]
theorem keyLookup_leaf (ks : List UInt32) : keyLookup (RbNode.leaf : KeyTree α) ks = none := by
  cases ks <;> rfl

/-- Under a word that is the length of its keys, the data has the depth they
ask for. -/
theorem subtree_eq {t : KeyTree α} (ht : KeyWf t) {k : UInt32} {n : Nat} (hk : k.toNat = n + 1) :
    ∃ o, subtree t k n = some o ∧ t.toList.lookup k = o.map (Sigma.mk n) := by
  unfold subtree
  rw [trbtLookup32_eq t k ht.2.1]
  cases hl : t.toList.lookup k with
  | none => exact ⟨none, rfl, rfl⟩
  | some e =>
      obtain ⟨m, sub⟩ := e
      have hm : m = n := by
        have hdepth := (ht.2.2 _ ((trbt_lookup_eq_some_iff ht.2.1).mp hl)).1
        dsimp only at hdepth
        omega
      subst hm
      exact ⟨some sub, by simp, rfl⟩

theorem keyLookup_cons_of_lookup {t : KeyTree α} {k : UInt32} {n : Nat} {o : Option (ArrayTree α n)}
    (hl : t.toList.lookup k = o.map (Sigma.mk n)) (ks : List UInt32) :
    keyLookup t (k :: ks) = o.bind fun sub => arrayLookup n sub ks := by
  rw [keyLookup, hl]
  cases o <;> rfl

/-- When the top tree changes only under the word `k`, to `o`, and the map of
`o` is the old map under `k` updated at `ks`, the whole map is updated at
`k :: ks`. -/
theorem keyLookup_update {t t' : KeyTree α} {k : UInt32} {o : Option (Σ n, ArrayTree α n)}
    {ks : List UInt32} {v : Option α}
    (htop : ∀ k', t'.toList.lookup k' = if k' = k then o else t.toList.lookup k')
    (hsub : ∀ ks', (o.bind fun e => arrayLookup e.1 e.2 ks') =
      Function.update (fun ks => keyLookup t (k :: ks)) ks v ks') :
    ∀ ks', keyLookup t' ks' = Function.update (keyLookup t) (k :: ks) v ks'
  | [] => by simp [keyLookup]
  | k' :: ks' => by
      rw [keyLookup, htop]
      by_cases hk : k' = k
      · subst hk
        rw [if_pos rfl, hsub ks', Function.update_apply, Function.update_apply]
        simp
      · rw [if_neg hk, Function.update_apply, if_neg (by simp [hk]), keyLookup]

/-- The top tree stays well formed when the data it now holds under `k` is. -/
theorem keyWf_update {t t' : KeyTree α} {k : UInt32} {o : Option (Σ n, ArrayTree α n)}
    (ht : KeyWf t) (hrb : ∃ h, t'.IsRb .black h) (hs : KeysSorted t'.toList)
    (htop : ∀ k', t'.toList.lookup k' = if k' = k then o else t.toList.lookup k')
    (ho : ∀ e ∈ o, k.toNat = e.1 + 1 ∧ ArrayWf e.1 e.2 ∧ arrayEntries e.1 e.2 ≠ []) : KeyWf t' := by
  refine ⟨hrb, hs, fun e he => ?_⟩
  have hl := (trbt_lookup_eq_some_iff hs).mpr he
  rw [htop] at hl
  split_ifs at hl with hk
  · rw [hk]
    exact ho _ hl
  · exact ht.2.2 _ ((trbt_lookup_eq_some_iff ht.2.1).mp hl)

theorem bind_arrayLookup_getD {n : Nat} (o : Option (ArrayTree α (n + 1))) (ks : List UInt32) :
    (o.bind fun sub => arrayLookup (n + 1) sub ks) = arrayLookup (n + 1) (o.getD .leaf) ks := by
  cases o <;> simp

theorem arrayInsertCallback_spec (cb : Option α → α) : ∀ (n : Nat) (o : Option (ArrayTree α n))
    (ks : List UInt32), (∀ sub ∈ o, ArrayWf n sub) → ks.length = n →
    ArrayWf n (arrayInsertCallback cb n o ks) ∧ arrayEntries n (arrayInsertCallback cb n o ks) ≠ [] ∧
      ∀ ks', arrayLookup n (arrayInsertCallback cb n o ks) ks' =
        Function.update (fun ks => o.bind fun sub => arrayLookup n sub ks) ks
          (some (cb (o.bind fun sub => arrayLookup n sub ks))) ks'
  | 0, o, [], _, _ => by
      have ho : (o.bind fun sub => arrayLookup 0 sub []) = o := by cases o <;> rfl
      refine ⟨trivial, by simp [arrayEntries], fun ks' => ?_⟩
      rw [ho, update_arrayLookup_zero]
      rfl
  | n + 1, o, ks, ho, hlen => by
      have hw : ArrayWf (n + 1) (o.getD .leaf) := by
        cases o with
        | none => exact arrayWf_leaf
        | some sub => exact ho sub rfl
      obtain ⟨hw', hl'⟩ := Ctdb.trbtInsertarray32Callback_spec cb n (o.getD .leaf) ks hw hlen
      have hmap : (fun ks => o.bind fun sub => arrayLookup (n + 1) sub ks) =
          arrayLookup (n + 1) (o.getD .leaf) := funext (bind_arrayLookup_getD o)
      refine ⟨hw', List.ne_nil_of_mem ((mem_arrayEntries _ _ hw' ks
        (cb (arrayLookup (n + 1) (o.getD .leaf) ks))).mpr ?_), fun ks' => ?_⟩
      · rw [hl', Function.update_self]
      · rw [arrayInsertCallback, hl', hmap, bind_arrayLookup_getD]

theorem arrayWf_of_lookup {t : KeyTree α} (ht : KeyWf t) {k : UInt32} {n : Nat}
    {o : Option (ArrayTree α n)} (hl : t.toList.lookup k = o.map (Sigma.mk n)) :
    ∀ sub ∈ o, ArrayWf n sub ∧ arrayEntries n sub ≠ [] := by
  rintro sub rfl
  exact (ht.2.2 _ ((trbt_lookup_eq_some_iff ht.2.1).mp hl)).2

/-- `trbt_insertarray32_callback` of a key whose first word is its length
does not fail, keeps the tree well formed, and updates the map at the key with
what the callback makes of the old value. -/
theorem trbtInsertarray32Callback_spec (cb : Option α → α) {t : KeyTree α} (ht : KeyWf t)
    {ks : List UInt32} (hks : LengthKeyed ks) :
    ∃ t', trbtInsertarray32Callback cb t ks = some t' ∧ KeyWf t' ∧
      ∀ ks', keyLookup t' ks' = Function.update (keyLookup t) ks (some (cb (keyLookup t ks))) ks' := by
  obtain ⟨k, ks, rfl⟩ : ∃ k ks', ks = k :: ks' := by
    cases ks with
    | nil => exact hks.elim
    | cons k ks => exact ⟨k, ks, rfl⟩
  obtain ⟨o, hsub, hl⟩ := subtree_eq ht hks
  obtain ⟨hw, hne, hmap⟩ := arrayInsertCallback_spec cb ks.length o ks
    (fun sub h => (arrayWf_of_lookup ht hl sub h).1) rfl
  obtain ⟨h, hrb⟩ := ht.1
  obtain ⟨hs', -, htop⟩ := trbtInsertWith_spec t k
    (fun _ => (⟨ks.length, arrayInsertCallback cb ks.length o ks⟩ : Σ n, ArrayTree α n)) ht.2.1
  have hold : (fun ks' => keyLookup t (k :: ks')) = fun ks' => o.bind fun sub => arrayLookup ks.length sub ks' :=
    funext (keyLookup_cons_of_lookup hl)
  refine ⟨_, by rw [trbtInsertarray32Callback, hsub]; rfl,
    keyWf_update ht (trbtInsertWith_isRb k _ hrb) hs' htop ?_, keyLookup_update htop fun ks' => ?_⟩
  · rintro _ ⟨⟩
    exact ⟨hks, hw, hne⟩
  · rw [Option.bind_some, hmap, hold, keyLookup_cons_of_lookup hl]

theorem lookupBelow_eq : ∀ (n : Nat) (o : Option (ArrayTree α n)) (ks : List UInt32),
    (∀ sub ∈ o, ArrayWf n sub) → ks.length = n →
    lookupBelow n o ks = o.bind fun sub => arrayLookup n sub ks
  | 0, o, [], _, _ => by cases o <;> rfl
  | n + 1, o, ks, ho, hlen => by
      rw [lookupBelow]
      cases o with
      | none => rfl
      | some sub => exact Ctdb.trbtLookuparray32_eq n sub ks (ho sub rfl) hlen

/-- `trbt_lookuparray32` of a key whose first word is its length does not fail
and answers the map. -/
theorem trbtLookuparray32_eq {t : KeyTree α} (ht : KeyWf t) {ks : List UInt32} (hks : LengthKeyed ks) :
    trbtLookuparray32 t ks = some (keyLookup t ks) := by
  obtain ⟨k, ks, rfl⟩ : ∃ k ks', ks = k :: ks' := by
    cases ks with
    | nil => exact hks.elim
    | cons k ks => exact ⟨k, ks, rfl⟩
  obtain ⟨o, hsub, hl⟩ := subtree_eq ht hks
  rw [trbtLookuparray32, hsub, Option.map_some, keyLookup_cons_of_lookup hl,
    lookupBelow_eq _ o ks (fun sub h => (arrayWf_of_lookup ht hl sub h).1) rfl]

theorem arrayInsertCallback_handed (cb : Option α → α) : ∀ (n : Nat) (o : Option (ArrayTree α n))
    (ks : List UInt32), arrayInsertCallback cb n o ks = arrayInsertCallback (fun _ => cb (lookupBelow n o ks)) n o ks
  | 0, _, _ => rfl
  | n + 1, o, ks => by
      simp only [arrayInsertCallback, lookupBelow]
      rw [Ctdb.trbtInsertarray32Callback_handed cb n, trbtLookuparray32_getD]

/-- The user's callback is handed what `trbt_lookuparray32` finds under the key,
whatever the tree. -/
theorem trbtInsertarray32Callback_handed (cb : Option α → α) (t : KeyTree α) (ks : List UInt32) :
    trbtInsertarray32Callback cb t ks =
      (trbtLookuparray32 t ks).bind fun data => trbtInsertarray32Callback (fun _ => cb data) t ks := by
  cases ks with
  | nil => rfl
  | cons k ks =>
      simp only [trbtInsertarray32Callback, trbtLookuparray32]
      cases subtree t k ks.length with
      | none => rfl
      | some data =>
          simp only [Option.map_some, Option.bind_some]
          rw [arrayInsertCallback_handed]

/-- On a key whose first word is its length, an insert whose callback frees the
value it replaces fails, and any other one is the plain insert. -/
theorem trbtInsertarray32CallbackFreeing_eq (cb : Option α → α × Bool) {t : KeyTree α} (ht : KeyWf t)
    {ks : List UInt32} (hks : LengthKeyed ks) :
    trbtInsertarray32CallbackFreeing cb t ks =
      if (cb (keyLookup t ks)).2 then none else trbtInsertarray32Callback (fun data => (cb data).1) t ks := by
  rw [trbtInsertarray32CallbackFreeing, trbtLookuparray32_eq ht hks]
  rfl

theorem freeBelow_spec {t : KeyTree α} (ht : KeyWf t) {k : UInt32} : ∀ (n : Nat) (o : Option (ArrayTree α n))
    (ks : List UInt32), k.toNat = n + 1 → ks.length = n → t.toList.lookup k = o.map (Sigma.mk n) →
    KeyWf (freeBelow t k n o ks) ∧
      ∀ ks', keyLookup (freeBelow t k n o ks) ks' = Function.update (keyLookup t) (k :: ks) none ks'
  | _, none, ks, _, _, hl => by
      -- nothing is stored under `k`
      have hnone : keyLookup t (k :: ks) = none := by
        rw [keyLookup_cons_of_lookup hl]
        rfl
      refine ⟨ht, fun ks' => ?_⟩
      rw [freeBelow, ← hnone, Function.update_eq_self]
  | 0, some v, ks, _, hlen, hl => by
      -- a one-word key: the value's node goes
      obtain ⟨h, hrb⟩ := ht.1
      obtain ⟨hs', htop⟩ := trbtNodeDestructor_spec t k ht.2.1
      rw [freeBelow, List.length_eq_zero_iff.mp hlen]
      refine ⟨keyWf_update ht (trbtNodeDestructor_isRb k hrb) hs' htop (fun _ h => by cases h),
        keyLookup_update htop fun ks' => ?_⟩
      cases ks' with
      | nil => rfl
      | cons k' ks' =>
          rw [Function.update_of_ne (by simp), keyLookup_cons_of_lookup hl]
          rfl
  | n + 1, some sub, ks, hk, hlen, hl => by
      obtain ⟨h, hrb⟩ := ht.1
      have hs := ht.2.1
      obtain ⟨hw, hne⟩ := arrayWf_of_lookup ht hl sub rfl
      obtain ⟨hw', hl'⟩ := Ctdb.trbtFreearray32_spec n sub ks hw hlen
      have hmap : (fun ks => keyLookup t (k :: ks)) = arrayLookup (n + 1) sub :=
        funext fun ks => by rw [keyLookup_cons_of_lookup hl]; rfl
      cases sub with
      | leaf => exact absurd rfl hne
      | node c₀ l₀ k₀ v₀ r₀ =>
          cases hres : Ctdb.trbtFreearray32 n (.node c₀ l₀ k₀ v₀ r₀) ks with
          | leaf =>
              -- the subtree's last node went, and with it the node holding it
              simp only [freeBelow, hres]
              obtain ⟨hs', htop⟩ := trbtNodeDestructor_spec t k hs
              refine ⟨keyWf_update ht (trbtNodeDestructor_isRb k hrb) hs' htop (fun _ h => by cases h),
                keyLookup_update htop fun ks' => ?_⟩
              rw [hmap, ← hl', hres, arrayLookup_leaf]
              rfl
          | node c l k' v r =>
              simp only [freeBelow, hres]
              rw [hres] at hw' hl'
              rw [trbtUpdate32_eq t k _ hs (by simp [hl])]
              obtain ⟨hs', -, htop⟩ := trbtInsertWith_spec t k
                (fun _ => (⟨n + 1, .node c l k' v r⟩ : Σ n, ArrayTree α n)) hs
              refine ⟨keyWf_update ht (trbtInsertWith_isRb k _ hrb) hs' htop ?_,
                keyLookup_update htop fun ks' => ?_⟩
              · rintro _ ⟨⟩
                exact ⟨hk, hw', arrayEntries_ne_nil hw' (by simp)⟩
              · rw [hmap, Option.bind_some, hl']

/-- `talloc_free` of the value under a key whose first word is its length does
not fail, keeps the tree well formed, and removes the key from the map. -/
theorem trbtFreearray32_spec {t : KeyTree α} (ht : KeyWf t) {ks : List UInt32} (hks : LengthKeyed ks) :
    ∃ t', trbtFreearray32 t ks = some t' ∧ KeyWf t' ∧
      ∀ ks', keyLookup t' ks' = Function.update (keyLookup t) ks none ks' := by
  obtain ⟨k, ks, rfl⟩ : ∃ k ks', ks = k :: ks' := by
    cases ks with
    | nil => exact hks.elim
    | cons k ks => exact ⟨k, ks, rfl⟩
  obtain ⟨o, hsub, hl⟩ := subtree_eq ht hks
  obtain ⟨hw, hmap⟩ := freeBelow_spec ht ks.length o ks hks rfl hl
  exact ⟨_, by rw [trbtFreearray32, hsub]; rfl, hw, hmap⟩

end KeyTree

end Ctdb

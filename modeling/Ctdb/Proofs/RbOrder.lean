import Ctdb.Proofs.RbBalance

/-!
# The tree keeps its entries in order

Every fix-up case only recolours and rotates, and neither moves an entry in
the in-order list: each case's result lists what plugging its input would
(`toList_trbtInsertCase1`, `toList_trbtDeleteCase1`). Removing a node lists
what was before it, its two subtrees, and what was after it
(`toList_deleteNode`), also when its predecessor takes its place.

On a tree whose keys strictly increase in order, the walk to a key stops at
the node holding it or at the one empty place where it belongs, with every
key before below it and every key after above (`trbtFind_sorted`). Insertion
and removal are then an update of the map `t.toList.lookup` at that key, and
`trbt_lookup32` reads that map.
-/

namespace Ctdb

open Lib RbNode

variable {α : Type}

/-! ## Fix-ups and rotations -/

@[simp] theorem toList_trbtRotateLeft (t : TrbtNode α) : (trbtRotateLeft t).toList = t.toList := by
  unfold trbtRotateLeft
  split <;> simp

@[simp] theorem toList_trbtRotateRight (t : TrbtNode α) : (trbtRotateRight t).toList = t.toList := by
  unfold trbtRotateRight
  split <;> simp

theorem toList_trbtInsertCase5 (t : TrbtNode α) (f g : RbFrame UInt32 α) (p : TrbtPath α) :
    (trbtInsertCase5 t f g p).toList = (plug t (f :: g :: p)).toList := by
  rcases f with ⟨_ | _, fc, fk, fv, fs⟩ <;> rcases g with ⟨_ | _, gc, gk, gv, gs⟩ <;>
    simp [trbtInsertCase5, toList_plug, RbFrame.attach]

theorem toList_trbtInsertCase4 (t : TrbtNode α) (f : RbFrame UInt32 α) (q : TrbtPath α) :
    (trbtInsertCase4 t f q).toList = (plug t (f :: q)).toList := by
  cases q with
  | nil => rfl
  | cons g p =>
    rcases f with ⟨_ | _, fc, fk, fv, fs⟩ <;> rcases g with ⟨_ | _, gc, gk, gv, gs⟩ <;>
      cases t <;> simp [trbtInsertCase4, toList_trbtInsertCase5, toList_plug, RbFrame.attach]

theorem toList_trbtInsertCase1 : ∀ (t : TrbtNode α) (p : TrbtPath α),
    (trbtInsertCase1 t p).toList = (plug t p).toList
  | t, [] => by simp [trbtInsertCase1]
  | t, [f] => by
      rw [trbtInsertCase1]
      split_ifs
      · rfl
      · exact toList_trbtInsertCase4 t f []
  | t, f :: g :: p => by
      rw [trbtInsertCase1]
      split_ifs
      · rfl
      · rw [toList_trbtInsertCase1]
        rcases f with ⟨_ | _, fc, fk, fv, fs⟩ <;> rcases g with ⟨_ | _, gc, gk, gv, gs⟩ <;>
          simp [toList_plug, RbFrame.attach]
      · exact toList_trbtInsertCase4 t f (g :: p)

theorem toList_trbtDeleteCase6 (t : TrbtNode α) (f : RbFrame UInt32 α) (p : TrbtPath α) :
    (trbtDeleteCase6 t f p).toList = (plug t (f :: p)).toList := by
  rcases f with ⟨_ | _, fc, fk, fv, fs⟩ <;> simp [trbtDeleteCase6, toList_plug, RbFrame.attach]

theorem toList_trbtDeleteCase5 (t : TrbtNode α) (f : RbFrame UInt32 α) (p : TrbtPath α) :
    (trbtDeleteCase5 t f p).toList = (plug t (f :: p)).toList := by
  unfold trbtDeleteCase5
  dsimp only
  split_ifs <;> rw [toList_trbtDeleteCase6] <;>
    rcases f with ⟨_ | _, fc, fk, fv, fs⟩ <;> simp [toList_plug, RbFrame.attach]

theorem toList_trbtDeleteCase4 (t : TrbtNode α) (f : RbFrame UInt32 α) (p : TrbtPath α) :
    (trbtDeleteCase4 t f p).toList = (plug t (f :: p)).toList := by
  unfold trbtDeleteCase4
  dsimp only
  split_ifs
  · rcases f with ⟨_ | _, fc, fk, fv, fs⟩ <;> simp [toList_plug, RbFrame.attach]
  · exact toList_trbtDeleteCase5 t f p

theorem toList_trbtDeleteCase2 (t : TrbtNode α) (f : RbFrame UInt32 α) (p : TrbtPath α) :
    (plug t ((trbtDeleteCase2 f p).1 :: (trbtDeleteCase2 f p).2)).toList = (plug t (f :: p)).toList := by
  rcases f with ⟨_ | _, fc, fk, fv, _ | ⟨_ | _, sl, sk, sv, sr⟩⟩ <;>
    simp [trbtDeleteCase2, toList_plug, RbFrame.attach]

theorem toList_trbtDeleteCase1 (t : TrbtNode α) (p : TrbtPath α) :
    (trbtDeleteCase1 t p).toList = (plug t p).toList := by
  induction t, p using trbtDeleteCase1.induct with
  | case1 t =>
      rw [trbtDeleteCase1]
      rfl
  | case2 t f rest f' p' h2 hc ih =>
      have h := toList_trbtDeleteCase2 t f rest
      rw [h2] at h
      rw [trbtDeleteCase1_cons h2, if_pos hc, ih, ← h]
      rcases f' with ⟨_ | _, fc, fk, fv, fs⟩ <;> simp [toList_plug, RbFrame.attach]
  | case3 t f rest f' p' h2 hc =>
      have h := toList_trbtDeleteCase2 t f rest
      rw [h2] at h
      rw [trbtDeleteCase1_cons h2, if_neg hc, toList_trbtDeleteCase4, h]

theorem toList_trbtDeleteReplace (c : RbColor) (child : TrbtNode α) (p : TrbtPath α) :
    (trbtDeleteReplace c child p).toList = (plug child p).toList := by
  unfold trbtDeleteReplace
  split_ifs
  · exact toList_plug_congr p (toList_setColor _ _)
  · exact toList_trbtDeleteCase1 child p
  · rfl

theorem plug_trbtMaxPath : ∀ (t : TrbtNode α) (q : TrbtPath α),
    plug (trbtMaxPath t q).1 (trbtMaxPath t q).2 = plug t q
  | .leaf, _ => rfl
  | .node _ _ _ _ .leaf, _ => rfl
  | .node c l k v (.node ..), q => by
      rw [trbtMaxPath, plug_trbtMaxPath]
      rfl

/-- The walk to the predecessor only turns right: nothing of its frames is after it. -/
theorem pathAfter_trbtMaxPath : ∀ (t : TrbtNode α) (q : TrbtPath α),
    pathAfter (trbtMaxPath t q).2 = pathAfter q
  | .leaf, _ => rfl
  | .node _ _ _ _ .leaf, _ => rfl
  | .node c l k v (.node ..), q => by
      rw [trbtMaxPath, pathAfter_trbtMaxPath]
      rfl

theorem trbtMaxPath_ne_leaf : ∀ {t : TrbtNode α} {q : TrbtPath α}, t ≠ .leaf →
    (trbtMaxPath t q).1 ≠ .leaf
  | .leaf, _, h => absurd rfl h
  | .node _ _ _ _ .leaf, _, _ => by simp [trbtMaxPath]
  | .node c l k v (.node ..), q, _ => by
      rw [trbtMaxPath]
      exact trbtMaxPath_ne_leaf (by simp)

theorem toList_deleteNode (c : RbColor) (l : TrbtNode α) (k : UInt32) (v : α) (r : TrbtNode α)
    (p : TrbtPath α) :
    (deleteNode (.node c l k v r) p).toList = pathBefore p ++ l.toList ++ r.toList ++ pathAfter p := by
  cases l with
  | leaf => cases r <;> simp [deleteNode, toList_trbtDeleteReplace, toList_plug]
  | node lc ll lk lv lr =>
      cases r with
      | leaf => simp [deleteNode, toList_trbtDeleteReplace, toList_plug]
      | node rc rl rk rv rr =>
          simp only [deleteNode]
          split
          · rename_i tc tl tk tv tr q hmax
            have hplug := plug_trbtMaxPath (.node lc ll lk lv lr) []
            have hafter := pathAfter_trbtMaxPath (.node lc ll lk lv lr) []
            rw [hmax] at hplug hafter
            simp only [plug_nil, pathAfter_nil] at hplug hafter
            have htr : tr = .leaf := trbtMaxPath_right hmax
            subst htr
            rw [toList_trbtDeleteReplace, plug_append, plug_cons, toList_plug, RbFrame.toList_attach,
              ← hplug]
            simp [toList_plug, hafter, RbFrame.before, RbFrame.after]
          · rename_i q hmax
            exact absurd (congrArg Prod.fst hmax) (trbtMaxPath_ne_leaf (by simp))

/-! ## The walk to a key -/

theorem uint32_lt_of_not_lt {a b : UInt32} (h1 : ¬ a = b) (h2 : ¬ a < b) : b < a :=
  UInt32.lt_of_le_of_ne (UInt32.not_lt.mp h2) (Ne.symm h1)

theorem plug_trbtFind (key : UInt32) : ∀ (t : TrbtNode α) (p : TrbtPath α),
    plug (trbtFind key t p).1 (trbtFind key t p).2 = plug t p
  | .leaf, _ => rfl
  | .node c l k v r, p => by
      rw [trbtFind]
      split_ifs
      · rfl
      · rw [plug_trbtFind]
        rfl
      · rw [plug_trbtFind]
        rfl

theorem trbtFind_key (key : UInt32) : ∀ {t : TrbtNode α} {p q : TrbtPath α} {c : RbColor}
    {l r : TrbtNode α} {k : UInt32} {v : α}, trbtFind key t p = (.node c l k v r, q) → k = key
  | .leaf, _, _, _, _, _, _, _, h => by cases h
  | .node c' l' k' v' r', p, q, c, l, r, k, v, h => by
      rw [trbtFind] at h
      split_ifs at h with h1 h2
      · cases h
        exact h1.symm
      · exact trbtFind_key key h
      · exact trbtFind_key key h

/-- Every key before the focus of `p` is below `key` and every key after it above. -/
def KeyBounds (key : UInt32) (p : TrbtPath α) : Prop :=
  (∀ e ∈ pathBefore p, e.1 < key) ∧ ∀ e ∈ pathAfter p, key < e.1

theorem trbtFind_bounds (key : UInt32) : ∀ (t : TrbtNode α) (p : TrbtPath α),
    KeysSorted (plug t p).toList → KeyBounds key p → KeyBounds key (trbtFind key t p).2
  | .leaf, _, _, hb => hb
  | .node c l k v r, p, hs, hb => by
      have hsplit : KeysSorted (pathBefore p ++ (l.toList ++ (k, v) :: r.toList) ++ pathAfter p) := by
        rw [← toList_node, ← toList_plug]
        exact hs
      obtain ⟨-, -, hl, hr⟩ := keysSorted_node_split _ _ hsplit
      rw [trbtFind]
      split_ifs with h1 h2
      · exact hb
      · -- the node and its right subtree come after the focus
        refine trbtFind_bounds key l _ hs ⟨by simpa [RbFrame.before] using hb.1, fun e he => ?_⟩
        simp only [pathAfter_cons, RbFrame.after, List.mem_append, List.mem_cons] at he
        rcases he with (rfl | he) | he
        · exact h2
        · exact UInt32.lt_trans h2 (hr e he)
        · exact hb.2 e he
      · have h3 := uint32_lt_of_not_lt h1 h2
        refine trbtFind_bounds key r _ hs ⟨fun e he => ?_, by simpa [RbFrame.after] using hb.2⟩
        simp only [pathBefore_cons, RbFrame.before, List.mem_append, List.mem_cons,
          List.not_mem_nil, or_false] at he
        rcases he with he | he | rfl
        · exact hb.1 e he
        · exact UInt32.lt_trans (hl e he) h3
        · exact h3

/-- Where the walk to `key` ends in a sorted tree: at the node holding `key`,
with every key before it below `key` and every key after it above, or at the
empty place between the keys below `key` and those above. -/
theorem trbtFind_sorted {t : TrbtNode α} (key : UInt32) (hs : KeysSorted t.toList) :
    (∃ c l v r q, trbtFind key t [] = (.node c l key v r, q) ∧
        t.toList = (pathBefore q ++ l.toList) ++ (key, v) :: (r.toList ++ pathAfter q) ∧
        (∀ e ∈ pathBefore q ++ l.toList, e.1 < key) ∧ ∀ e ∈ r.toList ++ pathAfter q, key < e.1) ∨
      ∃ q, trbtFind key t [] = (.leaf, q) ∧ t.toList = pathBefore q ++ pathAfter q ∧
        (∀ e ∈ pathBefore q, e.1 < key) ∧ ∀ e ∈ pathAfter q, key < e.1 := by
  have hplug := plug_trbtFind key t []
  have hb := trbtFind_bounds key t [] hs ⟨by simp, by simp⟩
  rcases hfind : trbtFind key t [] with ⟨_ | ⟨c, l, k, v, r⟩, q⟩
  · rw [hfind] at hplug hb
    simp only [plug_nil] at hplug
    refine .inr ⟨q, rfl, ?_, hb⟩
    rw [← hplug, toList_plug]
    simp
  · rw [hfind] at hplug hb
    simp only [plug_nil] at hplug
    have hk := trbtFind_key key hfind
    subst hk
    have hlist : t.toList = pathBefore q ++ (l.toList ++ (k, v) :: r.toList) ++ pathAfter q := by
      rw [← hplug, toList_plug, toList_node]
    obtain ⟨-, -, hl, hr⟩ := keysSorted_node_split _ _ (hlist ▸ hs)
    refine .inl ⟨c, l, v, r, q, rfl, by simp [hlist], fun e he => ?_, fun e he => ?_⟩
    · rcases List.mem_append.mp he with he | he
      · exact hb.1 e he
      · exact hl e he
    · rcases List.mem_append.mp he with he | he
      · exact hr e he
      · exact hb.2 e he

/-! ## The map a sorted tree stands for -/

theorem trbtLookup32_eq : ∀ (t : TrbtNode α) (key : UInt32), KeysSorted t.toList →
    trbtLookup32 t key = t.toList.lookup key
  | .leaf, _, _ => rfl
  | .node c l k v r, key, hs => by
      obtain ⟨hsl, hsr, hl, hr⟩ := keysSorted_node_split [] [] (by simpa using hs)
      rw [trbtLookup32, toList_node]
      split_ifs with h1 h2
      · subst h1
        exact (lookup_middle_self fun e he => UInt32.ne_of_lt (hl e he)).symm
      · -- the key is below the node: nothing from the node on holds it
        rw [trbtLookup32_eq l key hsl, List.lookup_append]
        have hnone : ((k, v) :: r.toList).lookup key = none :=
          lookup_eq_none_of_ne fun e he => by
            rcases List.mem_cons.mp he with rfl | he
            · exact fun h => h1 h.symm
            · exact fun h => UInt32.ne_of_lt (UInt32.lt_trans h2 (hr e he)) h.symm
        rw [hnone, Option.or_none]
      · have h3 := uint32_lt_of_not_lt h1 h2
        rw [trbtLookup32_eq r key hsr, List.lookup_append,
          lookup_eq_none_of_ne fun e he => UInt32.ne_of_lt (UInt32.lt_trans (hl e he) h3),
          Option.none_or, List.lookup_cons]
        simp [beq_false_of_ne h1]

theorem trbtInsertWith_spec (t : TrbtNode α) (key : UInt32) (cb : Option α → α)
    (hs : KeysSorted t.toList) :
    KeysSorted (trbtInsertWith t key cb).1.toList ∧
      (trbtInsertWith t key cb).2 = t.toList.lookup key ∧
      ∀ k, (trbtInsertWith t key cb).1.toList.lookup k =
        if k = key then some (cb (t.toList.lookup key)) else t.toList.lookup k := by
  cases t with
  | leaf =>
      refine ⟨List.pairwise_singleton _ _, rfl, fun k => ?_⟩
      by_cases hk : k = key
      · simp [trbtInsertWith, hk]
      · simp [trbtInsertWith, hk, List.lookup_cons, beq_false_of_ne hk]
  | node c l k v r =>
      rcases trbtFind_sorted key hs with
        ⟨c', l', v', r', q, hfind, hlist, hlt, hgt⟩ | ⟨q, hfind, hlist, hlt, hgt⟩
      · -- the key is there: its data changes in place
        have hne : ∀ e ∈ pathBefore q ++ l'.toList, e.1 ≠ key := fun e he => UInt32.ne_of_lt (hlt e he)
        have hold : ((pathBefore q ++ l'.toList) ++ (key, v') :: (r'.toList ++ pathAfter q)).lookup key =
            some v' := lookup_middle_self hne
        have hnew : (trbtInsertWith (.node c l k v r) key cb).1.toList =
            (pathBefore q ++ l'.toList) ++ (key, cb (some v')) :: (r'.toList ++ pathAfter q) := by
          simp [trbtInsertWith, hfind, toList_plug]
        rw [hnew, hlist, hold]
        refine ⟨keysSorted_replace (hlist ▸ hs), ?_, lookup_replace_middle hne⟩
        simp [trbtInsertWith, hfind]
      · -- a new node between the keys below `key` and those above
        have hne : ∀ e ∈ pathBefore q, e.1 ≠ key := fun e he => UInt32.ne_of_lt (hlt e he)
        have hnone : (pathBefore q ++ pathAfter q).lookup key = none :=
          lookup_eq_none_of_ne fun e he => by
            rcases List.mem_append.mp he with he | he
            · exact hne e he
            · exact fun h => UInt32.ne_of_lt (hgt e he) h.symm
        have hnew : (trbtInsertWith (.node c l k v r) key cb).1.toList =
            pathBefore q ++ (key, cb none) :: pathAfter q := by
          simp [trbtInsertWith, hfind, toList_trbtInsertCase1, toList_plug]
        rw [hnew, hlist, hnone]
        refine ⟨keysSorted_insert (hlist ▸ hs) hlt hgt, ?_, lookup_insert_middle hne⟩
        simp [trbtInsertWith, hfind]

theorem trbtNodeDestructor_spec (t : TrbtNode α) (key : UInt32) (hs : KeysSorted t.toList) :
    KeysSorted (trbtNodeDestructor t key).toList ∧
      ∀ k, (trbtNodeDestructor t key).toList.lookup k =
        if k = key then none else t.toList.lookup k := by
  rcases trbtFind_sorted key hs with
    ⟨c, l, v, r, q, hfind, hlist, hlt, hgt⟩ | ⟨q, hfind, hlist, hlt, hgt⟩
  · have hnew : (trbtNodeDestructor t key).toList =
        (pathBefore q ++ l.toList) ++ (r.toList ++ pathAfter q) := by
      simp [trbtNodeDestructor, hfind, toList_deleteNode]
    have hne : ∀ e ∈ (pathBefore q ++ l.toList) ++ (r.toList ++ pathAfter q), e.1 ≠ key := by
      intro e he
      rcases List.mem_append.mp he with he | he
      · exact UInt32.ne_of_lt (hlt e he)
      · exact fun h => UInt32.ne_of_lt (hgt e he) h.symm
    rw [hnew, hlist]
    exact ⟨keysSorted_erase (hlist ▸ hs), lookup_erase_middle hne⟩
  · -- no node holds the key: nothing changes
    have hnone : t.toList.lookup key = none := by
      rw [hlist]
      exact lookup_eq_none_of_ne fun e he => by
        rcases List.mem_append.mp he with he | he
        · exact UInt32.ne_of_lt (hlt e he)
        · exact fun h => UInt32.ne_of_lt (hgt e he) h.symm
    have hsame : trbtNodeDestructor t key = t := by
      simp [trbtNodeDestructor, hfind]
    rw [hsame]
    refine ⟨hs, fun k => ?_⟩
    split_ifs with hk
    · rw [hk, hnone]
    · rfl

/-- Destroying the node of `key` takes its entry out of the in-order list. -/
theorem toList_trbtNodeDestructor (t : TrbtNode α) (key : UInt32) (hs : KeysSorted t.toList) :
    (trbtNodeDestructor t key).toList = t.toList.filter fun e => e.1 != key := by
  have hkeep : ∀ {A : List (UInt32 × α)}, (∀ e ∈ A, e.1 ≠ key) → A.filter (fun e => e.1 != key) = A :=
    fun hA => List.filter_eq_self.mpr fun e he => bne_iff_ne.mpr (hA e he)
  rcases trbtFind_sorted key hs with
    ⟨c, l, v, r, q, hfind, hlist, hlt, hgt⟩ | ⟨q, hfind, hlist, hlt, hgt⟩
  · have hnew : (trbtNodeDestructor t key).toList =
        (pathBefore q ++ l.toList) ++ (r.toList ++ pathAfter q) := by
      simp [trbtNodeDestructor, hfind, toList_deleteNode]
    rw [hnew, hlist, List.filter_append, List.filter_cons_of_neg (by simp),
      hkeep fun e he => UInt32.ne_of_lt (hlt e he),
      hkeep fun e he h => UInt32.ne_of_lt (hgt e he) h.symm]
  · have hsame : trbtNodeDestructor t key = t := by
      simp [trbtNodeDestructor, hfind]
    rw [hsame, hlist, hkeep fun e he => ?_]
    rcases List.mem_append.mp he with he | he
    · exact UInt32.ne_of_lt (hlt e he)
    · exact fun h => UInt32.ne_of_lt (hgt e he) h.symm

end Ctdb

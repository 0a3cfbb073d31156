import Ctdb.RbTree.Tree

/-!
# The fix-ups keep the tree red-black

Insertion hangs a red node `t` with black children under a path that takes a
black tree of `t`'s height (`PathRb p .black n`); the only thing that can be
wrong is a red parent. Case 2 stops at a black parent, case 3 pushes the red
two levels up with the same invariant one black level higher, and cases 4 and
5 end the walk with a rotation that leaves a black node of the right height.

Deletion leaves a black tree `t` of height `n` in a place that takes height
`n + 1`. Case 2 turns a red sibling into a black one without changing that,
case 3 moves the deficit one level up, and cases 4 to 6 close it. The
sibling of `t` always has black height `n + 1`, so it is never `NULL`.

`trbtInsertWith_isRb` and `trbtNodeDestructor_isRb` put these together with
the walk to the key and, for a node with two children, the walk to its
predecessor.
-/

namespace Ctdb

open Lib RbNode

variable {α : Type}

/-! ## Insertion -/

section Insert

variable {t : TrbtNode α} {f g : RbFrame UInt32 α} {p : TrbtPath α} {n : Nat}

theorem trbtInsertCase5_isRb (ht : t.IsRb .red n) (hf : f.sibling.IsRb .black n)
    (hg : g.sibling.IsRb .black n) (hside : f.side = g.side) (hp : PathRb p .black (n + 1)) :
    ∃ m, (trbtInsertCase5 t f g p).IsRb .black m := by
  obtain ⟨s, fc, fk, fv, fs⟩ := f
  obtain ⟨s', gc, gk, gv, gs⟩ := g
  simp only at hf hg hside
  subst hside
  cases s with
  | left => exact hp.plug (.black ht (.red hf hg))
  | right => exact hp.plug (.black (.red hg hf) ht)

theorem trbtInsertCase4_isRb (ht : t.IsRb .red n) (hfc : f.color = .red)
    (hf : f.sibling.IsRb .black n) (hg : g.sibling.IsRb .black n) (hp : PathRb p .black (n + 1)) :
    ∃ m, (trbtInsertCase4 t f (g :: p)).IsRb .black m := by
  obtain ⟨s, fc, fk, fv, fs⟩ := f
  obtain ⟨s', gc, gk, gv, gs⟩ := g
  simp only at hfc hf hg
  subst hfc
  cases ht with
  | red htl htr =>
      simp only [trbtInsertCase4]
      cases s with
      | left =>
          cases s' with
          | left => exact trbtInsertCase5_isRb (.red htl htr) hf hg rfl hp
          -- the node is rotated above its parent, which case 5 works on
          | right => exact trbtInsertCase5_isRb (.red htr hf) htl hg rfl hp
      | right =>
          cases s' with
          | left => exact trbtInsertCase5_isRb (.red hf htl) htr hg rfl hp
          | right => exact trbtInsertCase5_isRb (.red htl htr) hf hg rfl hp

theorem trbtInsertCase1_isRb : ∀ {t : TrbtNode α} {p : TrbtPath α} {n : Nat},
    t.IsRb .red n → PathRb p .black n → ∃ m, (trbtInsertCase1 t p).IsRb .black m
  | _, [], _, ht, _ => ⟨_, ht.setColor_black⟩
  | t, [f], n, ht, hp => by
      by_cases hfc : f.color = .black
      · rw [trbtInsertCase1, if_pos hfc]
        exact (hp.recolor hfc .red).plug ht
      · -- a red parent at the root: not a red-black tree
        obtain ⟨-, -, hroot⟩ := hp.red_frame (RbColor.not_black_iff.mp hfc)
        cases hroot
  | t, f :: g :: p, n, ht, hp => by
      by_cases hfc : f.color = .black
      · rw [trbtInsertCase1, if_pos hfc]
        exact (hp.recolor hfc .red).plug ht
      have hfr := RbColor.not_black_iff.mp hfc
      obtain ⟨-, hf, hgp⟩ := hp.red_frame hfr
      obtain ⟨⟨cu, hu⟩, hp'⟩ := hgp.black_frame hgp.frame_black_of_red
      rw [trbtInsertCase1, if_neg hfc]
      by_cases huc : g.sibling.color = .red
      · -- case 3: the red moves up to the grandparent
        rw [if_pos huc]
        rw [hu.color_eq] at huc
        subst huc
        exact trbtInsertCase1_isRb
          (RbFrame.isRb_attach_red rfl (RbFrame.isRb_attach_black rfl ht hf) hu.setColor_black) hp'
      · rw [if_neg huc]
        rw [hu.color_eq, RbColor.not_red_iff] at huc
        subst huc
        exact trbtInsertCase4_isRb ht hfr hf hu hp'

end Insert

/-! ## Deletion -/

section Delete

variable {t : TrbtNode α} {f : RbFrame UInt32 α} {p : TrbtPath α} {n : Nat}

theorem trbtDeleteCase6_isRb (ht : t.IsRb .black n) (hp : PathRb (f :: p) .black (n + 1))
    (hs : f.sibling.color = .black) (hl : f.side = .left → f.sibling.rightColor = .red)
    (hr : f.side = .right → f.sibling.leftColor = .red) :
    ∃ m, (trbtDeleteCase6 t f p).IsRb .black m := by
  have hS := hp.sibling_black hs
  obtain ⟨s, fc, fk, fv, S⟩ := f
  simp only at hS hl hr
  cases hS with
  | black hsl hsr =>
      cases s with
      | left =>
          have hcr := hl rfl
          rw [rightColor, hsr.color_eq] at hcr
          subst hcr
          cases hsr with
          | red hc hd =>
              -- the sibling takes the parent's place and colour
              cases fc with
              | red =>
                  obtain ⟨-, -, hp'⟩ := hp.red_frame rfl
                  exact hp'.plug (.red (.black ht hsl) (.black hc hd))
              | black =>
                  obtain ⟨-, hp'⟩ := hp.black_frame rfl
                  exact hp'.plug (.black (.black ht hsl) (.black hc hd))
      | right =>
          have hcl := hr rfl
          rw [leftColor, hsl.color_eq] at hcl
          subst hcl
          cases hsl with
          | red ha hb =>
              cases fc with
              | red =>
                  obtain ⟨-, -, hp'⟩ := hp.red_frame rfl
                  exact hp'.plug (.red (.black ha hb) (.black hsr ht))
              | black =>
                  obtain ⟨-, hp'⟩ := hp.black_frame rfl
                  exact hp'.plug (.black (.black ha hb) (.black hsr ht))

/-- The rotation of case 5 on a node's right: the sibling's red left child
goes up, and the sibling's red child is then on its right. -/
theorem isRb_rotateRight_case5 {S : TrbtNode α} (hS : S.IsRb .black (n + 1))
    (hl : S.leftColor = .red) (hr : S.rightColor = .black) :
    (trbtRotateRight ((S.setColor .red).setLeftColor .black)).IsRb .black (n + 1) ∧
      (trbtRotateRight ((S.setColor .red).setLeftColor .black)).rightColor = .red := by
  cases hS with
  | black hsl hsr =>
      rw [leftColor, hsl.color_eq] at hl
      rw [rightColor, hsr.color_eq] at hr
      subst hl hr
      cases hsl with
      | red ha hb => exact ⟨.black ha (.red hb hsr), rfl⟩

theorem isRb_rotateLeft_case5 {S : TrbtNode α} (hS : S.IsRb .black (n + 1))
    (hr : S.rightColor = .red) (hl : S.leftColor = .black) :
    (trbtRotateLeft ((S.setColor .red).setRightColor .black)).IsRb .black (n + 1) ∧
      (trbtRotateLeft ((S.setColor .red).setRightColor .black)).leftColor = .red := by
  cases hS with
  | black hsl hsr =>
      rw [leftColor, hsl.color_eq] at hl
      rw [rightColor, hsr.color_eq] at hr
      subst hl hr
      cases hsr with
      | red hc hd => exact ⟨.black (.red hsl hc) hd, rfl⟩

theorem trbtDeleteCase5_isRb (ht : t.IsRb .black n) (hp : PathRb (f :: p) .black (n + 1))
    (hs : f.sibling.color = .black)
    (hred : f.sibling.leftColor = .red ∨ f.sibling.rightColor = .red) :
    ∃ m, (trbtDeleteCase5 t f p).IsRb .black m := by
  have hS := hp.sibling_black hs
  unfold trbtDeleteCase5
  dsimp only
  split_ifs with h1 h2
  · obtain ⟨hside, -, hl, hr⟩ := h1
    obtain ⟨hS', hc⟩ := isRb_rotateRight_case5 hS hl hr
    exact trbtDeleteCase6_isRb ht (hp.sibling hS') hS'.color_eq (fun _ => hc)
      (fun h => by simp [hside] at h)
  · obtain ⟨hside, -, hr, hl⟩ := h2
    obtain ⟨hS', hc⟩ := isRb_rotateLeft_case5 hS hr hl
    exact trbtDeleteCase6_isRb ht (hp.sibling hS') hS'.color_eq
      (fun h => by simp [hside] at h) (fun _ => hc)
  · -- the sibling's red child is already on the far side
    refine trbtDeleteCase6_isRb ht hp hs (fun hside => ?_) (fun hside => ?_)
    · cases hc : f.sibling.rightColor
      · rfl
      · simp_all
    · cases hc : f.sibling.leftColor
      · rfl
      · simp_all

theorem trbtDeleteCase4_isRb (ht : t.IsRb .black n) (hp : PathRb (f :: p) .black (n + 1))
    (hs : f.sibling.color = .black)
    (h3 : ¬ (f.color = .black ∧ f.sibling.leftColor = .black ∧ f.sibling.rightColor = .black)) :
    ∃ m, (trbtDeleteCase4 t f p).IsRb .black m := by
  have hS := hp.sibling_black hs
  unfold trbtDeleteCase4
  dsimp only
  split_ifs with h4
  · obtain ⟨hfc, -, hl, hr⟩ := h4
    obtain ⟨-, -, hp'⟩ := hp.red_frame hfc
    exact hp'.black_of_red.plug (RbFrame.isRb_attach_black rfl ht (hS.setColor_red hl hr))
  · apply trbtDeleteCase5_isRb ht hp hs
    -- with both of the sibling's children black, case 3 or case 4 would have applied
    cases hc : f.color <;> cases hl : f.sibling.leftColor <;> cases hr : f.sibling.rightColor <;>
      simp_all

theorem trbtDeleteCase2_pathRb (hp : PathRb (f :: p) .black (n + 1)) :
    PathRb ((trbtDeleteCase2 f p).1 :: (trbtDeleteCase2 f p).2) .black (n + 1) ∧
      (trbtDeleteCase2 f p).1.sibling.color = .black := by
  obtain ⟨s, fc, fk, fv, S⟩ := f
  cases S with
  | leaf => exact ⟨hp, rfl⟩
  | node c sl sk sv sr =>
      cases c with
      | black => exact ⟨hp, rfl⟩
      | red =>
          -- a red sibling: the parent was black, and the sibling's children are black
          cases hp with
          | red hy => cases hy
          | black hy hp' =>
              cases hy with
              | red hsl hsr =>
                  cases s with
                  | left => exact ⟨.red hsl (.black hsr hp'), hsl.color_eq⟩
                  | right => exact ⟨.red hsr (.black hsl hp'), hsr.color_eq⟩

theorem trbtDeleteCase1_isRb (ht : t.IsRb .black n) (hp : PathRb p .black (n + 1)) :
    ∃ m, (trbtDeleteCase1 t p).IsRb .black m := by
  induction t, p using trbtDeleteCase1.induct generalizing n with
  | case1 t =>
      rw [trbtDeleteCase1]
      exact ⟨n, ht⟩
  | case2 t f rest f' p' h2 hc ih =>
      obtain ⟨hp', hs⟩ := trbtDeleteCase2_pathRb hp
      rw [h2] at hp' hs
      rw [trbtDeleteCase1_cons h2, if_pos hc]
      -- case 3: the parent is now one black node short
      obtain ⟨hfc, -, hl, hr⟩ := hc
      obtain ⟨-, hup⟩ := hp'.black_frame hfc
      exact ih (RbFrame.isRb_attach_black hfc ht ((hp'.sibling_black hs).setColor_red hl hr)) hup
  | case3 t f rest f' p' h2 hc =>
      obtain ⟨hp', hs⟩ := trbtDeleteCase2_pathRb hp
      rw [h2] at hp' hs
      rw [trbtDeleteCase1_cons h2, if_neg hc]
      exact trbtDeleteCase4_isRb ht hp' hs fun h => hc ⟨h.1, hs, h.2⟩

end Delete

/-! ## The walks and the operations -/

section Operations

theorem trbtFind_isRb (key : UInt32) : ∀ {t : TrbtNode α} {p : TrbtPath α} {c : RbColor} {n : Nat},
    t.IsRb c n → PathRb p c n →
      ∃ c' n', (trbtFind key t p).1.IsRb c' n' ∧ PathRb (trbtFind key t p).2 c' n'
  | .leaf, _, _, _, ht, hp => ⟨_, _, ht, hp⟩
  | .node cn l k v r, p, c, n, ht, hp => by
      rw [trbtFind]
      split_ifs with h1 h2
      · exact ⟨c, n, ht, hp⟩
      · obtain ⟨cl, nl, hl, hpl⟩ := hp.left ht
        exact trbtFind_isRb key hl hpl
      · obtain ⟨cr, nr, hr, hpr⟩ := hp.right ht
        exact trbtFind_isRb key hr hpr

theorem trbtMaxPath_isRb : ∀ {t : TrbtNode α} {p : TrbtPath α} {c : RbColor} {n : Nat},
    t.IsRb c n → PathRb p c n →
      ∃ c' n', (trbtMaxPath t p).1.IsRb c' n' ∧ PathRb (trbtMaxPath t p).2 c' n'
  | .leaf, _, _, _, ht, hp => ⟨_, _, ht, hp⟩
  | .node _ _ _ _ .leaf, _, _, _, ht, hp => ⟨_, _, ht, hp⟩
  | .node _ _ _ _ (.node ..), _, _, _, ht, hp => by
      obtain ⟨cr, nr, hr, hpr⟩ := hp.right ht
      rw [trbtMaxPath]
      exact trbtMaxPath_isRb hr hpr

/-- The walk to the predecessor only puts frames in front of the path it starts from. -/
theorem trbtMaxPath_append : ∀ (t : TrbtNode α) (q : TrbtPath α),
    trbtMaxPath t q = ((trbtMaxPath t []).1, (trbtMaxPath t []).2 ++ q)
  | .leaf, _ => rfl
  | .node _ _ _ _ .leaf, _ => rfl
  | .node c l k v (.node rc rl rk rv rr), q => by
      rw [trbtMaxPath, trbtMaxPath, trbtMaxPath_append _ (_ :: q),
        trbtMaxPath_append (.node rc rl rk rv rr) [_]]
      simp

/-- The predecessor has no right child. -/
theorem trbtMaxPath_right : ∀ {t : TrbtNode α} {q q' : TrbtPath α} {c : RbColor}
    {l r : TrbtNode α} {k : UInt32} {v : α},
    trbtMaxPath t q = (.node c l k v r, q') → r = .leaf
  | .leaf, _, _, _, _, _, _, _, h => by cases h
  | .node _ _ _ _ .leaf, _, _, _, _, _, _, _, h => by cases h; rfl
  | .node _ _ _ _ (.node ..), _, _, _, _, _, _, _, h => by
      rw [trbtMaxPath] at h
      exact trbtMaxPath_right h

/-- Removing a node with at most one child, here on the left. -/
theorem trbtDeleteReplace_isRb {c : RbColor} {child : TrbtNode α} {k : UInt32} {v : α}
    {p : TrbtPath α} {n : Nat} (ht : (RbNode.node c child k v .leaf).IsRb c n)
    (hp : PathRb p c n) : ∃ m, (trbtDeleteReplace c child p).IsRb .black m := by
  cases ht with
  | red hchild hleaf =>
      cases hleaf
      rw [trbtDeleteReplace, if_neg (by simp)]
      exact hp.black_of_red.plug hchild
  | black hchild hleaf =>
      cases hleaf
      rw [trbtDeleteReplace, if_pos rfl]
      split_ifs with hcr
      · -- a red child turns black in its parent's place
        rw [hchild.color_eq] at hcr
        subst hcr
        exact hp.plug hchild.setColor_black
      · -- no child: the dummy is one black node short
        rw [hchild.color_eq, RbColor.not_red_iff] at hcr
        subst hcr
        rw [hchild.eq_leaf_of_black_zero]
        exact trbtDeleteCase1_isRb .leaf hp

theorem deleteNode_isRb {t : TrbtNode α} {p : TrbtPath α} {c : RbColor} {n : Nat}
    (ht : t.IsRb c n) (hp : PathRb p c n) : ∃ m, (deleteNode t p).IsRb .black m := by
  cases t with
  | leaf => exact hp.plug ht
  | node cn l k v r =>
      have hcn : cn = c := ht.color_eq
      subst hcn
      cases l with
      | leaf =>
          cases r with
          | leaf => exact trbtDeleteReplace_isRb ht hp
          | node rc rl rk rv rr => exact trbtDeleteReplace_isRb ht.mirror hp
      | node lc ll lk lv lr =>
          cases r with
          | leaf => exact trbtDeleteReplace_isRb ht hp
          | node rc rl rk rv rr =>
              simp only [deleteNode]
              split
              · -- the predecessor, found below the node that takes its key and data
                rename_i tc tl tk tv tr q hmax
                have hnode :
                    (RbNode.node cn (.node lc ll lk lv lr) tk tv (.node rc rl rk rv rr)).IsRb cn n :=
                  ht.node_entry
                obtain ⟨cl, nl, hl, hpl⟩ := hp.left hnode
                obtain ⟨c', n', htemp, hq⟩ := trbtMaxPath_isRb hl hpl
                rw [trbtMaxPath_append, hmax] at htemp hq
                have htr : tr = .leaf := trbtMaxPath_right hmax
                subst htr
                have hc' : tc = c' := htemp.color_eq
                subst hc'
                exact trbtDeleteReplace_isRb htemp hq
              · exact hp.plug ht

theorem trbtInsertWith_isRb {t : TrbtNode α} {n : Nat} (key : UInt32) (cb : Option α → α)
    (ht : t.IsRb .black n) : ∃ m, (trbtInsertWith t key cb).1.IsRb .black m := by
  cases t with
  | leaf => exact ⟨1, .black .leaf .leaf⟩
  | node c l k v r =>
      obtain ⟨c', n', hf, hpf⟩ := trbtFind_isRb key ht .root
      simp only [trbtInsertWith]
      split
      · -- the key is there: only its data changes
        rename_i c'' l' k' v' r' q hfind
        rw [hfind] at hf hpf
        exact hpf.plug hf.node_entry
      · -- a new red node where the walk fell off the tree
        rename_i q hfind
        rw [hfind] at hf hpf
        cases hf
        exact trbtInsertCase1_isRb (.red .leaf .leaf) hpf

theorem trbtNodeDestructor_isRb {t : TrbtNode α} {n : Nat} (key : UInt32)
    (ht : t.IsRb .black n) : ∃ m, (trbtNodeDestructor t key).IsRb .black m := by
  obtain ⟨c', n', hf, hpf⟩ := trbtFind_isRb key ht .root
  unfold trbtNodeDestructor
  split
  · rename_i c l k v r q hfind
    rw [hfind] at hf hpf
    exact deleteNode_isRb hf hpf
  · exact ⟨n, ht⟩

end Operations

end Ctdb

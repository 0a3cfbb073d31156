import Ctdb.Freeze.Control

/-!
# How a priority becomes frozen

Of all the moves, only `ctdb_lock_handler` sets a priority's freeze mode to
frozen, and only when the byte it read counts as 0 (`freezeStep_becomes_frozen`).
That byte is either the 0 the helper writes once `tdb_lockall` has succeeded on
every database, or, at end of file, the indeterminate `c` the failed `read`
left alone. The second way freezes a priority whose helper exited without
writing, so holding no lock, and answers its freeze requests with status 0
(`freeze_without_locks`).
-/

namespace Ctdb

/-! ## The freeze mode after each operation -/

section Mode

variable {s : FreezeState} {p q : Nat}

theorem freezeHandleDestructor_mode (h : FreezeHandle) :
    (freezeHandleDestructor s p h).freezeMode q = if q = p then .none else s.freezeMode q := by
  simp only [freezeHandleDestructor, Function.update_apply]

theorem freezeHandleDestructor_frozen {h : FreezeHandle}
    (hq : (freezeHandleDestructor s p h).freezeMode q = .frozen) : s.freezeMode q = .frozen := by
  rw [freezeHandleDestructor_mode] at hq
  split at hq
  · cases hq
  · exact hq

theorem ctdbFreezeLockHandler_frozen {h : FreezeHandle} {locked : Bool}
    (hq : (ctdbFreezeLockHandler s p h locked).freezeMode q = .frozen) :
    s.freezeMode q = .frozen ∨ (q = p ∧ s.freezeMode p ≠ .frozen ∧ locked = true) := by
  unfold ctdbFreezeLockHandler at hq
  split at hq
  · exact Or.inl (freezeHandleDestructor_frozen hq)
  · next hne =>
      split at hq
      · exact Or.inl (freezeHandleDestructor_frozen hq)
      · next hlocked =>
          simp only [Function.update_apply] at hq
          split at hq
          · next hqp => exact Or.inr ⟨hqp, hne, by simpa using hlocked⟩
          · exact Or.inl hq

theorem ctdbStartFreeze_frozen {s' : FreezeState} (h : ctdbStartFreeze s p = some s')
    (hq : s'.freezeMode q = .frozen) : s.freezeMode q = .frozen := by
  unfold ctdbStartFreeze at h
  split at h
  · cases h
  split at h
  · cases h
    exact hq
  split at h
  · cases h
    simp only [Function.update_apply] at hq
    split at hq
    · cases hq
    · exact hq
  · cases h
    exact hq

theorem ctdbControlFreeze_frozen {s' : FreezeState} {srvid : UInt64} {reqid : Nat}
    (h : ctdbControlFreeze s srvid reqid = some s') (hq : s'.freezeMode q = .frozen) :
    s.freezeMode q = .frozen := by
  dsimp only [ctdbControlFreeze] at h
  generalize (if srvid.toUInt32.toNat = 0 then 1 else srvid.toUInt32.toNat) = priority at h
  split at h
  · cases h
    exact hq
  split at h
  · cases h
    exact hq
  rw [Option.bind_eq_bind] at h
  obtain ⟨s₁, hs₁, h⟩ := Option.bind_eq_some_iff.mp h
  -- the waiter is queued on the handle; the mode is the one the freeze start left
  have hq₁ : s₁.freezeMode q = .frozen := by
    split at h
    · cases h
      exact hq
    · cases h
      exact hq
  exact ctdbStartFreeze_frozen hs₁ hq₁

theorem thawPriority_frozen (hq : (thawPriority s p).freezeMode q = .frozen) :
    s.freezeMode q = .frozen := by
  unfold thawPriority at hq
  split at hq
  · exact freezeHandleDestructor_frozen hq
  · exact hq

theorem foldl_thawPriority_frozen :
    ∀ (ps : List Nat) {s : FreezeState}, (ps.foldl thawPriority s).freezeMode q = .frozen →
      s.freezeMode q = .frozen
  | [], _, hq => hq
  | _ :: ps, _, hq => thawPriority_frozen (foldl_thawPriority_frozen ps hq)

theorem ctdbControlThaw_frozen {priority : UInt32} {reqid : Nat}
    (hq : (ctdbControlThaw s priority reqid).freezeMode q = .frozen) : s.freezeMode q = .frozen := by
  unfold ctdbControlThaw at hq
  split at hq
  · exact hq
  split at hq
  · exact foldl_thawPriority_frozen _ hq
  · exact thawPriority_frozen hq

theorem helperMove_mode {f : LockHelper → Option LockHelper} {s' : FreezeState}
    (h : helperMove f s p = some s') : s'.freezeMode = s.freezeMode := by
  unfold helperMove at h
  split at h
  · cases h
  · obtain ⟨hp, -, rfl⟩ := Option.map_eq_some_iff.mp h
    rfl

end Mode

/-- A priority that was not frozen is frozen after a move only if the move is
`ctdb_lock_handler` for it, and it read a 0 from the pipe or, at end of
file, took the uninitialised `c` for 0. -/
theorem freezeStep_becomes_frozen {s s' : FreezeState} {e : FreezeEvent} (p : Nat)
    (hstep : freezeStep s e = some s') (hbefore : s.freezeMode p ≠ .frozen)
    (hafter : s'.freezeMode p = .frozen) :
    ∃ garbage h, e = .lockHandler p garbage ∧ s.freezeHandles p = some h ∧
      (h.helper.pipe.head? = some 0 ∨ (h.helper.pipe = [] ∧ h.helper.exited = true ∧ garbage = 0)) := by
  cases e with
  | controlFreeze srvid reqid => exact absurd (ctdbControlFreeze_frozen hstep hafter) hbefore
  | controlThaw priority reqid =>
      cases hstep
      exact absurd (ctdbControlThaw_frozen hafter) hbefore
  | startFreeze q => exact absurd (ctdbStartFreeze_frozen hstep hafter) hbefore
  | helperLocked q => exact absurd (helperMove_mode hstep ▸ hafter) hbefore
  | helperFailed q => exact absurd (helperMove_mode hstep ▸ hafter) hbefore
  | helperExit q => exact absurd (helperMove_mode hstep ▸ hafter) hbefore
  | lockHandler q garbage =>
      simp only [freezeStep, ctdbLockHandler] at hstep
      split at hstep
      · cases hstep
      · next h hh =>
          split at hstep
          · next c rest hpipe =>
              cases hstep
              rcases ctdbFreezeLockHandler_frozen hafter with hq | ⟨rfl, -, hc⟩
              · exact absurd hq hbefore
              · refine ⟨garbage, h, rfl, hh, Or.inl ?_⟩
                rw [hpipe, beq_iff_eq.mp hc]
                rfl
          · next hpipe =>
              split at hstep
              · next hexit =>
                  cases hstep
                  rcases ctdbFreezeLockHandler_frozen hafter with hq | ⟨rfl, -, hg⟩
                  · exact absurd hq hbefore
                  · exact ⟨garbage, h, rfl, hh, Or.inr ⟨hpipe, hexit, beq_iff_eq.mp hg⟩⟩
              · cases hstep

/-- A helper that locked everything: reading its 0 freezes the priority. -/
theorem freezeStep_becomes_frozen_two :
    ∃ s s', freezeRun FreezeState.init [.controlFreeze 1 7, .helperLocked 1] = some s ∧
      freezeStep s (.lockHandler 1 5) = some s' ∧ s.freezeMode 1 ≠ .frozen ∧
      s'.freezeMode 1 = .frozen ∧
      ∃ garbage h, FreezeEvent.lockHandler 1 5 = .lockHandler 1 garbage ∧
        s.freezeHandles 1 = some h ∧
        (h.helper.pipe.head? = some 0 ∨ (h.helper.pipe = [] ∧ h.helper.exited = true ∧ garbage = 0)) :=
  ⟨_, _, rfl, rfl, by decide, rfl, freezeStep_becomes_frozen 1 rfl (by decide) rfl⟩

/-! ## What every reachable state keeps -/

/-- A priority has a freeze handle exactly when it is not thawed, and a
frozen priority has no waiter left. -/
structure FreezeInv (s : FreezeState) : Prop where
  handle_iff : ∀ p, (s.freezeHandles p).isSome = true ↔ s.freezeMode p ≠ .none
  frozen_waiters : ∀ p h, s.freezeHandles p = some h → s.freezeMode p = .frozen → h.waiters = []

namespace FreezeInv

variable {s : FreezeState}

theorem init : FreezeInv FreezeState.init :=
  ⟨fun _ => by simp [FreezeState.init], fun _ _ h => by cases h⟩

theorem reply (hi : FreezeInv s) (reqid : Nat) (status : Int) : FreezeInv (s.reply reqid status) :=
  ⟨hi.handle_iff, hi.frozen_waiters⟩

theorem destructor (hi : FreezeInv s) (p : Nat) (h : FreezeHandle) :
    FreezeInv (freezeHandleDestructor s p h) := by
  constructor
  · intro q
    simp only [freezeHandleDestructor, Function.update_apply]
    split
    · simp
    · exact hi.handle_iff q
  · intro q h' hq hfrozen
    simp only [freezeHandleDestructor, Function.update_apply] at hq hfrozen
    split at hq
    · cases hq
    · rw [if_neg ‹_›] at hfrozen
      exact hi.frozen_waiters q h' hq hfrozen

/-- The lock handler's callback keeps the invariant; in its frozen branch
the waiters are answered and the handle stays. -/
theorem lockHandler (hi : FreezeInv s) (p : Nat) (h : FreezeHandle) (locked : Bool) :
    FreezeInv (ctdbFreezeLockHandler s p h locked) := by
  unfold ctdbFreezeLockHandler
  split
  · exact hi.destructor p h
  split
  · exact hi.destructor p h
  constructor
  · intro q
    simp only [Function.update_apply]
    split
    · simp
    · exact hi.handle_iff q
  · intro q h' hq hfrozen
    simp only [Function.update_apply] at hq hfrozen
    split at hq
    · cases hq
      rfl
    · rw [if_neg ‹_›] at hfrozen
      exact hi.frozen_waiters q h' hq hfrozen

theorem startFreeze (hi : FreezeInv s) {p : Nat} {s' : FreezeState}
    (h : ctdbStartFreeze s p = some s') : FreezeInv s' := by
  unfold ctdbStartFreeze at h
  split at h
  · cases h
  split at h
  · cases h
    exact hi
  split at h
  · cases h
    constructor
    · intro q
      simp only [Function.update_apply]
      split
      · simp
      · exact hi.handle_iff q
    · intro q h' hq hfrozen
      simp only [Function.update_apply] at hq hfrozen
      split at hq
      · rw [if_pos ‹_›] at hfrozen
        cases hfrozen
      · rw [if_neg ‹_›] at hfrozen
        exact hi.frozen_waiters q h' hq hfrozen
  · cases h
    exact hi

/-- A waiter is queued only on a priority that is not frozen. -/
theorem controlFreeze (hi : FreezeInv s) {srvid : UInt64} {reqid : Nat} {s' : FreezeState}
    (h : ctdbControlFreeze s srvid reqid = some s') : FreezeInv s' := by
  dsimp only [ctdbControlFreeze] at h
  generalize (if srvid.toUInt32.toNat = 0 then 1 else srvid.toUInt32.toNat) = priority at h
  split at h
  · cases h
    exact hi.reply reqid (-1)
  split at h
  · cases h
    exact hi.reply reqid 0
  next hnot =>
    rw [Option.bind_eq_bind] at h
    obtain ⟨s₁, hs₁, h⟩ := Option.bind_eq_some_iff.mp h
    have hi₁ := hi.startFreeze hs₁
    have hnot₁ : s₁.freezeMode priority ≠ .frozen := fun hf => hnot (ctdbStartFreeze_frozen hs₁ hf)
    split at h
    · cases h
      exact hi₁.reply reqid (-1)
    · next hw hh =>
        cases h
        constructor
        · intro q
          simp only [Function.update_apply]
          split
          · next hq =>
              subst hq
              simpa [hh] using hi₁.handle_iff q
          · exact hi₁.handle_iff q
        · intro q h' hq hfrozen
          simp only [Function.update_apply] at hq
          split at hq
          · next hqp =>
              subst hqp
              exact absurd hfrozen hnot₁
          · exact hi₁.frozen_waiters q h' hq hfrozen

theorem thaw (hi : FreezeInv s) (p : Nat) : FreezeInv (thawPriority s p) := by
  unfold thawPriority
  split
  · exact hi.destructor p _
  · exact hi

theorem foldl_thaw : ∀ (ps : List Nat) {s : FreezeState}, FreezeInv s →
    FreezeInv (ps.foldl thawPriority s)
  | [], _, hi => hi
  | p :: ps, _, hi => foldl_thaw ps (hi.thaw p)

theorem controlThaw (hi : FreezeInv s) (priority : UInt32) (reqid : Nat) :
    FreezeInv (ctdbControlThaw s priority reqid) := by
  unfold ctdbControlThaw
  split
  · exact hi.reply reqid (-1)
  split
  · exact (foldl_thaw _ hi).reply reqid 0
  · exact (hi.thaw _).reply reqid 0

theorem helperMove (hi : FreezeInv s) {f : LockHelper → Option LockHelper} {p : Nat}
    {s' : FreezeState} (h : Ctdb.helperMove f s p = some s') : FreezeInv s' := by
  unfold Ctdb.helperMove at h
  split at h
  · cases h
  · next h₀ hh =>
      obtain ⟨hp, -, rfl⟩ := Option.map_eq_some_iff.mp h
      constructor
      · intro q
        simp only [Function.update_apply]
        split
        · next hq =>
            subst hq
            simpa [hh] using hi.handle_iff q
        · exact hi.handle_iff q
      · intro q h' hq hfrozen
        simp only [Function.update_apply] at hq
        split at hq
        · next hqp =>
            subst hqp
            cases hq
            exact hi.frozen_waiters q h₀ hh hfrozen
        · exact hi.frozen_waiters q h' hq hfrozen

theorem step (hi : FreezeInv s) {e : FreezeEvent} {s' : FreezeState}
    (h : freezeStep s e = some s') : FreezeInv s' := by
  cases e with
  | controlFreeze srvid reqid => exact hi.controlFreeze h
  | controlThaw priority reqid =>
      cases h
      exact hi.controlThaw priority reqid
  | startFreeze p => exact hi.startFreeze h
  | lockHandler p garbage =>
      simp only [freezeStep, ctdbLockHandler] at h
      split at h
      · cases h
      split at h
      · cases h
        exact hi.lockHandler p _ _
      split at h
      · cases h
        exact hi.lockHandler p _ _
      · cases h
  | helperLocked p => exact hi.helperMove h
  | helperFailed p => exact hi.helperMove h
  | helperExit p => exact hi.helperMove h

theorem run : ∀ (events : List FreezeEvent) {s s' : FreezeState}, FreezeInv s →
    freezeRun s events = some s' → FreezeInv s'
  | [], _, _, hi, h => by
      cases h
      exact hi
  | e :: events, s, s', hi, h => by
      rw [freezeRun, List.foldlM_cons] at h
      obtain ⟨s₁, hs₁, h⟩ := Option.bind_eq_some_iff.mp h
      exact run events (hi.step hs₁) h

end FreezeInv

/-- In every reachable state, whatever the helpers do and whatever the
uninitialised byte holds, a priority has a freeze handle exactly when its
mode is not `CTDB_FREEZE_NONE`, and a frozen priority has no queued waiter. -/
theorem freezeRun_handles {events : List FreezeEvent} {s : FreezeState}
    (h : freezeRun FreezeState.init events = some s) (p : Nat) :
    ((s.freezeHandles p).isSome = true ↔ s.freezeMode p ≠ .none) ∧
      ∀ handle, s.freezeHandles p = some handle → s.freezeMode p = .frozen → handle.waiters = [] :=
  have hi := FreezeInv.run events FreezeInv.init h
  ⟨hi.handle_iff p, hi.frozen_waiters p⟩

theorem freezeRun_handles_two :
    ∃ s, freezeRun FreezeState.init [.controlFreeze 1 7, .helperLocked 1, .lockHandler 1 5] =
        some s ∧
      (((s.freezeHandles 1).isSome = true ↔ s.freezeMode 1 ≠ .none) ∧
        ∀ handle, s.freezeHandles 1 = some handle → s.freezeMode 1 = .frozen →
          handle.waiters = []) :=
  ⟨_, rfl, @freezeRun_handles [.controlFreeze 1 7, .helperLocked 1, .lockHandler 1 5] _ rfl 1⟩

/-! ## A helper that exits without writing -/

theorem freeze_without_locks :
    ∃ s, freezeRun FreezeState.init
        [.controlFreeze 1 7, .helperExit 1, .lockHandler 1 0] = some s ∧
      s.freezeMode 1 = .frozen ∧ s.replies = [(7, 0)] ∧
      s.freezeHandles 1 = some ⟨⟨[], true, false⟩, []⟩ := by
  refine ⟨_, rfl, ?_, ?_, ?_⟩ <;> rfl

end Ctdb

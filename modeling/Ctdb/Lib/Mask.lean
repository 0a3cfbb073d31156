import Mathlib.Data.UInt

/-!
# Flag words

A 32-bit flag word is tested with `f &&& m`, set with `f ||| m` and cleared
with `f &&& ~~~m`. A proof about code that does this never needs more than
how a set or a clear of one mask looks through a test of another mask,
which depends only on whether the two masks share a bit. Each lemma here
is proved bit by bit, through `UInt32.toBitVec`.
-/

namespace Ctdb.Lib

theorem or_and_self (f m : UInt32) : (f ||| m) &&& m = m := by
  apply UInt32.toBitVec_inj.mp
  simp only [UInt32.toBitVec_and, UInt32.toBitVec_or]
  ext i hi
  simp only [BitVec.getElem_and, BitVec.getElem_or]
  grind

theorem and_not_and_self (f m : UInt32) : (f &&& ~~~m) &&& m = 0 := by
  apply UInt32.toBitVec_inj.mp
  simp only [UInt32.toBitVec_and, UInt32.toBitVec_not, UInt32.toBitVec_zero]
  ext i hi
  simp only [BitVec.getElem_and, BitVec.getElem_not, BitVec.getElem_zero]
  grind

/-- Clearing a mask leaves a test of a disjoint mask as it was. -/
theorem and_not_and_of_disjoint (f : UInt32) {m m' : UInt32} (h : m &&& m' = 0) :
    (f &&& ~~~m) &&& m' = f &&& m' := by
  apply UInt32.toBitVec_inj.mp
  have h' := congrArg UInt32.toBitVec h
  simp only [UInt32.toBitVec_and, UInt32.toBitVec_not, UInt32.toBitVec_zero] at h' ⊢
  ext i hi
  have hi' := congrArg (fun b => b[i]) h'
  simp only [BitVec.getElem_and, BitVec.getElem_not, BitVec.getElem_zero] at hi' ⊢
  grind

/-- Setting a mask leaves a test of a disjoint mask as it was. -/
theorem or_and_of_disjoint (f : UInt32) {m m' : UInt32} (h : m &&& m' = 0) :
    (f ||| m) &&& m' = f &&& m' := by
  apply UInt32.toBitVec_inj.mp
  have h' := congrArg UInt32.toBitVec h
  simp only [UInt32.toBitVec_and, UInt32.toBitVec_or, UInt32.toBitVec_zero] at h' ⊢
  ext i hi
  have hi' := congrArg (fun b => b[i]) h'
  simp only [BitVec.getElem_and, BitVec.getElem_or, BitVec.getElem_zero] at hi' ⊢
  grind

/-- Setting a mask that shares a bit with another makes the test of the other
nonzero. -/
theorem or_and_ne_zero (f : UInt32) {m m' : UInt32} (h : m &&& m' ≠ 0) : (f ||| m) &&& m' ≠ 0 := by
  intro h0
  apply h
  apply UInt32.toBitVec_inj.mp
  have h' := congrArg UInt32.toBitVec h0
  simp only [UInt32.toBitVec_and, UInt32.toBitVec_or, UInt32.toBitVec_zero] at h' ⊢
  ext i hi
  have hi' := congrArg (fun b => b[i]) h'
  simp only [BitVec.getElem_and, BitVec.getElem_or, BitVec.getElem_zero] at hi' ⊢
  grind

/-- Merging two words under a mask, the bits of `m` taken from `g`, tests
under `m` as `g` does. -/
theorem and_not_or_and_and_self (f g m : UInt32) : ((f &&& ~~~m) ||| (g &&& m)) &&& m = g &&& m := by
  apply UInt32.toBitVec_inj.mp
  simp only [UInt32.toBitVec_and, UInt32.toBitVec_or, UInt32.toBitVec_not]
  ext i hi
  simp only [BitVec.getElem_and, BitVec.getElem_or, BitVec.getElem_not]
  grind

/-- A word that misses a mask misses every part of it. -/
theorem and_eq_zero_of_submask {f m m' : UInt32} (h : f &&& m = 0) (hm : m' &&& m = m') : f &&& m' = 0 := by
  apply UInt32.toBitVec_inj.mp
  have h' := congrArg UInt32.toBitVec h
  have hm' := congrArg UInt32.toBitVec hm
  simp only [UInt32.toBitVec_and, UInt32.toBitVec_zero] at h' hm' ⊢
  ext i hi
  have hi' := congrArg (fun b => b[i]) h'
  have hmi := congrArg (fun b => b[i]) hm'
  simp only [BitVec.getElem_and, BitVec.getElem_zero] at hi' hmi ⊢
  grind

/-- Clearing a mask a word misses leaves the word. -/
theorem and_not_of_and_eq_zero {f m : UInt32} (h : f &&& m = 0) : f &&& ~~~m = f := by
  apply UInt32.toBitVec_inj.mp
  have h' := congrArg UInt32.toBitVec h
  simp only [UInt32.toBitVec_and, UInt32.toBitVec_not, UInt32.toBitVec_zero] at h' ⊢
  ext i hi
  have hi' := congrArg (fun b => b[i]) h'
  simp only [BitVec.getElem_and, BitVec.getElem_not, BitVec.getElem_zero] at hi' ⊢
  grind

/-- Setting a mask a word misses and clearing it again leaves the word. -/
theorem or_and_not_of_and_eq_zero {f m : UInt32} (h : f &&& m = 0) : (f ||| m) &&& ~~~m = f := by
  apply UInt32.toBitVec_inj.mp
  have h' := congrArg UInt32.toBitVec h
  simp only [UInt32.toBitVec_and, UInt32.toBitVec_or, UInt32.toBitVec_not, UInt32.toBitVec_zero] at h' ⊢
  ext i hi
  have hi' := congrArg (fun b => b[i]) h'
  simp only [BitVec.getElem_and, BitVec.getElem_or, BitVec.getElem_not, BitVec.getElem_zero] at hi' ⊢
  grind

end Ctdb.Lib

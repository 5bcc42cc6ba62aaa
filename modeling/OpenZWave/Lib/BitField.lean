import Mathlib.Algebra.Group.Nat.Defs
import Mathlib.Logic.Basic

/-!
# Fields of a word

A word is packed as a disjunction of values that are shifted to their places. A
field reads back what was put there, and nothing of the fields beside it. Masks
of fields, as C code writes them, are values of ones at the place of the field.
-/

namespace BitField

variable {W w v : Nat}

/-- A value at its place in a word. -/
def put (W pos : Nat) (x : BitVec w) : BitVec W := x.setWidth W <<< pos

/-- The field of `w` bits at a place. -/
def get (pos w : Nat) (word : BitVec W) : BitVec w := word.extractLsb' pos w

/-- The mask of a field. -/
def mask (W pos w : Nat) : BitVec W := put W pos (BitVec.allOnes w)

theorem getLsbD_put (pos : Nat) (x : BitVec w) (i : Nat) :
    (put W pos x).getLsbD i = (decide (i < W) && decide (pos ≤ i) && x.getLsbD (i - pos)) := by
  rw [put, BitVec.getLsbD_shiftLeft, BitVec.getLsbD_setWidth]
  by_cases hi : i < W
  · have hback : i - pos < W := by omega
    by_cases hpos : pos ≤ i
    · simp [hi, hpos, hback, Nat.not_lt.mpr hpos]
    · simp [hi, hpos, Nat.lt_of_not_le hpos]
  · simp [hi]

@[simp] theorem get_or (pos w : Nat) (x y : BitVec W) :
    get pos w (x ||| y) = get pos w x ||| get pos w y := by
  ext i hi
  simp [get]

/-- A field reads the value that was put there. -/
theorem get_put (pos : Nat) (x : BitVec w) (h : pos + w ≤ W) : get pos w (put W pos x) = x := by
  ext i hi
  have hin : pos + i < W := by omega
  rw [get, BitVec.getElem_extractLsb', getLsbD_put, Nat.add_sub_cancel_left,
    BitVec.getLsbD_eq_getElem hi]
  simp [hin]

/-- A field reads nothing of a value beside it. -/
theorem get_put_beside {pos pos' : Nat} (x : BitVec v) (h : pos' + v ≤ pos ∨ pos + w ≤ pos') :
    get pos w (put W pos' x) = 0 := by
  ext i hi
  rw [get, BitVec.getElem_extractLsb', getLsbD_put]
  rcases h with h | h
  · rw [BitVec.getLsbD_of_ge x _ (by omega)]
    simp
  · have hlow : ¬ pos' ≤ pos + i := by omega
    simp [hlow]

/-- What is left under the mask of a field, at its place, is the field. -/
theorem and_mask (pos w : Nat) (word : BitVec W) :
    word &&& mask W pos w = put W pos (get pos w word) := by
  ext i hi
  rw [BitVec.getElem_and, ← BitVec.getLsbD_eq_getElem hi, ← BitVec.getLsbD_eq_getElem hi, mask,
    ← BitVec.getLsbD_eq_getElem hi, getLsbD_put, getLsbD_put, BitVec.getLsbD_allOnes, get,
    BitVec.getLsbD_extractLsb']
  by_cases hpos : pos ≤ i
  · rw [Nat.add_sub_cancel' hpos]
    cases word.getLsbD i <;> simp [hi, hpos]
  · simp [hpos]

/-- A value moves down with its word when no bit of it is lost. -/
theorem put_ushiftRight {pos by' : Nat} (x : BitVec w) (hplace : by' ≤ pos) (h : pos + w ≤ W) :
    put W pos x >>> by' = put W (pos - by') x := by
  ext i hi
  rw [BitVec.getElem_ushiftRight, ← BitVec.getLsbD_eq_getElem hi, getLsbD_put, getLsbD_put]
  by_cases hpos : pos - by' ≤ i
  · have hup : pos ≤ by' + i := by omega
    have hsame : by' + i - pos = i - (pos - by') := by omega
    rw [hsame]
    by_cases hin : i - (pos - by') < w
    · have hword : by' + i < W := by omega
      simp [hi, hpos, hup, hword]
    · rw [BitVec.getLsbD_of_ge x _ (by omega)]
      simp
  · have hup : ¬ pos ≤ by' + i := by omega
    simp [hpos, hup]

/-- A value at the bottom of a word is the word, cut to its width. -/
theorem setWidth_put_zero (x : BitVec w) (h : w ≤ W) : (put W 0 x).setWidth w = x := by
  ext i hi
  have hin : i < W := by omega
  rw [BitVec.getElem_setWidth, getLsbD_put, Nat.sub_zero, BitVec.getLsbD_eq_getElem hi]
  simp [hin]

/-- Masking, shifting down and cutting reads a field. -/
theorem setWidth_and_mask (pos w : Nat) (word : BitVec W) (h : pos + w ≤ W) :
    ((word &&& mask W pos w) >>> pos).setWidth w = get pos w word := by
  rw [and_mask, put_ushiftRight _ (Nat.le_refl pos) h, Nat.sub_self,
    setWidth_put_zero _ (by omega)]

/-- Shifting down and cutting reads a field as well. -/
theorem setWidth_ushiftRight (pos w : Nat) (word : BitVec W) :
    (word >>> pos).setWidth w = get pos w word := by
  ext i hi
  rw [BitVec.getElem_setWidth, BitVec.getLsbD_ushiftRight, get, BitVec.getElem_extractLsb']

/-- The same of a number: under the mask of `w` bits from `pos` on are the bits of the
field, at their place. -/
theorem natAnd_mask (x pos w : Nat) :
    x &&& ((2 ^ w - 1) * 2 ^ pos) = x / 2 ^ pos % 2 ^ w * 2 ^ pos := by
  apply Nat.eq_of_testBit_eq
  intro i
  rw [Nat.testBit_and, Nat.testBit_mul_two_pow, Nat.testBit_mul_two_pow, Nat.testBit_two_pow_sub_one,
    Nat.testBit_mod_two_pow, Nat.testBit_div_two_pow]
  by_cases hpos : pos ≤ i
  · rw [Nat.sub_add_cancel hpos]
    simp [hpos, Bool.and_comm]
  · simp [hpos]

end BitField

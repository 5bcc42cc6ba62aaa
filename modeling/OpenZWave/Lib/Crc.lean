import Mathlib.Algebra.Field.ZMod
import Mathlib.Algebra.Polynomial.Div
import Mathlib.Algebra.Polynomial.Degree.Lemmas
import Mathlib.Data.ZMod.Basic
import Mathlib.Tactic.LinearCombination
import Mathlib.Tactic.Ring

/-!
# Cyclic redundancy checks

The bits of a word are the coefficients of a polynomial over the field of two elements.
A shift register multiplies by the variable, and takes away the generator when a bit
leaves it. What it holds after a message is the remainder of a polynomial on division by
the generator.
-/

namespace Crc

open Polynomial

variable {w k : ℕ}

/-! ## Words as polynomials -/

/-- The polynomial of a word. -/
noncomputable def toPoly (x : BitVec w) : (ZMod 2)[X] :=
  ∑ i ∈ Finset.range w, if x.getLsbD i then X ^ i else 0

theorem coeff_toPoly (x : BitVec w) (i : ℕ) :
    (toPoly x).coeff i = if x.getLsbD i then 1 else 0 := by
  have hterm : ∀ j, (if x.getLsbD j then (X : (ZMod 2)[X]) ^ j else 0).coeff i =
      if j = i then (if x.getLsbD i then 1 else 0) else 0 := by
    intro j
    rcases eq_or_ne j i with rfl | hne
    · rw [if_pos rfl]
      split <;> simp
    · rw [if_neg hne]
      split <;> simp [coeff_X_pow, hne.symm]
  rw [toPoly, finsetSum_coeff]
  simp only [hterm]
  rw [Finset.sum_ite_eq']
  split
  · rfl
  · rename_i hi
    rw [BitVec.getLsbD_of_ge x i (by simpa using hi)]
    rfl

theorem toPoly_xor (x y : BitVec w) : toPoly (x ^^^ y) = toPoly x + toPoly y := by
  ext i
  rw [coeff_add, coeff_toPoly, coeff_toPoly, coeff_toPoly, BitVec.getLsbD_xor]
  cases x.getLsbD i <;> cases y.getLsbD i <;> decide

theorem degree_toPoly_lt (x : BitVec w) : (toPoly x).degree < w := by
  rw [degree_lt_iff_coeff_zero]
  intro i hi
  rw [coeff_toPoly, BitVec.getLsbD_of_ge x i hi]
  rfl

theorem toPoly_injective : Function.Injective (toPoly (w := w)) := by
  intro x y h
  apply BitVec.eq_of_getLsbD_eq
  intro i _
  have hcoeff := congrArg (fun p => p.coeff i) h
  simp only [coeff_toPoly] at hcoeff
  cases hx : x.getLsbD i <;> cases hy : y.getLsbD i <;> simp_all

/-- The bit that leaves the word is the highest. -/
theorem toPoly_shiftLeft_one (x : BitVec w) :
    toPoly (x <<< 1) + (if x.msb then X ^ w else 0) = X * toPoly x := by
  ext i
  have hleaving : (if x.msb then (X : (ZMod 2)[X]) ^ w else 0).coeff i =
      if x.msb = true ∧ i = w then 1 else 0 := by
    cases x.msb <;> simp [coeff_X_pow]
  rw [coeff_add, coeff_toPoly, hleaving, BitVec.getLsbD_shiftLeft, BitVec.msb_eq_getLsbD_last]
  cases i with
  | zero =>
      cases w with
      | zero => simp
      | succ w => simp
  | succ i =>
      rw [coeff_X_mul, coeff_toPoly, Nat.add_sub_cancel]
      rcases lt_trichotomy (i + 1) w with hlt | rfl | hgt
      · simp [hlt, hlt.ne]
      · simp
      · rw [BitVec.getLsbD_of_ge x i (by omega)]
        simp [hgt.ne']

/-- A short word at the high end of a long one. -/
theorem toPoly_high (hk : k ≤ w) (b : BitVec k) :
    toPoly (b.setWidth w <<< (w - k)) = X ^ (w - k) * toPoly b := by
  ext i
  rw [coeff_toPoly, coeff_X_pow_mul', coeff_toPoly, BitVec.getLsbD_shiftLeft,
    BitVec.getLsbD_setWidth]
  rcases lt_or_ge i (w - k) with hlow | hhigh
  · simp [hlow, Nat.not_le.mpr hlow]
  · rw [if_pos hhigh]
    rcases lt_or_ge i w with hlt | hge
    · simp [hlt, Nat.not_lt.mpr hhigh, show i - (w - k) < w by omega]
    · rw [BitVec.getLsbD_of_ge b (i - (w - k)) (by omega)]
      simp

/-! ## The register -/

/-- The generator whose lower coefficients are `g`. -/
noncomputable def generator (g : BitVec w) : (ZMod 2)[X] := X ^ w + toPoly g

theorem generator_monic (g : BitVec w) : (generator g).Monic :=
  monic_X_pow_add (degree_toPoly_lt g)

theorem degree_generator (g : BitVec w) : (generator g).degree = w := by
  rw [generator, degree_add_eq_left_of_degree_lt]
  · exact degree_X_pow w
  · rw [degree_X_pow]
    exact degree_toPoly_lt g

/-- One place. -/
def shift (g x : BitVec w) : BitVec w := if x.msb then x <<< 1 ^^^ g else x <<< 1

/-- A word is added at the high end, and moved through. -/
def feed (g x : BitVec w) (b : BitVec k) : BitVec w :=
  (shift g)^[k] (x ^^^ b.setWidth w <<< (w - k))

theorem shift_xor (g x y : BitVec w) : shift g (x ^^^ y) = shift g x ^^^ shift g y := by
  have hmsb : (x ^^^ y).msb = (x.msb ^^ y.msb) := BitVec.msb_xor
  rw [shift, shift, shift, hmsb, BitVec.shiftLeft_xor_distrib]
  cases x.msb <;> cases y.msb <;>
    simp only [Bool.xor_self, Bool.false_xor, Bool.true_xor, Bool.not_false, Bool.false_eq_true,
      if_true, if_false]
  case false.true => ac_rfl
  case true.false => ac_rfl
  case true.true =>
      calc x <<< 1 ^^^ y <<< 1
          = x <<< 1 ^^^ y <<< 1 ^^^ (g ^^^ g) := by rw [BitVec.xor_self, BitVec.xor_zero]
        _ = x <<< 1 ^^^ g ^^^ (y <<< 1 ^^^ g) := by ac_rfl

theorem shifts_xor (g : BitVec w) (n : ℕ) (x y : BitVec w) :
    (shift g)^[n] (x ^^^ y) = (shift g)^[n] x ^^^ (shift g)^[n] y := by
  induction n generalizing x y with
  | zero => rfl
  | succ n ih => rw [Function.iterate_succ_apply, shift_xor, ih]; rfl

theorem generator_dvd_shift (g x : BitVec w) : generator g ∣ toPoly (shift g x) - X * toPoly x := by
  rw [← toPoly_shiftLeft_one, shift]
  cases x.msb with
  | false => simp
  | true =>
      refine ⟨-1, ?_⟩
      have htwo : (2 : (ZMod 2)[X]) = 0 := CharTwo.two_eq_zero
      rw [if_pos rfl, if_pos rfl, toPoly_xor, generator]
      linear_combination toPoly g * htwo

theorem generator_dvd_shifts (g : BitVec w) (n : ℕ) (x : BitVec w) :
    generator g ∣ toPoly ((shift g)^[n] x) - X ^ n * toPoly x := by
  induction n generalizing x with
  | zero => simp
  | succ n ih =>
      have hfirst := (generator_dvd_shift g x).mul_left (X ^ n)
      have hsum := dvd_add (ih (shift g x)) hfirst
      rw [Function.iterate_succ_apply]
      convert hsum using 1
      ring

theorem generator_dvd_feed (hk : k ≤ w) (g x : BitVec w) (b : BitVec k) :
    generator g ∣ toPoly (feed g x b) - (X ^ k * toPoly x + X ^ w * toPoly b) := by
  have hplaces : X ^ k * (X ^ (w - k) * toPoly b) = X ^ w * toPoly b := by
    rw [← mul_assoc, ← pow_add, Nat.add_sub_cancel' hk]
  have hfeed := generator_dvd_shifts g k (x ^^^ b.setWidth w <<< (w - k))
  rwa [toPoly_xor, toPoly_high hk, mul_add, hplaces] at hfeed

/-! ## Messages -/

/-- The polynomial of a message. -/
noncomputable def message (words : List (BitVec k)) : (ZMod 2)[X] :=
  words.foldl (fun p b => X ^ k * p + toPoly b) 0

theorem message_append (words : List (BitVec k)) (b : BitVec k) :
    message (words ++ [b]) = X ^ k * message words + toPoly b := by
  rw [message, List.foldl_append]
  rfl

/-- The register after a message is the remainder of the message, behind the words it
held at first. -/
theorem toPoly_foldl_feed (hk : k ≤ w) (g init : BitVec w) (words : List (BitVec k)) :
    toPoly (words.foldl (feed g) init) =
      (X ^ (k * words.length) * toPoly init + X ^ w * message words) %ₘ generator g := by
  have hdvd : generator g ∣ toPoly (words.foldl (feed g) init) -
      (X ^ (k * words.length) * toPoly init + X ^ w * message words) := by
    induction words using List.reverseRecOn with
    | nil => simp [message]
    | append_singleton words b ih =>
        have hbefore := ih.mul_left (X ^ k)
        have hsum := dvd_add (generator_dvd_feed hk g (words.foldl (feed g) init) b) hbefore
        rw [List.foldl_append, message_append, List.length_append]
        convert hsum using 1
        simp only [List.foldl_cons, List.foldl_nil, List.length_singleton]
        ring
  have hself : toPoly (words.foldl (feed g) init) %ₘ generator g =
      toPoly (words.foldl (feed g) init) := by
    rw [modByMonic_eq_self_iff (generator_monic g), degree_generator]
    exact degree_toPoly_lt _
  rw [← hself]
  exact modByMonic_eq_of_dvd_sub (generator_monic g) hdvd

end Crc

import Mathlib.Data.UInt
import OpenZWave.Defs

/-!
# Bit fields

`Bitfield` keeps its bits in words, and refuses every place beyond 31.
-/

namespace OpenZWave

structure Bitfield where
  bits : List UInt32
  numSetBits : UInt32

namespace Bitfield

def empty : Bitfield where
  bits := []
  numSetBits := 0

/-- `1 << (_idx & 0x1f)`. -/
def bit (idx : UInt8) : UInt32 := 1 <<< (idx &&& 0x1f).toUInt32

/-- `Bitfield::IsSet`. -/
def isSet (b : Bitfield) (idx : UInt8) : Bool :=
  if idx > 0x1f then false
  else
    match b.bits[(idx >>> 5).toNat]? with
    | none => false
    | some word => word &&& bit idx != 0

/-- `Bitfield::Set`. -/
def set (b : Bitfield) (idx : UInt8) : Bitfield × Bool :=
  if idx > 0x1f then (b, false)
  else if b.isSet idx then (b, true)
  else
    let newSize := (idx >>> 5).toNat + 1
    let bits := b.bits ++ List.replicate (newSize - b.bits.length) 0
    ({ bits := bits.modify (idx >>> 5).toNat (· ||| bit idx)
       numSetBits := b.numSetBits + 1 }, true)

/-- `Bitfield::Clear`. -/
def clear (b : Bitfield) (idx : UInt8) : Bitfield × Bool :=
  if idx > 0x1f then (b, false)
  else if b.isSet idx then
    ({ bits := b.bits.modify (idx >>> 5).toNat (· &&& ~~~bit idx)
       numSetBits := b.numSetBits - 1 }, true)
  else (b, true)

/-- The body of the loop of `Bitfield::SetValue`. -/
def assign (val : UInt32) (b : Bitfield) (i : Nat) : Bitfield :=
  if val &&& bit (UInt8.ofNat i) != 0 then (b.set (UInt8.ofNat i)).1
  else (b.clear (UInt8.ofNat i)).1

/-- `Bitfield::SetValue`. -/
def setValue (b : Bitfield) (val : UInt32) : Bitfield := (List.range 32).foldl (assign val) b

/-- `Bitfield::GetValue`: the words are shifted by eight places each. -/
def getValue (b : Bitfield) : UInt32 :=
  (b.bits.zipIdx.map fun entry => entry.1 <<< UInt32.ofNat (8 * entry.2)).sum

/-! ## Bits of a word -/

theorem toNat_le {idx : UInt8} (h : ¬idx > 0x1f) : idx.toNat ≤ 31 :=
  UInt8.le_iff_toNat_le.mp (UInt8.not_lt.mp h)

/-- Every place that is not refused is in the first word. -/
theorem word_eq_zero {idx : UInt8} (h : ¬idx > 0x1f) : (idx >>> 5).toNat = 0 := by
  have hle := toNat_le h
  have hshift : (idx >>> 5).toNat = idx.toNat / 32 := by
    rw [UInt8.toNat_shiftRight]
    exact Nat.shiftRight_eq_div_pow idx.toNat 5
  omega

theorem toBitVec_bit {idx : UInt8} (h : ¬idx > 0x1f) :
    (bit idx).toBitVec = BitVec.twoPow 32 idx.toNat := by
  have hle := toNat_le h
  have hmask : (idx.toNat &&& 31) % 32 = idx.toNat := by
    rw [Nat.and_two_pow_sub_one_eq_mod idx.toNat 5]
    omega
  rw [bit]
  simp [hmask, BitVec.twoPow]

theorem and_bit_ne_zero {idx : UInt8} (h : ¬idx > 0x1f) (word : UInt32) :
    (word &&& bit idx != 0) = word.toBitVec.getLsbD idx.toNat := by
  have hle := toNat_le h
  have hzero : word &&& bit idx = 0 ↔ word.toBitVec.getLsbD idx.toNat = false := by
    rw [← UInt32.toBitVec_inj, UInt32.toBitVec_and, toBitVec_bit h, BitVec.and_twoPow]
    cases word.toBitVec.getLsbD idx.toNat with
    | false => simp
    | true =>
        refine iff_of_false (fun hpow => ?_) (by simp)
        have hbit := congrArg (fun word : BitVec 32 => word.getLsbD idx.toNat) hpow
        simp [BitVec.getLsbD_twoPow] at hbit
        omega
  rw [Bool.eq_iff_iff, bne_iff_ne, ne_eq, hzero, Bool.not_eq_false]

theorem getLsbD_or_bit {idx : UInt8} (h : ¬idx > 0x1f) (word : UInt32) (place : Nat) :
    (word ||| bit idx).toBitVec.getLsbD place =
      (word.toBitVec.getLsbD place || decide (idx.toNat = place)) := by
  have hle := toNat_le h
  rw [UInt32.toBitVec_or, toBitVec_bit h, BitVec.getLsbD_or, BitVec.getLsbD_twoPow,
    decide_eq_true (Nat.lt_succ_of_le hle), Bool.true_and]

/-! ## What is set -/

/-- The first word, which is zero when there is none. -/
def word (b : Bitfield) : UInt32 := b.bits.headD 0

theorem isSet_eq {idx : UInt8} (b : Bitfield) (h : ¬idx > 0x1f) :
    b.isSet idx = b.word.toBitVec.getLsbD idx.toNat := by
  rw [isSet, if_neg h, word_eq_zero h, word]
  cases b.bits with
  | nil => simp
  | cons word rest => exact and_bit_ne_zero h word

theorem isSet_of_gt {idx : UInt8} (b : Bitfield) (h : idx > 0x1f) : b.isSet idx = false :=
  if_pos h

theorem word_set {idx : UInt8} (b : Bitfield) (h : ¬idx > 0x1f) (hunset : b.isSet idx = false) :
    (b.set idx).1.word = b.word ||| bit idx := by
  rw [set, if_neg h, hunset, word_eq_zero h, word, word]
  cases b.bits with
  | nil => simp
  | cons word rest => simp

/-- A place is set if it was set before, or if it is set now and was not refused. -/
theorem isSet_set (b : Bitfield) (idx other : UInt8) :
    (b.set idx).1.isSet other = true ↔
      b.isSet other = true ∨ idx = other ∧ idx ≤ 0x1f := by
  by_cases hidx : idx > 0x1f
  · rw [set, if_pos hidx]
    exact (or_iff_left fun h => UInt8.not_le.mpr hidx h.2).symm
  · cases hset : b.isSet idx with
    | true =>
        have hsame : (b.set idx).1 = b := by rw [set, if_neg hidx, if_pos hset]
        rw [hsame]
        exact (or_iff_left_of_imp fun h => h.1 ▸ hset).symm
    | false =>
        by_cases hother : other > 0x1f
        · rw [isSet_of_gt _ hother, isSet_of_gt _ hother]
          simp only [Bool.false_eq_true, false_or, false_iff]
          rintro ⟨rfl, -⟩
          exact hidx hother
        · rw [isSet_eq _ hother, isSet_eq _ hother, word_set b hidx hset, getLsbD_or_bit hidx,
            Bool.or_eq_true, decide_eq_true_iff, UInt8.toNat_inj]
          rw [and_iff_left (UInt8.not_lt.mp hidx)]

/-! ## Whole values -/

/-- There is one word at most, as all places that are not refused are in the first. -/
def OneWord (b : Bitfield) : Prop := b.bits.length ≤ 1

theorem getValue_of_oneWord {b : Bitfield} (h : b.OneWord) : b.getValue = b.word := by
  rw [getValue, word]
  match b, h with
  | ⟨[], _⟩, _ => rfl
  | ⟨[word], _⟩, _ =>
      change word <<< 0 + 0 = word
      rw [UInt32.add_zero, UInt32.shiftLeft_zero]

theorem oneWord_set {b : Bitfield} (h : b.OneWord) (idx : UInt8) : (b.set idx).1.OneWord := by
  rw [set]
  split
  · exact h
  · rename_i hidx
    split
    · exact h
    · rw [OneWord, List.length_modify, List.length_append, List.length_replicate, word_eq_zero hidx]
      have hone : b.bits.length ≤ 1 := h
      omega

theorem oneWord_clear {b : Bitfield} (h : b.OneWord) (idx : UInt8) : (b.clear idx).1.OneWord := by
  rw [clear]
  split
  · exact h
  · split
    · rwa [OneWord, List.length_modify]
    · exact h

theorem oneWord_setValue {b : Bitfield} (h : b.OneWord) (val : UInt32) :
    (b.setValue val).OneWord := by
  rw [setValue]
  generalize List.range 32 = places
  induction places generalizing b with
  | nil => exact h
  | cons place places ih =>
      apply ih
      rw [assign]
      split
      · exact oneWord_set h _
      · exact oneWord_clear h _

theorem getLsbD_word_set {idx : UInt8} (b : Bitfield) (h : ¬idx > 0x1f) (place : Nat) :
    (b.set idx).1.word.toBitVec.getLsbD place =
      (b.word.toBitVec.getLsbD place || decide (idx.toNat = place)) := by
  cases hset : b.isSet idx with
  | false => rw [word_set b h hset, getLsbD_or_bit h]
  | true =>
      rw [set, if_neg h, if_pos hset]
      rw [isSet_eq b h] at hset
      rcases eq_or_ne idx.toNat place with rfl | hne
      · rw [hset, Bool.true_or]
      · rw [decide_eq_false hne, Bool.or_false]

theorem getLsbD_word_clear {idx : UInt8} (b : Bitfield) (h : ¬idx > 0x1f) (place : Nat) :
    (b.clear idx).1.word.toBitVec.getLsbD place =
      (b.word.toBitVec.getLsbD place && !decide (idx.toNat = place)) := by
  cases hset : b.isSet idx with
  | false =>
      rw [clear, if_neg h, if_neg (by simp [hset])]
      rw [isSet_eq b h] at hset
      rcases eq_or_ne idx.toNat place with rfl | hne
      · rw [hset, Bool.false_and]
      · rw [decide_eq_false hne, Bool.not_false, Bool.and_true]
  | true =>
      have hword : (b.clear idx).1.word = b.word &&& ~~~bit idx := by
        rw [clear, if_neg h, if_pos hset, word_eq_zero h, word, word]
        cases b.bits with
        | nil => simp
        | cons word rest => simp
      rw [hword, UInt32.toBitVec_and, UInt32.toBitVec_not, toBitVec_bit h, BitVec.getLsbD_and,
        BitVec.getLsbD_not, BitVec.getLsbD_twoPow]
      have hle := toNat_le h
      by_cases hplace : place < 32
      · simp [hplace, Nat.lt_succ_of_le hle]
      · rw [BitVec.getLsbD_of_ge _ _ (Nat.le_of_not_lt hplace), Bool.false_and, Bool.false_and]

theorem word_foldl_assign (val : UInt32) (b : Bitfield) {count : Nat} (hcount : count ≤ 32)
    (place : Nat) :
    ((List.range count).foldl (assign val) b).word.toBitVec.getLsbD place =
      if place < count then val.toBitVec.getLsbD place else b.word.toBitVec.getLsbD place := by
  induction count with
  | zero => rfl
  | succ count ih =>
      have hidx : (UInt8.ofNat count).toNat = count :=
        UInt8.toNat_ofNat_of_lt' (Nat.lt_of_lt_of_le hcount (by decide))
      have hplaced : ¬UInt8.ofNat count > 0x1f := by
        rw [gt_iff_lt, UInt8.lt_iff_toNat_lt, hidx]
        exact Nat.not_lt_of_le (Nat.le_of_succ_le_succ hcount)
      have hbefore := ih (Nat.le_of_succ_le hcount)
      rw [List.range_succ, List.foldl_append, List.foldl_cons, List.foldl_nil]
      generalize (List.range count).foldl (assign val) b = b' at hbefore ⊢
      have hassign : (assign val b' count).word.toBitVec.getLsbD place =
          if count = place then val.toBitVec.getLsbD place
          else b'.word.toBitVec.getLsbD place := by
        rw [assign, and_bit_ne_zero hplaced, hidx]
        by_cases hplace : count = place
        · subst hplace
          cases hbit : val.toBitVec.getLsbD count <;>
            simp [getLsbD_word_set b' hplaced, getLsbD_word_clear b' hplaced, hidx]
        · cases hbit : val.toBitVec.getLsbD count <;>
            simp [getLsbD_word_set b' hplaced, getLsbD_word_clear b' hplaced, hidx, hplace]
      rw [hassign, hbefore]
      by_cases hplace : count = place
      · rw [if_pos hplace, if_pos (hplace ▸ Nat.lt_succ_self count)]
      · have hlt : place < count + 1 ↔ place < count := by omega
        rw [if_neg hplace]
        simp only [hlt]

/-- `GetValue` returns what was given to `SetValue`. -/
theorem getValue_setValue {b : Bitfield} (h : b.OneWord) (val : UInt32) :
    (b.setValue val).getValue = val := by
  rw [getValue_of_oneWord (oneWord_setValue h val), ← UInt32.toBitVec_inj]
  apply BitVec.eq_of_getLsbD_eq
  intro place hplace
  rw [setValue, word_foldl_assign val b (Nat.le_refl 32), if_pos hplace]

end Bitfield

end OpenZWave

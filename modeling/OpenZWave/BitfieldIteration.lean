import Mathlib.Algebra.BigOperators.Group.Finset.Basic
import Mathlib.Data.Finset.Sort
import Mathlib.Data.Nat.BitIndices
import OpenZWave.Bitfield
import OpenZWave.Lib.BitField
import OpenZWave.Lib.WhileLoop

/-!
# Iterating over a bit field

An `Iterator` moves from one set bit to the next by a loop that steps over a word in which
no bit is left. The bit field is compared with the set of the indexes that are set.
-/

namespace OpenZWave

open WhileLoop

namespace Bitfield

/-- The constructor from a value. -/
def ofValue (value : UInt32) : Bitfield :=
  (List.range 32).foldl
    (fun b i => if value &&& bit (UInt8.ofNat i) != 0 then (b.set (UInt8.ofNat i)).1 else b) empty

/-! ## Iterators -/

/-- `1 << (m_idx & 0x1f)`. -/
def place (idx : UInt32) : UInt32 := 1 <<< (idx &&& 0x1f)

/-- A turn of the loop of `NextSetBit`. -/
def nextTurn (b : Bitfield) (idx : UInt32) : UInt32 ⊕ UInt32 :=
  let idx := idx + 1
  match b.bits[(idx >>> 5).toNat]? with
  | none => .inl idx
  | some word =>
      if word &&& ~~~(place idx - 1) = 0 then .inr ((idx &&& 0xffffffe0) + 31)
      else if word &&& place idx != 0 then .inl idx
      else .inr idx

/-- `NextSetBit` moves an iterator from a place to another. -/
def NextSetBit (b : Bitfield) (idx idx' : UInt32) : Prop := Returns b.nextTurn idx idx'

/-- The constructor of an iterator, which moves it if it is given the place 0. -/
def IteratorAt (b : Bitfield) (idx idx' : UInt32) : Prop :=
  if idx = 0 ∧ b.isSet 0 = false then b.NextSetBit idx idx' else idx' = idx

/-- `Begin`. -/
def Begin (b : Bitfield) (idx : UInt32) : Prop := b.IteratorAt 0 idx

/-- `End`. -/
def End (b : Bitfield) (idx : UInt32) : Prop :=
  b.IteratorAt (UInt32.ofNat b.bits.length <<< 5) idx

/-- `++it`: the place of the iterator afterwards and that of the result. -/
def PreIncrement (b : Bitfield) (idx after result : UInt32) : Prop :=
  b.NextSetBit idx after ∧ result = after

/-- `it++`, which increments a copy and returns it. -/
def PostIncrement (b : Bitfield) (idx after result : UInt32) : Prop :=
  after = idx ∧ b.NextSetBit idx result

/-- The loop `for (it = start; it != stop; increment)` ends, and visits the places. -/
inductive Visits (increment : UInt32 → UInt32 → UInt32 → Prop) (stop : UInt32) :
    UInt32 → List UInt32 → Prop
  | stop : Visits increment stop stop []
  | visit {idx after result : UInt32} {places : List UInt32} : idx ≠ stop →
      increment idx after result → Visits increment stop after places →
      Visits increment stop idx (idx :: places)

/-- The loop from `Begin` to `End` visits the indexes. -/
def Iterates (b : Bitfield) (increment : UInt32 → UInt32 → UInt32 → Prop) (indexes : List ℕ) :
    Prop :=
  ∃ start stop, b.Begin start ∧ b.End stop ∧
    Visits increment stop start (indexes.map UInt32.ofNat)

end Bitfield

inductive BitfieldCall
  | new
  | ofValue (value : UInt32)
  | setValue (value : UInt32)
  | set (idx : UInt8)
  | clear (idx : UInt8)

namespace BitfieldCall

/-- The bit field after a call. -/
def call (b : Bitfield) : BitfieldCall → Bitfield
  | .new => .empty
  | .ofValue value => .ofValue value
  | .setValue value => b.setValue value
  | .set idx => (b.set idx).1
  | .clear idx => (b.clear idx).1

/-- The indexes that are set after a call; an index beyond 31 is refused. -/
def mark (indexes : Finset ℕ) : BitfieldCall → Finset ℕ
  | .new => ∅
  | .ofValue value => value.toNat.bitIndices.toFinset
  | .setValue value => value.toNat.bitIndices.toFinset
  | .set idx => if idx.toNat ≤ 31 then insert idx.toNat indexes else indexes
  | .clear idx => indexes.erase idx.toNat

end BitfieldCall

namespace Bitfield

/-- The bit field after calls. -/
def after (calls : List BitfieldCall) : Bitfield := calls.foldl BitfieldCall.call empty

/-- The indexes that were set last. -/
def lastSet (calls : List BitfieldCall) : Finset ℕ := calls.foldl BitfieldCall.mark ∅

/-- What a bit field is to be: the set of the indexes that were set last. -/
structure Represents (b : Bitfield) (indexes : Finset ℕ) : Prop where
  isSet : ∀ idx : UInt8, b.isSet idx = true ↔ idx.toNat ∈ indexes
  numSetBits : b.numSetBits.toNat = indexes.card
  getValue : b.getValue.toNat = ∑ i ∈ indexes, 2 ^ i
  preIncrement : b.Iterates b.PreIncrement indexes.sort
  postIncrement : b.Iterates b.PostIncrement indexes.sort
  postResult : ∀ i ∈ indexes, ∀ after result,
    b.PostIncrement (UInt32.ofNat i) after result → result = UInt32.ofNat i

/-! ## The set of indexes -/

/-- The indexes whose bits are set in the first word. -/
def places (b : Bitfield) : Finset ℕ := b.word.toNat.bitIndices.toFinset

/-- All bits are in the first word, and `m_numSetBits` counts them. -/
structure Consistent (b : Bitfield) : Prop where
  oneWord : b.OneWord
  counted : b.numSetBits.toNat = b.places.card

variable {b : Bitfield} {idx : UInt8}

theorem mem_places {i : ℕ} : i ∈ b.places ↔ b.word.toBitVec.getLsbD i = true := by
  rw [places, List.mem_toFinset, Nat.mem_bitIndices, ← BitVec.testBit_toNat]
  rfl

theorem lt_of_mem_places {i : ℕ} (h : i ∈ b.places) : i < 32 := by
  rw [mem_places] at h
  by_contra hge
  rw [BitVec.getLsbD_of_ge _ _ (Nat.not_lt.mp hge)] at h
  cases h

theorem card_places_le (b : Bitfield) : b.places.card ≤ 32 := by
  have hsub : b.places ⊆ Finset.range 32 := fun i hi => Finset.mem_range.mpr (lt_of_mem_places hi)
  exact (Finset.card_le_card hsub).trans_eq (Finset.card_range 32)

theorem isSet_iff_mem (b : Bitfield) (idx : UInt8) : b.isSet idx = true ↔ idx.toNat ∈ b.places := by
  by_cases h : idx > 0x1f
  · rw [isSet_of_gt b h]
    refine iff_of_false (by decide) fun hmem => ?_
    have hlt := lt_of_mem_places hmem
    have hgt : 31 < idx.toNat := UInt8.lt_iff_toNat_lt.mp h
    omega
  · rw [isSet_eq b h, mem_places]

theorem not_gt_iff : ¬idx > 0x1f ↔ idx.toNat ≤ 31 := by
  rw [gt_iff_lt, UInt8.not_lt, UInt8.le_iff_toNat_le]
  rfl

theorem places_set (b : Bitfield) (idx : UInt8) :
    (b.set idx).1.places = if idx.toNat ≤ 31 then insert idx.toNat b.places else b.places := by
  by_cases h : idx > 0x1f
  · rw [if_neg (fun hle => not_gt_iff.mpr hle h), set, if_pos h]
  · rw [if_pos (not_gt_iff.mp h)]
    ext i
    rw [mem_places, getLsbD_word_set b h, Finset.mem_insert, mem_places, Bool.or_eq_true,
      decide_eq_true_iff, or_comm, eq_comm]

theorem places_clear (b : Bitfield) (idx : UInt8) :
    (b.clear idx).1.places = b.places.erase idx.toNat := by
  by_cases h : idx > 0x1f
  · have hnot : idx.toNat ∉ b.places := by
      rw [← isSet_iff_mem, isSet_of_gt b h]
      decide
    rw [clear, if_pos h, Finset.erase_eq_of_notMem hnot]
  · ext i
    rw [mem_places, getLsbD_word_clear b h, Finset.mem_erase, mem_places, Bool.and_eq_true,
      Bool.not_eq_true', decide_eq_false_iff_not, and_comm, ne_comm]

theorem places_setValue (b : Bitfield) (value : UInt32) :
    (b.setValue value).places = value.toNat.bitIndices.toFinset := by
  ext i
  rw [mem_places, setValue, word_foldl_assign value b (Nat.le_refl 32), List.mem_toFinset,
    Nat.mem_bitIndices]
  by_cases h : i < 32
  · rw [if_pos h, ← BitVec.testBit_toNat]
    rfl
  · rw [if_neg h, BitVec.getLsbD_of_ge _ _ (Nat.not_lt.mp h), ← UInt32.toNat_toBitVec,
      BitVec.testBit_toNat, BitVec.getLsbD_of_ge _ _ (Nat.not_lt.mp h)]

/-- The loop of the constructor sets bits that are not set yet. -/
theorem ofValue_eq_setValue (value : UInt32) : ofValue value = empty.setValue value := by
  have hloop : ∀ count ≤ 32, (List.range count).foldl
      (fun b i => if value &&& bit (UInt8.ofNat i) != 0 then (b.set (UInt8.ofNat i)).1 else b)
        empty = (List.range count).foldl (assign value) empty := by
    intro count hcount
    induction count with
    | zero => rfl
    | succ count ih =>
        rw [List.range_succ, List.foldl_append, List.foldl_append, ih (Nat.le_of_succ_le hcount),
          List.foldl_cons, List.foldl_nil, List.foldl_cons, List.foldl_nil, assign]
        have hidx : (UInt8.ofNat count).toNat = count :=
          UInt8.toNat_ofNat_of_lt' (Nat.lt_of_lt_of_le hcount (by decide))
        have hbit := word_foldl_assign value empty (Nat.le_of_succ_le hcount) count
        rw [if_neg (Nat.lt_irrefl count)] at hbit
        generalize (List.range count).foldl (assign value) empty = b' at hbit ⊢
        have hunset : b'.isSet (UInt8.ofNat count) = false := by
          rw [isSet_eq b' (not_gt_iff.mpr (by omega)), hidx, hbit]
          exact BitVec.getLsbD_zero
        have hclear : (b'.clear (UInt8.ofNat count)).1 = b' := by
          rw [clear, hunset]
          split <;> rfl
        rw [hclear]
  exact hloop 32 (Nat.le_refl 32)

theorem places_empty : empty.places = ∅ := rfl

theorem consistent_empty : empty.Consistent := ⟨Nat.zero_le 1, rfl⟩

theorem Consistent.set (h : b.Consistent) (idx : UInt8) : (b.set idx).1.Consistent where
  oneWord := oneWord_set h.oneWord idx
  counted := by
    rw [places_set]
    cases hset : b.isSet idx with
    | true =>
        have hmem := (isSet_iff_mem b idx).mp hset
        have hle : idx.toNat ≤ 31 := Nat.le_of_lt_succ (lt_of_mem_places hmem)
        rw [if_pos hle, Finset.insert_eq_of_mem hmem, Bitfield.set, if_neg (not_gt_iff.mpr hle),
          if_pos hset]
        exact h.counted
    | false =>
        have hnot : idx.toNat ∉ b.places := by
          rw [← isSet_iff_mem, hset]
          decide
        rw [Bitfield.set]
        by_cases hidx : idx > 0x1f
        · rw [if_pos hidx, if_neg fun hle => not_gt_iff.mpr hle hidx]
          exact h.counted
        · have hcard := card_places_le b
          rw [if_neg hidx, hset, if_pos (not_gt_iff.mp hidx), Finset.card_insert_of_notMem hnot]
          have hsum : (b.numSetBits + 1).toNat = b.numSetBits.toNat + 1 := by
            rw [UInt32.toNat_add, h.counted]
            exact Nat.mod_eq_of_lt (by rw [UInt32.toNat_one]; omega)
          exact hsum.trans (congrArg (· + 1) h.counted)

theorem Consistent.clear (h : b.Consistent) (idx : UInt8) : (b.clear idx).1.Consistent where
  oneWord := oneWord_clear h.oneWord idx
  counted := by
    rw [places_clear]
    cases hset : b.isSet idx with
    | true =>
        have hmem := (isSet_iff_mem b idx).mp hset
        have hle : idx.toNat ≤ 31 := Nat.le_of_lt_succ (lt_of_mem_places hmem)
        have hpos : 0 < b.places.card := Finset.card_pos.mpr ⟨_, hmem⟩
        rw [Bitfield.clear, if_neg (not_gt_iff.mpr hle), if_pos hset, Finset.card_erase_of_mem hmem]
        have hone : (1 : UInt32) ≤ b.numSetBits := by
          rw [UInt32.le_iff_toNat_le, h.counted]
          exact hpos
        exact (UInt32.toNat_sub_of_le _ _ hone).trans (congrArg (· - 1) h.counted)
    | false =>
        have hnot : idx.toNat ∉ b.places := by
          rw [← isSet_iff_mem, hset]
          decide
        rw [Finset.erase_eq_of_notMem hnot, Bitfield.clear, hset]
        split <;> exact h.counted

theorem Consistent.setValue (h : b.Consistent) (value : UInt32) :
    (b.setValue value).Consistent := by
  rw [Bitfield.setValue]
  generalize List.range 32 = indexes
  induction indexes generalizing b with
  | nil => exact h
  | cons i indexes ih =>
      apply ih
      rw [assign]
      split
      · exact h.set _
      · exact h.clear _

/-- A call keeps the bit field consistent and marks what it sets. -/
theorem consistent_call (h : b.Consistent) (c : BitfieldCall) :
    (c.call b).Consistent ∧ (c.call b).places = c.mark b.places := by
  cases c with
  | new => exact ⟨consistent_empty, places_empty⟩
  | ofValue value =>
      rw [BitfieldCall.call, ofValue_eq_setValue]
      exact ⟨consistent_empty.setValue value, places_setValue _ _⟩
  | setValue value => exact ⟨h.setValue value, places_setValue _ _⟩
  | set idx => exact ⟨h.set idx, places_set b idx⟩
  | clear idx => exact ⟨h.clear idx, places_clear b idx⟩

theorem consistent_after (calls : List BitfieldCall) :
    (after calls).Consistent ∧ (after calls).places = lastSet calls := by
  induction calls using List.reverseRecOn with
  | nil => exact ⟨consistent_empty, places_empty⟩
  | append_singleton calls c ih =>
      rw [after, lastSet, List.foldl_append, List.foldl_append]
      have hcall := consistent_call ih.1 c
      rw [ih.2] at hcall
      exact hcall

theorem Consistent.getValue (h : b.Consistent) : b.getValue.toNat = ∑ i ∈ b.places, 2 ^ i := by
  rw [getValue_of_oneWord h.oneWord, places, List.sum_toFinset _ Nat.bitIndices_nodup,
    Nat.sum_map_two_pow_bitIndices]

theorem sort_places (b : Bitfield) : b.places.sort = b.word.toNat.bitIndices :=
  (List.toFinset_sort _ Nat.bitIndices_nodup).mpr Nat.bitIndices_sorted.sortedLE.pairwise

/-! ## From one bit to the next -/

/-- The places from one on, in ascending order. -/
def placesFrom (w k : ℕ) : List ℕ := w.bitIndices.filter (k ≤ ·)

theorem mem_placesFrom {w k i : ℕ} : i ∈ placesFrom w k ↔ w.testBit i = true ∧ k ≤ i := by
  rw [placesFrom, List.mem_filter, Nat.mem_bitIndices, decide_eq_true_iff]

theorem sortedLT_placesFrom (w k : ℕ) : (placesFrom w k).SortedLT :=
  (Nat.bitIndices_sorted.pairwise.filter _).sortedLT

theorem placesFrom_zero (w : ℕ) : placesFrom w 0 = w.bitIndices :=
  List.filter_eq_self.mpr fun _ _ => decide_eq_true (Nat.zero_le _)

theorem placesFrom_of_testBit {w k : ℕ} (h : w.testBit k = true) :
    placesFrom w k = k :: placesFrom w (k + 1) := by
  apply (sortedLT_placesFrom w k).eq_of_mem_iff
  · rw [List.sortedLT_iff_pairwise, List.pairwise_cons]
    refine ⟨fun i hi => ?_, (sortedLT_placesFrom w (k + 1)).pairwise⟩
    exact (mem_placesFrom.mp hi).2
  · intro i
    rw [List.mem_cons, mem_placesFrom, mem_placesFrom]
    constructor
    · rintro ⟨hbit, hle⟩
      rcases Nat.eq_or_lt_of_le hle with rfl | hlt
      · exact Or.inl rfl
      · exact Or.inr ⟨hbit, hlt⟩
    · rintro (rfl | ⟨hbit, hlt⟩)
      · exact ⟨h, Nat.le_refl i⟩
      · exact ⟨hbit, Nat.le_of_lt hlt⟩

theorem placesFrom_of_not_testBit {w k : ℕ} (h : w.testBit k = false) :
    placesFrom w k = placesFrom w (k + 1) := by
  apply (sortedLT_placesFrom w k).eq_of_mem_iff (sortedLT_placesFrom w (k + 1))
  intro i
  rw [mem_placesFrom, mem_placesFrom]
  refine and_congr_right fun hbit => ⟨fun hle => ?_, Nat.le_of_lt⟩
  rcases Nat.eq_or_lt_of_le hle with rfl | hlt
  · rw [h] at hbit
    cases hbit
  · exact hlt

theorem placesFrom_eq_nil_iff {w k : ℕ} : placesFrom w k = [] ↔ w < 2 ^ k := by
  rw [List.eq_nil_iff_forall_not_mem]
  constructor
  · intro hnone
    apply Nat.lt_pow_two_of_testBit
    intro i hi
    by_contra hbit
    exact hnone i (mem_placesFrom.mpr ⟨Bool.eq_true_of_not_eq_false hbit, hi⟩)
  · intro hlt i hi
    obtain ⟨hbit, hle⟩ := mem_placesFrom.mp hi
    have hge := Nat.ge_two_pow_of_testBit hbit
    have hpow : 2 ^ k ≤ 2 ^ i := Nat.pow_le_pow_right (by decide) hle
    omega

/-! ## The words of the loop -/

theorem toNat_place {idx : UInt32} (h : idx.toNat < 32) : (place idx).toNat = 2 ^ idx.toNat := by
  have hmask : idx.toNat &&& 31 = idx.toNat := by
    rw [Nat.and_two_pow_sub_one_eq_mod idx.toNat 5, Nat.mod_eq_of_lt h]
  have hpow : 2 ^ idx.toNat < 2 ^ 32 := Nat.pow_lt_pow_right (by decide) h
  rw [place, UInt32.toNat_shiftLeft, UInt32.toNat_and]
  simpa [hmask, Nat.mod_eq_of_lt h, Nat.shiftLeft_eq] using hpow

/-- No bit is left in the word from a place on. -/
theorem and_not_place_eq_zero {idx : UInt32} (h : idx.toNat < 32) (word : UInt32) :
    word &&& ~~~(place idx - 1) = 0 ↔ word.toNat < 2 ^ idx.toNat := by
  have hone : (1 : UInt32) ≤ place idx := by
    rw [UInt32.le_iff_toNat_le, toNat_place h]
    exact Nat.one_le_two_pow
  have hlow : (place idx - 1).toBitVec.toNat = 2 ^ idx.toNat - 1 :=
    (UInt32.toNat_sub_of_le _ _ hone).trans (congrArg (· - 1) (toNat_place h))
  have hbits : ∀ i < 32, (word &&& ~~~(place idx - 1)).toBitVec.getLsbD i =
      (word.toNat.testBit i && !decide (i < idx.toNat)) := by
    intro i hi
    rw [UInt32.toBitVec_and, UInt32.toBitVec_not, BitVec.getLsbD_and, BitVec.getLsbD_not,
      decide_eq_true hi, Bool.true_and, ← BitVec.testBit_toNat, ← BitVec.testBit_toNat, hlow,
      Nat.testBit_two_pow_sub_one]
    rfl
  constructor
  · intro hzero
    apply Nat.lt_pow_two_of_testBit
    intro i hi
    by_cases hword : i < 32
    · have hbit := hbits i hword
      rw [hzero, decide_eq_false (Nat.not_lt.mpr hi), Bool.not_false, Bool.and_true] at hbit
      exact hbit.symm.trans BitVec.getLsbD_zero
    · rw [← UInt32.toNat_toBitVec, BitVec.testBit_toNat]
      exact BitVec.getLsbD_of_ge _ _ (Nat.not_lt.mp hword)
  · intro hlt
    rw [← UInt32.toBitVec_inj]
    apply BitVec.eq_of_getLsbD_eq
    intro i hi
    rw [hbits i hi]
    by_cases hplace : i < idx.toNat
    · rw [decide_eq_true hplace, Bool.not_true, Bool.and_false]
      exact BitVec.getLsbD_zero.symm
    · have hpow : 2 ^ idx.toNat ≤ 2 ^ i := Nat.pow_le_pow_right (by decide) (Nat.not_lt.mp hplace)
      rw [Nat.testBit_lt_two_pow (Nat.lt_of_lt_of_le hlt hpow), Bool.false_and]
      exact BitVec.getLsbD_zero.symm

theorem and_place_ne_zero {idx : UInt32} (h : idx.toNat < 32) (word : UInt32) :
    (word &&& place idx != 0) = word.toNat.testBit idx.toNat := by
  have hidx : (UInt8.ofNat idx.toNat).toNat = idx.toNat :=
    UInt8.toNat_ofNat_of_lt' (Nat.lt_of_lt_of_le h (by decide))
  have hle : ¬UInt8.ofNat idx.toNat > 0x1f := not_gt_iff.mpr (hidx.symm ▸ Nat.le_of_lt_succ h)
  have hplace : place idx = bit (UInt8.ofNat idx.toNat) := by
    have hbit : (bit (UInt8.ofNat idx.toNat)).toBitVec.toNat = 2 ^ idx.toNat := by
      rw [toBitVec_bit hle, BitVec.toNat_twoPow, hidx,
        Nat.mod_eq_of_lt (Nat.pow_lt_pow_right (by decide) h)]
    exact UInt32.toNat_inj.mp ((toNat_place h).trans hbit.symm)
  rw [hplace, and_bit_ne_zero hle, hidx, ← BitVec.testBit_toNat]
  rfl

/-! ## The iterator -/

theorem toNat_succ {idx : UInt32} (h : idx.toNat < 32) : (idx + 1).toNat = idx.toNat + 1 := by
  rw [UInt32.toNat_add, Nat.mod_eq_of_lt]
  · rfl
  · rw [UInt32.toNat_one]
    omega

theorem toNat_word (idx : UInt32) : (idx >>> 5).toNat = idx.toNat / 32 := by
  rw [UInt32.toNat_shiftRight]
  exact Nat.shiftRight_eq_div_pow idx.toNat 5

theorem eq_of_toNat_eq {idx : UInt32} {i : ℕ} (h : idx.toNat = i) : idx = UInt32.ofNat i := by
  rw [← h, UInt32.ofNat_toNat]

/-- The place before the next word, for a place in the first one. -/
theorem last_of_first_word {idx : UInt32} (h : idx.toNat < 32) :
    (idx &&& 0xffffffe0) + 31 = 31 := by
  have hmask : idx.toNat &&& ((2 ^ 27 - 1) * 2 ^ 5) = 0 := by
    have hplace : idx.toNat / 2 ^ 5 = 0 := Nat.div_eq_of_lt h
    rw [BitField.natAnd_mask, hplace, Nat.zero_mod, Nat.zero_mul]
  have hzero : idx &&& 0xffffffe0 = 0 := by
    rw [← UInt32.toNat_inj, UInt32.toNat_and]
    exact hmask
  rw [hzero]
  rfl

/-- Of a bit field with one word, the iterator goes to the next place that is set, or to the
end of the word. -/
theorem nextSetBit_of_word {word : UInt32} (hbits : b.bits = [word]) {idx : UInt32}
    (h : idx.toNat < 32) :
    b.NextSetBit idx (UInt32.ofNat ((placesFrom word.toNat (idx.toNat + 1)).headD 32)) := by
  have hsucc := toNat_succ h
  have hend : ∀ idx : UInt32, idx.toNat = 31 → b.nextTurn idx = .inl 32 := by
    intro idx hidx
    have hnext : idx + 1 = 32 := by rw [eq_of_toNat_eq hidx]; rfl
    rw [nextTurn, hbits, hnext]
    rfl
  induction hleft : 31 - idx.toNat generalizing idx with
  | zero =>
      have hlast : idx.toNat = 31 := by omega
      have hnone : placesFrom word.toNat 32 = [] := placesFrom_eq_nil_iff.mpr word.toNat_lt
      rw [hlast, hnone]
      exact (returns_of_inl (hend idx hlast)).mpr rfl
  | succ left ih =>
      have hlt : (idx + 1).toNat < 32 := by omega
      have hfirst : b.bits[((idx + 1) >>> 5).toNat]? = some word := by
        rw [toNat_word, hbits, Nat.div_eq_of_lt hlt]
        rfl
      have hturn : b.nextTurn idx =
          if word.toNat < 2 ^ (idx.toNat + 1) then .inr 31
          else if word.toNat.testBit (idx.toNat + 1) = true then .inl (idx + 1)
          else .inr (idx + 1) := by
        simp only [nextTurn, hfirst, and_not_place_eq_zero hlt, and_place_ne_zero hlt,
          last_of_first_word hlt, hsucc]
      by_cases hnone : word.toNat < 2 ^ (idx.toNat + 1)
      · rw [if_pos hnone] at hturn
        rw [placesFrom_eq_nil_iff.mpr hnone]
        exact (returns_of_inr hturn).mpr ((returns_of_inl (hend 31 rfl)).mpr rfl)
      · rw [if_neg hnone] at hturn
        cases hbit : word.toNat.testBit (idx.toNat + 1) with
        | true =>
            rw [if_pos hbit] at hturn
            rw [placesFrom_of_testBit hbit]
            exact (returns_of_inl hturn).mpr (eq_of_toNat_eq hsucc)
        | false =>
            rw [if_neg (by simp [hbit])] at hturn
            rw [placesFrom_of_not_testBit hbit]
            have hrest := ih hlt (toNat_succ hlt) (by omega)
            rw [hsucc] at hrest
            exact (returns_of_inr hturn).mpr hrest

theorem isSet_zero_of_word {word : UInt32} (hbits : b.bits = [word]) :
    b.isSet 0 = word.toNat.testBit 0 := by
  rw [isSet_eq b (by decide), Bitfield.word, hbits, ← BitVec.testBit_toNat]
  rfl

theorem begin_of_word {word : UInt32} (hbits : b.bits = [word]) :
    b.Begin (UInt32.ofNat ((placesFrom word.toNat 0).headD 32)) := by
  rw [Begin, IteratorAt, isSet_zero_of_word hbits]
  cases hbit : word.toNat.testBit 0 with
  | true =>
      rw [if_neg (by simp), placesFrom_of_testBit hbit]
      rfl
  | false =>
      rw [if_pos ⟨rfl, rfl⟩, placesFrom_of_not_testBit hbit]
      exact nextSetBit_of_word hbits (by decide)

theorem end_of_word {word : UInt32} (hbits : b.bits = [word]) {stop : UInt32} :
    b.End stop ↔ stop = 32 := by
  have hplace : UInt32.ofNat b.bits.length <<< 5 = 32 := by rw [hbits]; rfl
  rw [End, hplace, IteratorAt, if_neg fun h => absurd h.1 (by decide)]

/-- Without a word, `Begin` and `End` are both moved to the place 1. -/
theorem begin_and_end_of_nil (hbits : b.bits = []) : b.Begin 1 ∧ b.End 1 := by
  have hturn : b.nextTurn 0 = .inl 1 := by rw [nextTurn, hbits]; rfl
  have hnext : b.NextSetBit 0 1 := (returns_of_inl hturn).mpr rfl
  have hunset : b.isSet 0 = false := by rw [isSet_eq b (by decide), Bitfield.word, hbits]; rfl
  have hplace : UInt32.ofNat b.bits.length <<< 5 = 0 := by rw [hbits]; rfl
  rw [Begin, End, hplace, IteratorAt, if_pos ⟨rfl, hunset⟩]
  exact ⟨hnext, hnext⟩

/-- The loop visits the places that are left. -/
theorem visits_placesFrom {word : UInt32} (hbits : b.bits = [word]) {k : ℕ} (hk : k ≤ 32) :
    Visits b.PreIncrement 32 (UInt32.ofNat ((placesFrom word.toNat k).headD 32))
      ((placesFrom word.toNat k).map UInt32.ofNat) := by
  induction hleft : 32 - k generalizing k with
  | zero =>
      have hend : k = 32 := by omega
      rw [hend, placesFrom_eq_nil_iff.mpr word.toNat_lt]
      exact .stop
  | succ left ih =>
      have hrest := @ih (k + 1) (by omega) (by omega)
      cases hbit : word.toNat.testBit k with
      | true =>
          have hplace : (UInt32.ofNat k).toNat = k := UInt32.toNat_ofNat_of_lt' (by
            rw [UInt32.size]
            omega)
          have hnext := @nextSetBit_of_word b word hbits (UInt32.ofNat k) (by omega)
          rw [hplace] at hnext
          rw [placesFrom_of_testBit hbit, List.map_cons, List.headD_cons]
          refine .visit ?_ ⟨hnext, rfl⟩ hrest
          intro heq
          have hsame : (32 : UInt32).toNat = k := heq ▸ hplace
          have hend : (32 : UInt32).toNat = 32 := rfl
          omega
      | false =>
          rw [placesFrom_of_not_testBit hbit]
          exact hrest

theorem OneWord.cases (h : b.OneWord) : b.bits = [] ∨ ∃ word, b.bits = [word] := by
  rw [OneWord] at h
  cases hbits : b.bits with
  | nil => exact Or.inl rfl
  | cons word rest =>
      rw [hbits, List.length_cons] at h
      have hrest : rest = [] := List.length_eq_zero_iff.mp (by omega)
      exact Or.inr ⟨word, by rw [hrest]⟩

/-- Prefix increments visit the set bits in ascending order. -/
theorem iterates_preIncrement (h : b.OneWord) : b.Iterates b.PreIncrement b.places.sort := by
  rw [sort_places]
  rcases h.cases with hnone | ⟨word, hbits⟩
  · obtain ⟨hbegin, hend⟩ := begin_and_end_of_nil hnone
    rw [Bitfield.word, hnone]
    exact ⟨1, 1, hbegin, hend, .stop⟩
  · have hword : b.word = word := by rw [Bitfield.word, hbits]; rfl
    refine ⟨_, 32, begin_of_word hbits, (end_of_word hbits).mpr rfl, ?_⟩
    rw [hword, ← placesFrom_zero]
    exact visits_placesFrom hbits (Nat.zero_le 32)

theorem iteratorAt_unique {idx i j : UInt32} (hi : b.IteratorAt idx i)
    (hj : b.IteratorAt idx j) : i = j := by
  rw [IteratorAt] at hi hj
  split at hi
  · rename_i hmoved
    rw [if_pos hmoved] at hj
    exact returns_unique hi hj
  · rename_i hkept
    rw [if_neg hkept] at hj
    exact hi.trans hj.symm

/-- A postfix increment does not move the iterator, and the loop does not end. -/
theorem not_visits_postIncrement {start stop : UInt32} {visited : List UInt32}
    (hne : start ≠ stop) : ¬ Visits b.PostIncrement stop start visited := by
  intro h
  induction h with
  | stop => exact hne rfl
  | visit _ hincrement _ ih => exact ih (hincrement.1.symm ▸ hne)

/-- Postfix increments visit the set bits only when there are none. -/
theorem iterates_postIncrement_iff (h : b.OneWord) :
    b.Iterates b.PostIncrement b.places.sort ↔ b.places = ∅ := by
  obtain ⟨start, stop, hbegin, hend, hvisits⟩ := iterates_preIncrement h
  constructor
  · rintro ⟨start', stop', hbegin', hend', hvisits'⟩
    obtain rfl := iteratorAt_unique hbegin hbegin'
    obtain rfl := iteratorAt_unique hend hend'
    cases hsort : b.places.sort with
    | nil =>
        have hall := Finset.sort_toFinset b.places (· ≤ ·)
        rw [hsort] at hall
        exact hall.symm
    | cons i rest =>
        rw [hsort, List.map_cons] at hvisits
        cases hvisits with
        | visit hne _ _ => exact absurd hvisits' (not_visits_postIncrement hne)
  · intro hnone
    have hsort : b.places.sort = [] := by rw [hnone, Finset.sort_empty]
    rw [hsort] at hvisits ⊢
    cases hvisits
    exact ⟨start, start, hbegin, hend, .stop⟩

/-- After any calls, the bit field is the set of the indexes that were set last exactly if
that set is empty: a postfix increment neither moves the iterator nor returns its place. -/
theorem represents_iff (calls : List BitfieldCall) :
    (after calls).Represents (lastSet calls) ↔ lastSet calls = ∅ := by
  obtain ⟨hconsistent, hplaces⟩ := consistent_after calls
  rw [← hplaces]
  constructor
  · intro h
    exact (iterates_postIncrement_iff hconsistent.oneWord).mp h.postIncrement
  · intro hnone
    refine ⟨isSet_iff_mem _, hconsistent.counted, hconsistent.getValue,
      iterates_preIncrement hconsistent.oneWord,
      (iterates_postIncrement_iff hconsistent.oneWord).mpr hnone, ?_⟩
    intro i hi
    rw [hnone] at hi
    exact absurd hi (Finset.notMem_empty i)

/-- One bit is set. -/
theorem postIncrement_stays : ¬ (after [.set 3]).Represents (lastSet [.set 3]) := by
  intro h
  obtain ⟨hconsistent, hplaces⟩ := consistent_after [.set 3]
  have hpost := h.postIncrement
  rw [← hplaces, iterates_postIncrement_iff hconsistent.oneWord, hplaces] at hpost
  exact absurd hpost (by decide)

end Bitfield

end OpenZWave

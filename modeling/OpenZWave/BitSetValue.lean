import OpenZWave.Configuration

/-!
# Bit sets

`ValueBitSet` keeps its number in a `Bitfield` and counts its bits from one. `SetBit`, `ClearBit`
and `Set` check the mask of the value and hand a copy to `Value::Set`. A reading goes through
`Value::VerifyRefreshedValue`, which takes its operands for bit fields; the class hands it the
plain numbers of the reading and of the target.
-/

namespace OpenZWave

open Bitfield

/-- What `VerifyRefreshedValue` gets as `void*`. -/
inductive Operand
  | bitfield (b : Bitfield)
  | number (n : UInt32)

namespace Operand

/-- `((Bitfield *) operand)->GetValue()`, which is undefined for a plain number. -/
def getValue : Operand → Option UInt32
  | bitfield b => some b.getValue
  | number _ => none

def equal (first second : Operand) : Option Bool :=
  first.getValue.bind fun x => second.getValue.map fun y => x == y

end Operand

/-- `ValueBitSet`, with the notifications and timers of its value. -/
structure BitSet where
  value : Bitfield
  valueCheck : Bitfield
  bitMask : UInt32
  size : UInt8
  targetValue : UInt32
  duration : UInt32
  targetValueSet : Bool
  isSet : Bool
  readOnly : Bool
  writeOnly : Bool
  verifyChanges : Bool
  checkChange : Bool
  notified : List ValueNotice
  timers : List Nat
  oneWord : value.OneWord
  oneWordCheck : valueCheck.OneWord

namespace BitSet

/-! ## Setting -/

/-- `1 << n`, which is undefined outside of the places of an `int`. -/
def shiftOne (n : ℤ) : Option UInt32 :=
  if 0 ≤ n ∧ n < 32 then some (1 <<< UInt32.ofNat n.toNat) else none

/-- `ValueBitSet::isValidBit`. -/
def isValidBit (v : BitSet) (idx : UInt8) : Option Bool :=
  (shiftOne (idx.toNat - 1)).map fun one => v.bitMask &&& one != 0

/-- `ValueBitSet::GetBit`. -/
def getBit (v : BitSet) (idx : UInt8) : Option Bool :=
  (v.isValidBit idx).map fun valid => if valid then v.value.isSet (idx - 1) else false

/-- `Value::Set` of a copy with another value, of which the class gets the number. -/
def submit (context : SetContext UInt32) (v : BitSet) (value : Bitfield) : Bool × List UInt32 :=
  context.submit v.readOnly value.getValue

/-- `ValueBitSet::Set`. -/
def set (context : SetContext UInt32) (v : BitSet) (value : UInt32) : Bool × List UInt32 :=
  if value &&& ~~~v.bitMask != 0 then (false, [])
  else v.submit context (v.value.setValue value)

/-- `ValueBitSet::SetBit`. -/
def setBit (context : SetContext UInt32) (v : BitSet) (idx : UInt8) : Option (Bool × List UInt32) :=
  (v.isValidBit idx).map fun valid =>
    if valid then v.submit context (v.value.set (idx - 1)).1 else (false, [])

/-- `ValueBitSet::ClearBit`. -/
def clearBit (context : SetContext UInt32) (v : BitSet) (idx : UInt8) : Option (Bool × List UInt32) :=
  (v.isValidBit idx).map fun valid =>
    if valid then v.submit context (v.value.clear (idx - 1)).1 else (false, [])

/-! ## Readings -/

/-- `Value::OnValueRefreshed`. -/
def notifyRefreshed (around : Surroundings) (v : BitSet) : BitSet :=
  if v.writeOnly then v
  else if around.driverReady then
    { v with
      isSet := true
      notified :=
        if around.suppressValueRefresh then v.notified else v.notified ++ [.valueRefreshed] }
  else v

/-- `Value::OnValueChanged`. -/
def notifyChanged (around : Surroundings) (v : BitSet) : BitSet :=
  if v.writeOnly then v
  else if around.driverReady then
    { v with isSet := true, notified := v.notified ++ [.valueChanged] }
  else v

def timerSetEvent (v : BitSet) (milliseconds : Nat) : BitSet :=
  { v with timers := v.timers ++ [milliseconds] }

/-- `Value::CheckTargetValue` with the type of a bit set. -/
def checkTargetValue (around : Surroundings) (v : BitSet) (newValue targetValue : Operand) :
    Option (BitSet × Verified) :=
  (Operand.equal targetValue newValue).map fun reached =>
    if reached then
      (({ v with targetValueSet := false } : BitSet).notifyChanged around, .confirmed)
    else if v.duration ≤ 2 then (v.timerSetEvent 250, .unchanged)
    else if v.duration ≤ 5 then (v.timerSetEvent 500, .unchanged)
    else (v.timerSetEvent 1000, .unchanged)

/-- `Value::VerifyRefreshedValue` with the type of a bit set. -/
def verifyRefreshedValue (around : Surroundings) (v : BitSet)
    (originalValue checkValue newValue targetValue : Operand) : Option (BitSet × Verified) :=
  if v.isSet = false then some (v.notifyChanged around, .confirmed)
  else if v.targetValueSet then v.checkTargetValue around newValue targetValue
  else
    (Operand.equal originalValue newValue).bind fun originalEqual =>
      if v.verifyChanges = false then
        some (if originalEqual then (v.notifyRefreshed around, .confirmed)
          else (v.notifyChanged around, .confirmed))
      else if v.checkChange = false then
        some (if originalEqual then (v.notifyRefreshed around, .unchanged)
          else (({ v with checkChange := true } : BitSet).timerSetEvent 250, .toBeConfirmed))
      else
        (Operand.equal checkValue newValue).map fun checkEqual =>
          if checkEqual then
            (({ v with checkChange := false } : BitSet).notifyChanged around, .confirmed)
          else if originalEqual then
            (({ v with checkChange := false } : BitSet).notifyRefreshed around, .unchanged)
          else (({ v with checkChange := true } : BitSet).timerSetEvent 250, .toBeConfirmed)

/-- `ValueBitSet::OnValueRefreshed`. -/
def onValueRefreshed (around : Surroundings) (v : BitSet) (value : UInt32) : Option BitSet :=
  (v.verifyRefreshedValue around (.bitfield v.value) (.bitfield v.valueCheck) (.number value)
      (.number v.targetValue)).map fun verified =>
    match verified with
    | (v, .unchanged) => v
    | (v, .toBeConfirmed) =>
        { v with
          valueCheck := v.valueCheck.setValue value
          oneWordCheck := oneWord_setValue v.oneWordCheck value }
    | (v, .confirmed) =>
        { v with
          value := v.value.setValue value
          oneWord := oneWord_setValue v.oneWord value }

/-! ## Numbers and masks -/

/-- `ValueBitSet::GetValue`. -/
def getValue (v : BitSet) : UInt32 := v.value.getValue

/-- What the client gets for a number, and what the class of the value is given. -/
def submission (context : SetContext UInt32) (v : BitSet) (number : UInt32) : Bool × List UInt32 :=
  if v.readOnly = false ∧ context.reachable = true then (context.setValue number, [number])
  else (false, [])

/-- The bit is one of the mask. -/
def InMask (v : BitSet) (idx : UInt8) : Prop :=
  1 ≤ idx.toNat ∧ idx.toNat ≤ 32 ∧ v.bitMask.toBitVec.getLsbD (idx.toNat - 1) = true

/-- All bits of the number are bits of the mask. -/
def Within (v : BitSet) (number : UInt32) : Prop :=
  ∀ place, number.toBitVec.getLsbD place = true → v.bitMask.toBitVec.getLsbD place = true

theorem submit_eq (context : SetContext UInt32) (v : BitSet) (value : Bitfield) :
    v.submit context value = v.submission context value.getValue := by
  rw [submit, submission, SetContext.submit]
  cases v.readOnly <;> cases context.reachable <;> simp

theorem within_iff (v : BitSet) (number : UInt32) :
    v.Within number ↔ number &&& ~~~v.bitMask = 0 := by
  rw [← UInt32.toBitVec_inj]
  constructor
  · intro h
    apply BitVec.eq_of_getLsbD_eq
    intro place hplace
    have hwithin := h place
    cases hnumber : number.toBitVec.getLsbD place with
    | false => simp [hnumber]
    | true => simp [hnumber, hplace, hwithin hnumber]
  · intro h place hnumber
    have hbit := congrArg (fun word : BitVec 32 => word.getLsbD place) h
    have hplace : place < 32 := BitVec.lt_of_getLsbD hnumber
    simpa [hnumber, hplace] using hbit

/-- `Set` submits what it is given, within the mask. -/
theorem set_eq (context : SetContext UInt32) (v : BitSet) (value : UInt32) :
    (v.Within value → v.set context value = v.submission context value) ∧
      (¬v.Within value → v.set context value = (false, [])) := by
  rw [within_iff]
  constructor
  · intro h
    rw [set, h, submit_eq, getValue_setValue v.oneWord]
    rfl
  · intro h
    exact if_pos (bne_iff_ne.mpr h)

/-! ## Single bits -/

theorem isValidBit_eq_none {v : BitSet} {idx : UInt8} (h : ¬(1 ≤ idx.toNat ∧ idx.toNat ≤ 32)) :
    v.isValidBit idx = none := by
  have hrange : ¬(0 ≤ (idx.toNat : ℤ) - 1 ∧ (idx.toNat : ℤ) - 1 < 32) := by omega
  rw [isValidBit, shiftOne, if_neg hrange]
  rfl

/-- The place of a bit that counts from one. -/
theorem toNat_place {idx : UInt8} (hone : 1 ≤ idx.toNat) : (idx - 1).toNat = idx.toNat - 1 :=
  UInt8.toNat_sub_of_le idx 1 (UInt8.le_iff_toNat_le.mpr hone)

theorem place_le {idx : UInt8} (hone : 1 ≤ idx.toNat) (hle : idx.toNat ≤ 32) :
    ¬idx - 1 > 0x1f := by
  rw [gt_iff_lt, UInt8.lt_iff_toNat_lt, toNat_place hone]
  exact Nat.not_lt_of_le (Nat.sub_le_sub_right hle 1)

theorem shiftOne_place {idx : UInt8} (hone : 1 ≤ idx.toNat) (hle : idx.toNat ≤ 32) :
    shiftOne (idx.toNat - 1) = some (bit (idx - 1)) := by
  have hrange : 0 ≤ (idx.toNat : ℤ) - 1 ∧ (idx.toNat : ℤ) - 1 < 32 := by omega
  rw [shiftOne, if_pos hrange]
  congr 1
  have hplace : ((idx.toNat : ℤ) - 1).toNat = (idx - 1).toNat := by
    rw [toNat_place hone]
    omega
  rw [← UInt32.toBitVec_inj, toBitVec_bit (place_le hone hle), hplace]
  have hlt : (idx - 1).toNat < 32 := by
    rw [toNat_place hone]
    omega
  generalize (idx - 1).toNat = place at hlt
  have hmod : place % 32 = place := Nat.mod_eq_of_lt hlt
  simp [BitVec.twoPow, hmod]

theorem isValidBit_eq {v : BitSet} {idx : UInt8} (hone : 1 ≤ idx.toNat) (hle : idx.toNat ≤ 32) :
    v.isValidBit idx = some (v.bitMask.toBitVec.getLsbD (idx.toNat - 1)) := by
  rw [isValidBit, shiftOne_place hone hle, Option.map_some,
    and_bit_ne_zero (place_le hone hle), toNat_place hone]

/-- The bit is set, cleared and read without another one, and refused out of the mask. -/
structure BitFramed (context : SetContext UInt32) (v : BitSet) (idx : UInt8) : Prop where
  sets : v.InMask idx → ∃ number, v.setBit context idx = some (v.submission context number) ∧
    ∀ place, number.toBitVec.getLsbD place =
      (v.getValue.toBitVec.getLsbD place || decide (place = idx.toNat - 1))
  clears : v.InMask idx → ∃ number, v.clearBit context idx = some (v.submission context number) ∧
    ∀ place, number.toBitVec.getLsbD place =
      (v.getValue.toBitVec.getLsbD place && !decide (place = idx.toNat - 1))
  reads : v.InMask idx → v.getBit idx = some (v.getValue.toBitVec.getLsbD (idx.toNat - 1))
  rejects : ¬v.InMask idx → v.setBit context idx = some (false, []) ∧
    v.clearBit context idx = some (false, []) ∧ v.getBit idx = some false

theorem bitFramed_of_le (context : SetContext UInt32) (v : BitSet) {idx : UInt8}
    (hone : 1 ≤ idx.toNat) (hle : idx.toNat ≤ 32) : v.BitFramed context idx where
  sets := by
    intro h
    refine ⟨(v.value.set (idx - 1)).1.getValue, ?_, ?_⟩
    · rw [setBit, isValidBit_eq hone hle, h.2.2, Option.map_some, if_pos rfl, submit_eq]
    · intro place
      rw [getValue, getValue_of_oneWord (oneWord_set v.oneWord _), getValue_of_oneWord v.oneWord,
        getLsbD_word_set _ (place_le hone hle), toNat_place hone]
      simp only [eq_comm]
  clears := by
    intro h
    refine ⟨(v.value.clear (idx - 1)).1.getValue, ?_, ?_⟩
    · rw [clearBit, isValidBit_eq hone hle, h.2.2, Option.map_some, if_pos rfl, submit_eq]
    · intro place
      rw [getValue, getValue_of_oneWord (oneWord_clear v.oneWord _), getValue_of_oneWord v.oneWord,
        getLsbD_word_clear _ (place_le hone hle), toNat_place hone]
      simp only [eq_comm]
  reads := by
    intro h
    rw [getBit, isValidBit_eq hone hle, h.2.2, Option.map_some, if_pos rfl,
      isSet_eq _ (place_le hone hle), toNat_place hone, getValue, getValue_of_oneWord v.oneWord]
  rejects := by
    intro h
    have hmask : v.bitMask.toBitVec.getLsbD (idx.toNat - 1) = false :=
      Bool.eq_false_iff.mpr fun hbit => h ⟨hone, hle, hbit⟩
    have hvalid : v.isValidBit idx = some false := by rw [isValidBit_eq hone hle, hmask]
    rw [setBit, clearBit, getBit, hvalid]
    exact ⟨rfl, rfl, rfl⟩

/-- The shift of `isValidBit` is defined for the bits from 1 to 32. -/
theorem bitFramed_iff (context : SetContext UInt32) (v : BitSet) (idx : UInt8) :
    v.BitFramed context idx ↔ 1 ≤ idx.toNat ∧ idx.toNat ≤ 32 := by
  constructor
  · intro h
    by_contra hrange
    have hreads := (h.rejects fun hmask => hrange ⟨hmask.1, hmask.2.1⟩).2.2
    rw [getBit, isValidBit_eq_none hrange] at hreads
    cases hreads
  · intro h
    exact bitFramed_of_le context v h.1 h.2

/-! ## Refreshed numbers -/

/-- The numbers of the value, which a reading is to be compared with. -/
def numbers (v : BitSet) : Value .int where
  value := v.value.getValue.toInt32
  valueCheck := v.valueCheck.getValue.toInt32
  targetValue := v.targetValue.toInt32
  duration := v.duration
  isSet := v.isSet
  writeOnly := v.writeOnly
  verifyChanges := v.verifyChanges
  checkChange := v.checkChange
  targetValueSet := v.targetValueSet
  notified := v.notified
  timers := v.timers

/-- The reading changes nothing as far as one can tell: no change is notified, and no other
reading is asked for. -/
def TreatsUnchanged (v v' : BitSet) : Prop :=
  v'.numbers.changes = v.numbers.changes ∧ v'.timers = v.timers

/-- The reading is verified as a number: by the number that is stored, or by the target. -/
structure Handles (around : Surroundings) (v : BitSet) (reading : UInt32) (v' : BitSet) : Prop where
  numbers : v'.numbers = v.numbers.refresh around reading.toInt32
  target : v.targetValueSet = true → (v'.targetValueSet = false ↔ reading = v.targetValue)
  unchanged : v.targetValueSet = false → v.numbers.Told around →
    (v.TreatsUnchanged v' ↔ reading = v.getValue)

/-- What a first reading leaves. -/
def first (around : Surroundings) (v : BitSet) (reading : UInt32) : BitSet :=
  { v.notifyChanged around with
    value := (v.notifyChanged around).value.setValue reading
    oneWord := oneWord_setValue (v.notifyChanged around).oneWord reading }

/-- A first reading is stored, and nothing is compared. -/
theorem onValueRefreshed_unset (around : Surroundings) {v : BitSet} (h : v.isSet = false)
    (reading : UInt32) :
    v.onValueRefreshed around reading = some (v.first around reading) := by
  rw [onValueRefreshed, verifyRefreshedValue, if_pos h]
  rfl

/-- The notification changes the two fields for notifications only. -/
theorem notifyChanged_eq (around : Surroundings) (v : BitSet) :
    ∃ isSet notified,
      v.notifyChanged around = { v with isSet := isSet, notified := notified } := by
  rw [notifyChanged]
  split
  · exact ⟨_, _, rfl⟩
  · split
    · exact ⟨_, _, rfl⟩
    · exact ⟨_, _, rfl⟩

@[simp] theorem notifyChanged_value (around : Surroundings) (v : BitSet) :
    (v.notifyChanged around).value = v.value := by
  obtain ⟨_, _, h⟩ := notifyChanged_eq around v
  rw [h]

@[simp] theorem notifyChanged_size (around : Surroundings) (v : BitSet) :
    (v.notifyChanged around).size = v.size := by
  obtain ⟨_, _, h⟩ := notifyChanged_eq around v
  rw [h]

@[simp] theorem notifyChanged_writeOnly (around : Surroundings) (v : BitSet) :
    (v.notifyChanged around).writeOnly = v.writeOnly := by
  obtain ⟨_, _, h⟩ := notifyChanged_eq around v
  rw [h]

@[simp] theorem notifyChanged_targetValueSet (around : Surroundings) (v : BitSet) :
    (v.notifyChanged around).targetValueSet = v.targetValueSet := by
  obtain ⟨_, _, h⟩ := notifyChanged_eq around v
  rw [h]

theorem notifyChanged_isSet (around : Surroundings) {v : BitSet} (h : v.isSet = false) :
    (v.notifyChanged around).isSet = (!v.writeOnly && around.driverReady) := by
  rw [notifyChanged]
  cases hwrite : v.writeOnly <;> cases hready : around.driverReady <;> simp [h]

theorem numbers_notifyChanged (around : Surroundings) (v : BitSet) :
    (v.notifyChanged around).numbers = v.numbers.onValueChanged around := by
  rw [notifyChanged, Value.onValueChanged]
  cases hwrite : v.writeOnly <;> cases hready : around.driverReady <;>
    simp [numbers, hwrite]

/-- A later one is compared as if it were a bit field. -/
theorem onValueRefreshed_set (around : Surroundings) {v : BitSet} (h : v.isSet = true)
    (reading : UInt32) : v.onValueRefreshed around reading = none := by
  rw [onValueRefreshed, verifyRefreshedValue, if_neg (by simp [h])]
  cases htarget : v.targetValueSet with
  | true => rfl
  | false => rfl

theorem numbers_first (around : Surroundings) {v : BitSet} (h : v.isSet = false)
    (reading : UInt32) :
    (v.first around reading).numbers = v.numbers.refresh around reading.toInt32 := by
  have hnumbers : (v.first around reading).numbers =
      { (v.notifyChanged around).numbers with value := reading.toInt32 } := by
    rw [first, numbers, getValue_setValue (v.notifyChanged around).oneWord]
    rfl
  have hunset : v.numbers.isSet = false := h
  rw [hnumbers, numbers_notifyChanged, Value.refresh, Value.verifyRefreshedValue, if_pos hunset]

theorem first_targetValueSet (around : Surroundings) (v : BitSet) (reading : UInt32) :
    (v.first around reading).targetValueSet = v.targetValueSet :=
  notifyChanged_targetValueSet around v

/-- A first reading is a change to those that can be told. -/
theorem not_treatsUnchanged_first {around : Surroundings} {v : BitSet} (h : v.isSet = false)
    (htold : v.numbers.Told around) (reading : UInt32) :
    ¬v.TreatsUnchanged (v.first around reading) := by
  have hunset : v.numbers.isSet = false := h
  rintro ⟨hchanges, -⟩
  rw [numbers_first around h, Value.refresh_told hunset htold, Value.changes, Value.changes,
    List.count_append, List.count_singleton_self] at hchanges
  exact absurd hchanges (Nat.succ_ne_self _)

/-- Only a first reading is handled, and it is a change whatever it is. -/
theorem handles_iff (around : Surroundings) (v : BitSet) (reading : UInt32) :
    (∃ v', v.onValueRefreshed around reading = some v' ∧ v.Handles around reading v') ↔
      v.isSet = false ∧ (v.targetValueSet = true → reading ≠ v.targetValue) ∧
        (v.targetValueSet = false → v.numbers.Told around → reading ≠ v.getValue) := by
  cases hset : v.isSet with
  | true =>
      rw [onValueRefreshed_set around hset]
      simp
  | false =>
      have hfirst : v.onValueRefreshed around reading = some (v.first around reading) :=
        onValueRefreshed_unset around hset reading
      constructor
      · rintro ⟨v', hv', hhandles⟩
        obtain rfl : v.first around reading = v' := Option.some.inj (hfirst.symm.trans hv')
        refine ⟨rfl, fun htarget hreading => ?_, fun htarget htold hreading => ?_⟩
        · have hreached := (hhandles.target htarget).mpr hreading
          rw [first_targetValueSet, htarget] at hreached
          exact Bool.noConfusion hreached
        · exact not_treatsUnchanged_first hset htold reading
            ((hhandles.unchanged htarget htold).mpr hreading)
      · rintro ⟨-, htarget, hstored⟩
        refine ⟨v.first around reading, hfirst, numbers_first around hset reading, ?_, ?_⟩
        · intro hwaits
          rw [first_targetValueSet, hwaits]
          exact iff_of_false Bool.noConfusion (htarget hwaits)
        · intro hwaits htold
          exact iff_of_false (not_treatsUnchanged_first hset htold reading) (hstored hwaits htold)

/-! ## The value as a configuration parameter -/

/-- What a configuration parameter keeps of the value. -/
def toValueBitSet (v : BitSet) : ValueBitSet where
  value := v.value
  size := v.size
  isSet := v.isSet
  writeOnly := v.writeOnly
  oneWord := v.oneWord

theorem onValueRefreshed_toValueBitSet (around : Surroundings) (v : BitSet) (reading : UInt32) :
    (v.onValueRefreshed around reading).map toValueBitSet =
      v.toValueBitSet.onValueRefreshed around reading := by
  rw [ValueBitSet.onValueRefreshed]
  cases hset : v.isSet with
  | true =>
      rw [onValueRefreshed_set around hset, if_pos (by simp [toValueBitSet, hset])]
      rfl
  | false =>
      rw [onValueRefreshed_unset around hset, if_neg (by simp [toValueBitSet, hset]),
        Option.map_some]
      simp [toValueBitSet, first, notifyChanged_isSet around hset]

end BitSet

/-! ## The whole value -/

/-- Numbers within the mask are submitted as they are. Bits are framed from 1 to 32, where the
shift is defined, and a reading is verified as a number when it is the first one, which is a
change whatever it is. -/
theorem bit_set_framed_iff (context : SetContext UInt32) (around : Surroundings) (v : BitSet)
    (idx : UInt8) (value : UInt32) :
    ((v.Within value → v.set context value = v.submission context value) ∧
        (¬v.Within value → v.set context value = (false, []))) ∧
      (v.BitFramed context idx ↔ 1 ≤ idx.toNat ∧ idx.toNat ≤ 32) ∧
      ((∃ v', v.onValueRefreshed around value = some v' ∧ v.Handles around value v') ↔
        v.isSet = false ∧ (v.targetValueSet = true → value ≠ v.targetValue) ∧
          (v.targetValueSet = false → v.numbers.Told around → value ≠ v.getValue)) :=
  ⟨BitSet.set_eq context v value, BitSet.bitFramed_iff context v idx,
    BitSet.handles_iff around v value⟩

/-- A bit set with all bits in its mask, whose number 5 has been read once. -/
def BitSet.readOnce : BitSet where
  value := ⟨[5], 2⟩
  valueCheck := Bitfield.empty
  bitMask := 0xFFFFFFFF
  size := 4
  targetValue := 0
  duration := 0
  targetValueSet := false
  isSet := true
  readOnly := false
  writeOnly := false
  verifyChanges := false
  checkChange := false
  notified := [.valueChanged]
  timers := []
  oneWord := Nat.le_refl 1
  oneWordCheck := Nat.zero_le 1

/-- The bits 0 and 33 are shifted out of range, and a second reading is compared as a bit
field. -/
theorem second_reading_compared_as_bitfield :
    BitSet.readOnce.setBit ⟨true, fun _ => true⟩ 0 = none ∧
      BitSet.readOnce.setBit ⟨true, fun _ => true⟩ 33 = none ∧
      BitSet.readOnce.onValueRefreshed ⟨true, false⟩ 5 = none :=
  ⟨rfl, rfl, rfl⟩

end OpenZWave

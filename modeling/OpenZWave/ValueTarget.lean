import OpenZWave.Value

/-!
# Values that wait for a target

`SetTargetValue` tells a value where a transition will end. Until a reading brings the
target, no reading is stored, and each one asks for another. Without a target, a
reading that the device repeats is stored.
-/

namespace OpenZWave

open Transition

namespace Value

variable {type : ValueType}

/-- `SetTargetValue` of the classes of values. -/
def setTargetValue (v : Value type) (target : type.Carrier) (duration : UInt32) : Value type :=
  { v with targetValueSet := true, targetValue := target, duration := duration }

/-- The value waits for a target, and the reading does not bring it. -/
def Awaits (v : Value type) (reading : type.Carrier) : Prop :=
  v.targetValueSet = true ∧ type.equal v.targetValue reading = false

/-- Changes of the value are verified. -/
def ChecksChanges (v : Value type) : Prop := type ≠ .schedule ∧ v.verifyChanges = true

/-- The watchers can be told of the value. -/
def Told (around : Surroundings) (v : Value type) : Prop :=
  v.writeOnly = false ∧ around.driverReady = true

/-- A set value without a target whose changes are verified. -/
structure Checked (v : Value type) : Prop where
  isSet : v.isSet = true
  noTarget : v.targetValueSet = false
  checks : v.ChecksChanges

variable {around : Surroundings} {v : Value type} {reading : type.Carrier}

/-! ## One reading -/

theorem onValueChanged_untold (h : ¬v.Told around) : v.onValueChanged around = v := by
  rw [onValueChanged]
  split
  · rfl
  · rename_i hreadable
    split
    · rename_i hready
      exact absurd ⟨Bool.eq_false_iff.mpr hreadable, hready⟩ h
    · rfl

theorem onValueChanged_told (h : v.Told around) :
    v.onValueChanged around =
      { v with isSet := true, notified := v.notified ++ [.valueChanged] } := by
  rw [onValueChanged, h.1, h.2]
  rfl

/-- The value is kept as it is, and another reading is asked for. -/
structure Kept (v v' : Value type) : Prop where
  value : v'.value = v.value
  checkChange : v'.checkChange = v.checkChange
  targetValue : v'.targetValue = v.targetValue
  targetValueSet : v'.targetValueSet = v.targetValueSet
  isSet : v'.isSet = v.isSet
  asks : v'.timers.length = v.timers.length + 1

/-- The reading is stored, and the value does not wait any longer. -/
structure Stored (reading : type.Carrier) (v v' : Value type) : Prop where
  value : v'.value = reading
  checkChange : v'.checkChange = v.checkChange
  isSet : v'.isSet = true
  noTarget : v'.targetValueSet = false
  checks : v'.ChecksChanges ↔ v.ChecksChanges

theorem refresh_untold (hset : v.isSet = false) (h : ¬v.Told around) (reading : type.Carrier) :
    v.refresh around reading = { v with value := reading } := by
  rw [refresh, verifyRefreshedValue, if_pos hset, onValueChanged_untold h]

theorem refresh_told (hset : v.isSet = false) (h : v.Told around) (reading : type.Carrier) :
    v.refresh around reading =
      { v with
        value := reading
        isSet := true
        notified := v.notified ++ [.valueChanged] } := by
  rw [refresh, verifyRefreshedValue, if_pos hset, onValueChanged_told h]

/-- The value that is verified: a schedule has given up its verification. -/
theorem verifyRefreshedValue_set (around : Surroundings) (hset : v.isSet = true) (reading : type.Carrier) :
    ∃ verify, (verify = true ↔ v.ChecksChanges) ∧
      v.verifyRefreshedValue around reading =
        let v := { v with verifyChanges := verify }
        if v.targetValueSet then v.checkTargetValue around reading
        else if verify = false then
          if type.equal v.value reading then (v.onValueRefreshed around, .confirmed)
          else (v.onValueChanged around, .confirmed)
        else if v.checkChange = false then
          if type.equal v.value reading then (v.onValueRefreshed around, .unchanged)
          else (({ v with checkChange := true } : Value type).timerSetEvent 250, .toBeConfirmed)
        else if type.equal v.valueCheck reading then
          (({ v with checkChange := false } : Value type).onValueChanged around, .confirmed)
        else if type.equal v.value reading then
          (({ v with checkChange := false } : Value type).onValueRefreshed around, .unchanged)
        else (({ v with checkChange := true } : Value type).timerSetEvent 250, .toBeConfirmed) := by
  by_cases hschedule : type = .schedule
  · refine ⟨false, by simp [ChecksChanges, hschedule], ?_⟩
    rw [verifyRefreshedValue, if_neg (by simp [hset]), if_pos hschedule]
  · refine ⟨v.verifyChanges, by simp [ChecksChanges, hschedule], ?_⟩
    rw [verifyRefreshedValue, if_neg (by simp [hset]), if_neg hschedule]

/-- A notification of a set value changes nothing but the log. -/
structure SameButLog (v v' : Value type) : Prop where
  value : v'.value = v.value
  valueCheck : v'.valueCheck = v.valueCheck
  verifyChanges : v'.verifyChanges = v.verifyChanges
  checkChange : v'.checkChange = v.checkChange
  targetValueSet : v'.targetValueSet = v.targetValueSet
  isSet : v'.isSet = true

theorem sameButLog_onValueChanged (around : Surroundings) (hset : v.isSet = true) :
    SameButLog v (v.onValueChanged around) := by
  by_cases htold : v.Told around
  · rw [onValueChanged_told htold]
    exact ⟨rfl, rfl, rfl, rfl, rfl, rfl⟩
  · rw [onValueChanged_untold htold]
    exact ⟨rfl, rfl, rfl, rfl, rfl, hset⟩

theorem sameButLog_onValueRefreshed (around : Surroundings) (hset : v.isSet = true) :
    SameButLog v (v.onValueRefreshed around) := by
  rw [onValueRefreshed]
  split
  · exact ⟨rfl, rfl, rfl, rfl, rfl, hset⟩
  · split
    · exact ⟨rfl, rfl, rfl, rfl, rfl, rfl⟩
    · exact ⟨rfl, rfl, rfl, rfl, rfl, hset⟩

theorem checkTargetValue_of_differs (around : Surroundings) (hdiffers : type.equal v.targetValue reading = false) :
    ∃ delay, v.checkTargetValue around reading = (v.timerSetEvent delay, .unchanged) := by
  rw [checkTargetValue, if_neg (by simp [hdiffers])]
  split
  · exact ⟨250, rfl⟩
  · split
    · exact ⟨500, rfl⟩
    · exact ⟨1000, rfl⟩

theorem kept_refresh (around : Surroundings) (hset : v.isSet = true) (h : v.Awaits reading) :
    Kept v (v.refresh around reading) := by
  obtain ⟨verify, -, heq⟩ := verifyRefreshedValue_set around hset reading
  obtain ⟨delay, htarget⟩ := checkTargetValue_of_differs around
    (v := { v with verifyChanges := verify }) h.2
  rw [refresh, heq]
  dsimp only
  rw [if_pos h.1, htarget]
  exact ⟨rfl, rfl, rfl, rfl, rfl, List.length_append⟩

theorem stored_refresh_target (around : Surroundings) (hset : v.isSet = true) (htarget : v.targetValueSet = true)
    (h : ¬v.Awaits reading) : Stored reading v (v.refresh around reading) := by
  have hequal : type.equal v.targetValue reading = true := by
    simpa [Awaits, htarget] using h
  have htype : type ≠ .schedule := by
    rintro rfl
    cases hequal
  obtain ⟨verify, hverify, heq⟩ := verifyRefreshedValue_set around hset reading
  have hsame := sameButLog_onValueChanged around
    (v := { v with verifyChanges := verify, targetValueSet := false }) hset
  rw [refresh, heq]
  dsimp only
  rw [if_pos htarget, checkTargetValue, if_pos hequal]
  refine ⟨rfl, hsame.checkChange, hsame.isSet, hsame.targetValueSet, ?_⟩
  rw [ChecksChanges, and_iff_right htype, ← hverify]
  exact iff_of_eq (congrArg (· = true) hsame.verifyChanges)

theorem stored_refresh_unchecked (around : Surroundings) (reading : type.Carrier) (hset : v.isSet = true) (htarget : v.targetValueSet = false)
    (h : ¬v.ChecksChanges) : Stored reading v (v.refresh around reading) := by
  obtain ⟨verify, hverify, heq⟩ := verifyRefreshedValue_set around hset reading
  have hfalse : verify = false := Bool.eq_false_iff.mpr fun htrue => h (hverify.mp htrue)
  subst hfalse
  have hstored : ∀ v' : Value type, SameButLog { v with verifyChanges := false } v' →
      Stored reading v { v' with value := reading } := by
    intro v' hsame
    refine ⟨rfl, hsame.checkChange, hsame.isSet, hsame.targetValueSet.trans htarget, ?_⟩
    refine iff_of_false (fun hchecks => ?_) h
    exact Bool.noConfusion (hchecks.2.symm.trans hsame.verifyChanges)
  rw [refresh, heq]
  dsimp only
  rw [if_neg (by simp [htarget]), if_pos rfl]
  by_cases hvalue : type.equal v.value reading = true
  · rw [if_pos hvalue]
    exact hstored _ (sameButLog_onValueRefreshed _ hset)
  · rw [if_neg hvalue]
    exact hstored _ (sameButLog_onValueChanged _ hset)

theorem SameButLog.checked {v' : Value type} (h : v.Checked) (hsame : SameButLog v v') :
    v'.Checked := by
  refine ⟨hsame.isSet, hsame.targetValueSet.trans h.noTarget, h.checks.1, ?_⟩
  exact hsame.verifyChanges.trans h.checks.2

theorem checked_refresh (around : Surroundings) (h : v.Checked) (reading : type.Carrier) :
    (v.refresh around reading).Checked ∧
      (v.refresh around reading).state = Confirmation.step type.equal v.state reading := by
  obtain ⟨verify, hverify, heq⟩ := verifyRefreshedValue_set around h.isSet reading
  have htrue : verify = v.verifyChanges := (hverify.mpr h.checks).trans h.checks.2.symm
  subst htrue
  have hchecked : ∀ checkChange, ({ v with checkChange := checkChange } : Value type).Checked :=
    fun _ => ⟨h.isSet, h.noTarget, h.checks⟩
  rw [refresh, heq, state, state]
  dsimp only
  rw [if_neg (by simp [h.noTarget]), if_neg (by simp [h.checks.2])]
  by_cases hcheck : v.checkChange = true
  · rw [if_neg (by simp [hcheck]), if_pos hcheck, Confirmation.step]
    by_cases hkept : type.equal v.valueCheck reading = true
    · have hsame := sameButLog_onValueChanged around
        (v := { v with checkChange := false }) h.isSet
      rw [if_pos hkept, if_pos hkept]
      dsimp only
      rw [if_neg (by simp [hsame.checkChange])]
      exact ⟨⟨hsame.isSet, hsame.targetValueSet.trans h.noTarget, h.checks.1,
        hsame.verifyChanges.trans h.checks.2⟩, rfl⟩
    · rw [if_neg hkept, if_neg hkept]
      by_cases hvalue : type.equal v.value reading = true
      · have hsame := sameButLog_onValueRefreshed around
          (v := { v with checkChange := false }) h.isSet
        rw [if_pos hvalue, if_pos hvalue]
        dsimp only
        rw [if_neg (by simp [hsame.checkChange]), hsame.value]
        exact ⟨hsame.checked (hchecked false), rfl⟩
      · rw [if_neg hvalue, if_neg hvalue]
        exact ⟨⟨h.isSet, h.noTarget, h.checks⟩, rfl⟩
  · rw [if_pos (by simpa using hcheck), if_neg hcheck, Confirmation.step]
    by_cases hvalue : type.equal v.value reading = true
    · have hsame := sameButLog_onValueRefreshed around h.isSet
      rw [if_pos hvalue, if_pos hvalue]
      dsimp only
      rw [hsame.checkChange, if_neg hcheck, hsame.value]
      exact ⟨hsame.checked h, rfl⟩
    · rw [if_neg hvalue, if_neg hvalue]
      exact ⟨⟨h.isSet, h.noTarget, h.checks⟩, rfl⟩

/-! ## The same reading again -/

/-- The stored value agrees with the reading. -/
def Agrees (v : Value type) (reading : type.Carrier) : Prop :=
  type.compared v.value = type.compared reading

/-- The reading is stored, or agrees with what was stored, and the check is over if
changes are verified. -/
structure Follows (reading : type.Carrier) (v v' : Value type) : Prop where
  agrees : v'.Agrees reading
  comesFrom : v'.value = reading ∨ v'.value = v.value
  checkChange : v'.checkChange = false ↔ v.checkChange = false ∨ v.ChecksChanges

/-- The readings of a device that reports the same again. -/
def repeated (around : Surroundings) (v : Value type) (reading : type.Carrier) (count : Nat) :
    Value type :=
  run (refresh around) v (List.replicate count reading)

theorem Checked.equal_iff (h : v.Checked) (first second : type.Carrier) :
    type.equal first second = true ↔ type.compared first = type.compared second :=
  ValueType.equal_iff h.checks.1 first second

theorem Follows.trans {v' v'' : Value type} (h : Follows reading v v')
    (hchecks : v'.ChecksChanges ↔ v.ChecksChanges) (h' : Follows reading v' v'') :
    Follows reading v v'' where
  agrees := h'.agrees
  comesFrom := by
    cases h'.comesFrom with
    | inl hvalue => exact .inl hvalue
    | inr hvalue => exact hvalue ▸ h.comesFrom
  checkChange := by
    rw [h'.checkChange, h.checkChange, hchecks]
    tauto

end Value

/-! ## Reports -/

end OpenZWave

import OpenZWave.Lib.Confirmation

/-!
# Values and their verification

A reading of a value goes through `Value::VerifyRefreshedValue`, which tells the
class of the value whether to store it, to keep it for a check, or to drop it. The
log, the refresh time and the refreshes of other values that a change triggers are
left out. So are bit sets: their class passes a plain integer where the
comparison reads a `Bitfield`. Buttons have no readings.
-/

namespace OpenZWave

open Transition

/-- The types of values whose readings are verified. -/
inductive ValueType
  | bool
  | byte
  | decimal
  | int
  | list
  | schedule
  | short
  | string
  | raw
  deriving DecidableEq

namespace ValueType

/-- What is stored: the characters of decimals and strings, the index of an item
of a list, nothing for a schedule. -/
abbrev Carrier : ValueType → Type
  | bool => Bool
  | byte => UInt8
  | short => Int16
  | int => Int32
  | list => Int
  | schedule => Unit
  | decimal | string | raw => List UInt8

/-- What a report brings: for a list, the value of an item. -/
abbrev Reading : ValueType → Type
  | list => Int32
  | bool => Bool
  | byte => UInt8
  | short => Int16
  | int => Int32
  | schedule => Unit
  | decimal | string | raw => List UInt8

end ValueType

/-- The characters before the first NUL. -/
def cString (characters : List UInt8) : List UInt8 :=
  characters.takeWhile fun character => character != 0

/-- `strcmp(..) == 0`. -/
def strcmpEqual (first second : List UInt8) : Bool := cString first == cString second

/-- First the lengths, then `memcmp` over the second length. -/
def rawEqual (first second : List UInt8) : Bool :=
  first.length == second.length && first.take second.length == second

/-- The comparison by type, which a schedule never reaches. -/
def ValueType.equal : (type : ValueType) → type.Carrier → type.Carrier → Bool
  | decimal => strcmpEqual
  | string => strcmpEqual
  | short => fun (first second : Int16) => first == second
  | list => fun (first second : Int) => first == second
  | int => fun (first second : Int32) => first == second
  | byte => fun (first second : UInt8) => first == second
  | bool => fun (first second : Bool) => first == second
  | raw => rawEqual
  | schedule => fun _ _ => false

inductive ValueNotice
  | valueChanged
  | valueRefreshed
  deriving DecidableEq

/-- What values look up elsewhere: whether the manager knows the driver as ready,
and the option `SuppressValueRefresh`. -/
structure Surroundings where
  driverReady : Bool
  suppressValueRefresh : Bool

/-- A value, with the notifications queued for it and the delays after which its
timer asks for a refresh. -/
structure Value (type : ValueType) where
  value : type.Carrier
  valueCheck : type.Carrier
  targetValue : type.Carrier
  duration : UInt32
  isSet : Bool
  writeOnly : Bool
  verifyChanges : Bool
  checkChange : Bool
  targetValueSet : Bool
  notified : List ValueNotice
  timers : List Nat

/-- The answer of `VerifyRefreshedValue`: 0, 1 or 2. -/
inductive Verified
  | unchanged
  | toBeConfirmed
  | confirmed
  deriving DecidableEq

namespace Value

variable {type : ValueType} (around : Surroundings)

/-- `Value::OnValueRefreshed`. -/
def onValueRefreshed (v : Value type) : Value type :=
  if v.writeOnly then v
  else if around.driverReady then
    { v with
      isSet := true
      notified :=
        if around.suppressValueRefresh then v.notified else v.notified ++ [.valueRefreshed] }
  else v

/-- `Value::OnValueChanged`. -/
def onValueChanged (v : Value type) : Value type :=
  if v.writeOnly then v
  else if around.driverReady then
    { v with isSet := true, notified := v.notified ++ [.valueChanged] }
  else v

/-- `TimerSetEvent` for `sendValueRefresh`. -/
def timerSetEvent (v : Value type) (milliseconds : Nat) : Value type :=
  { v with timers := v.timers ++ [milliseconds] }

/-- `Value::CheckTargetValue`. -/
def checkTargetValue (v : Value type) (newValue : type.Carrier) : Value type × Verified :=
  if type.equal v.targetValue newValue then
    (({ v with targetValueSet := false } : Value type).onValueChanged around, .confirmed)
  else if v.duration ≤ 2 then (v.timerSetEvent 250, .unchanged)
  else if v.duration ≤ 5 then (v.timerSetEvent 500, .unchanged)
  else (v.timerSetEvent 1000, .unchanged)

/-- `Value::VerifyRefreshedValue`. The first reading is taken as it is; a schedule
gives up its verification. -/
def verifyRefreshedValue (v : Value type) (newValue : type.Carrier) : Value type × Verified :=
  if v.isSet = false then (v.onValueChanged around, .confirmed)
  else
    let v := if type = .schedule then { v with verifyChanges := false } else v
    if v.targetValueSet then v.checkTargetValue around newValue
    else if v.verifyChanges = false then
      if type.equal v.value newValue then (v.onValueRefreshed around, .confirmed)
      else (v.onValueChanged around, .confirmed)
    else if v.checkChange = false then
      if type.equal v.value newValue then (v.onValueRefreshed around, .unchanged)
      else (({ v with checkChange := true } : Value type).timerSetEvent 250, .toBeConfirmed)
    else if type.equal v.valueCheck newValue then
      (({ v with checkChange := false } : Value type).onValueChanged around, .confirmed)
    else if type.equal v.value newValue then
      (({ v with checkChange := false } : Value type).onValueRefreshed around, .unchanged)
    else (({ v with checkChange := true } : Value type).timerSetEvent 250, .toBeConfirmed)

/-- What the class of a value does with the answer. -/
def refresh (v : Value type) (newValue : type.Carrier) : Value type :=
  match v.verifyRefreshedValue around newValue with
  | (v, .unchanged) => v
  | (v, .toBeConfirmed) => { v with valueCheck := newValue }
  | (v, .confirmed) => { v with value := newValue }

end Value

/-! ## The classes of values -/

def ValueBool.onValueRefreshed (around : Surroundings) (v : Value .bool) (value : Bool) :
    Value .bool := v.refresh around value

def ValueByte.onValueRefreshed (around : Surroundings) (v : Value .byte) (value : UInt8) :
    Value .byte := v.refresh around value

def ValueDecimal.onValueRefreshed (around : Surroundings) (v : Value .decimal)
    (value : List UInt8) : Value .decimal := v.refresh around value

def ValueInt.onValueRefreshed (around : Surroundings) (v : Value .int) (value : Int32) :
    Value .int := v.refresh around value

def ValueShort.onValueRefreshed (around : Surroundings) (v : Value .short) (value : Int16) :
    Value .short := v.refresh around value

def ValueString.onValueRefreshed (around : Surroundings) (v : Value .string)
    (value : List UInt8) : Value .string := v.refresh around value

def ValueRaw.onValueRefreshed (around : Surroundings) (v : Value .raw) (value : List UInt8) :
    Value .raw := v.refresh around value

def ValueSchedule.onValueRefreshed (around : Surroundings) (v : Value .schedule) :
    Value .schedule := v.refresh around ()

/-- `ValueList::GetItemIdxByValue`, over the values of the items. -/
def ValueList.getItemIdxByValue (items : List Int32) (value : Int32) : Int :=
  match items.findIdx? fun item => value == item with
  | some index => index
  | none => -1

/-- A reading that is not one of the items is dropped. -/
def ValueList.onValueRefreshed (around : Surroundings) (items : List Int32) (v : Value .list)
    (value : Int32) : Value .list :=
  let index := getItemIdxByValue items value
  if index < 0 then v else v.refresh around index

/-- A report for a value of any type. -/
def onValueRefreshed (around : Surroundings) (items : List Int32) :
    (type : ValueType) → Value type → type.Reading → Value type
  | .bool => ValueBool.onValueRefreshed around
  | .byte => ValueByte.onValueRefreshed around
  | .decimal => ValueDecimal.onValueRefreshed around
  | .int => ValueInt.onValueRefreshed around
  | .list => ValueList.onValueRefreshed around items
  | .schedule => fun v _ => ValueSchedule.onValueRefreshed around v
  | .short => ValueShort.onValueRefreshed around
  | .string => ValueString.onValueRefreshed around
  | .raw => ValueRaw.onValueRefreshed around

/-! ## Setting -/

/-- What `Value::Set` meets: whether the driver, the node and the class of the value are there,
and what `SetValue` of the class returns for a copy of the value. -/
structure SetContext (α : Type) where
  reachable : Bool
  setValue : α → Bool

/-- `Value::Set` of a copy: the result, and the copies that the class gets. -/
def SetContext.submit {α : Type} (context : SetContext α) (readOnly : Bool) (copy : α) :
    Bool × List α :=
  if readOnly then (false, [])
  else if context.reachable then (context.setValue copy, [copy])
  else (false, [])

/-! ## The comparisons -/

/-- The part of a stored value that comparisons look at. -/
def ValueType.compared : (type : ValueType) → type.Carrier → type.Carrier
  | decimal => cString
  | string => cString
  | bool | byte | short | int | list | schedule | raw => id

theorem rawEqual_iff (first second : List UInt8) :
    rawEqual first second = true ↔ first = second := by
  rw [rawEqual, Bool.and_eq_true, beq_iff_eq, beq_iff_eq]
  constructor
  · intro h
    obtain ⟨hlength, hbytes⟩ := h
    rwa [← hlength, List.take_length] at hbytes
  · intro h
    rw [h]
    exact ⟨rfl, List.take_length⟩

theorem ValueType.equal_iff {type : ValueType} (htype : type ≠ .schedule)
    (first second : type.Carrier) :
    type.equal first second = true ↔ type.compared first = type.compared second := by
  cases type with
  | decimal => exact beq_iff_eq
  | string => exact beq_iff_eq
  | raw => exact rawEqual_iff first second
  | schedule => exact absurd rfl htype
  | bool => exact beq_iff_eq
  | byte => exact beq_iff_eq
  | short => exact beq_iff_eq
  | int => exact beq_iff_eq
  | list => exact beq_iff_eq

/-- A confirmed reading differs from what it replaces. -/
theorem ValueType.ne_of_equal {type : ValueType} (htype : type ≠ .schedule)
    {value kept reading : type.Carrier} (hdiffers : type.equal value kept = false)
    (hequal : type.equal kept reading = true) : reading ≠ value := by
  intro h
  have hsame : type.equal value kept = true := by
    rw [equal_iff htype, ← h]
    exact ((equal_iff htype kept reading).mp hequal).symm
  exact Bool.noConfusion (hsame.symm.trans hdiffers)

/-! ## A value that is verified -/

namespace Value

variable {type : ValueType} {around : Surroundings}

/-- Changes are verified, watchers are told, and no target is waited for. -/
structure Verifies (around : Surroundings) (v : Value type) : Prop where
  known : around.driverReady = true
  readable : v.writeOnly = false
  verified : v.verifyChanges = true
  noTarget : v.targetValueSet = false

/-- The number of change notifications. -/
def changes (v : Value type) : Nat := v.notified.count .valueChanged

/-- The stored value, and the reading that is checked. -/
def state (v : Value type) : Confirmation.State type.Carrier :=
  if v.checkChange then .checking v.value v.valueCheck else .settled v.value

@[simp] theorem state_value (v : Value type) : v.state.value = v.value := by
  rw [state]
  split <;> rfl

theorem refresh_unset {v : Value type} (hv : v.Verifies around) (hset : v.isSet = false)
    (reading : type.Carrier) :
    v.refresh around reading =
      { v with
        value := reading
        isSet := true
        notified := v.notified ++ [.valueChanged] } := by
  simp only [refresh, verifyRefreshedValue, hset, if_true, onValueChanged, hv.readable, hv.known,
    Bool.false_eq_true, if_false]

/-- What a reading does to a value that is set. -/
theorem refresh_set (htype : type ≠ .schedule) {v : Value type} (hv : v.Verifies around)
    (hset : v.isSet = true) (reading : type.Carrier) :
    v.refresh around reading =
      if v.checkChange = true ∧ type.equal v.valueCheck reading = true then
        { v with
          value := reading
          checkChange := false
          notified := v.notified ++ [.valueChanged] }
      else if type.equal v.value reading = true then
        { v with
          checkChange := false
          notified :=
            if around.suppressValueRefresh then v.notified else v.notified ++ [.valueRefreshed] }
      else
        { v with
          valueCheck := reading
          checkChange := true
          timers := v.timers ++ [250] } := by
  obtain ⟨hknown, hreadable, hverified, hnoTarget⟩ := hv
  cases v with
  | mk value valueCheck targetValue duration isSet writeOnly verifyChanges checkChange targetValueSet
      notified timers =>
      subst hset hreadable hverified hnoTarget
      cases checkChange with
      | false =>
          by_cases hvalue : type.equal value reading = true
          · simp [refresh, verifyRefreshedValue, onValueRefreshed, htype, hvalue, hknown]
          · simp [refresh, verifyRefreshedValue, timerSetEvent, htype, hvalue]
      | true =>
          by_cases hkept : type.equal valueCheck reading = true
          · simp [refresh, verifyRefreshedValue, onValueChanged, htype, hkept, hknown]
          · by_cases hvalue : type.equal value reading = true
            · simp [refresh, verifyRefreshedValue, onValueRefreshed, htype, hkept, hvalue, hknown]
            · simp [refresh, verifyRefreshedValue, timerSetEvent, htype, hkept, hvalue]

/-- A set value follows the rule of two agreeing readings. -/
theorem state_refresh (htype : type ≠ .schedule) {v : Value type} (hv : v.Verifies around)
    (hset : v.isSet = true) (reading : type.Carrier) :
    (v.refresh around reading).state = Confirmation.step type.equal v.state reading := by
  rw [refresh_set htype hv hset]
  cases hcheck : v.checkChange with
  | false =>
      by_cases hvalue : type.equal v.value reading = true
      · simp [state, Confirmation.step, hcheck, hvalue]
      · simp [state, Confirmation.step, hcheck, hvalue]
  | true =>
      by_cases hkept : type.equal v.valueCheck reading = true
      · simp [state, Confirmation.step, hcheck, hkept]
      · by_cases hvalue : type.equal v.value reading = true
        · simp [state, Confirmation.step, hcheck, hkept, hvalue]
        · simp [state, Confirmation.step, hcheck, hkept, hvalue]

theorem refresh_verifies (htype : type ≠ .schedule) {v : Value type} (hv : v.Verifies around)
    (reading : type.Carrier) : (v.refresh around reading).Verifies around := by
  obtain ⟨hknown, hreadable, hverified, hnoTarget⟩ := hv
  cases hset : v.isSet with
  | false =>
      rw [refresh_unset ⟨hknown, hreadable, hverified, hnoTarget⟩ hset]
      exact ⟨hknown, hreadable, hverified, hnoTarget⟩
  | true =>
      rw [refresh_set htype ⟨hknown, hreadable, hverified, hnoTarget⟩ hset]
      split
      · exact ⟨hknown, hreadable, hverified, hnoTarget⟩
      · split <;> exact ⟨hknown, hreadable, hverified, hnoTarget⟩

theorem refresh_isSet (htype : type ≠ .schedule) {v : Value type} (hv : v.Verifies around)
    (reading : type.Carrier) : (v.refresh around reading).isSet = true := by
  cases hset : v.isSet with
  | false => rw [refresh_unset hv hset]
  | true =>
      rw [refresh_set htype hv hset]
      split
      · exact hset
      · split <;> exact hset

/-! ## Sequences of readings -/

/-- The value changes to a reading that agrees with the one before, and a change
notification goes with every change and with nothing else. -/
def ConfirmedStep (before : Option type.Carrier) (v : Value type) (reading : type.Carrier)
    (next : Value type) : Prop :=
  (next.value ≠ v.value →
      next.value = reading ∧ ∃ kept, before = some kept ∧ type.equal kept reading = true) ∧
    (next.changes = v.changes + 1 ∧ next.value ≠ v.value ∨
      next.changes = v.changes ∧ next.value = v.value)

/-- A reading of a verified value, where `before` is the reading before it. -/
structure VerifiedStep (before : Option type.Carrier) (v : Value type) (reading : type.Carrier)
    (next : Value type) : Prop where
  first : v.isSet = false →
    next.value = reading ∧ next.isSet = true ∧ next.notified = v.notified ++ [.valueChanged]
  confirmed : v.isSet = true → ConfirmedStep before v reading next
  rechecked : v.isSet = true → type.equal v.value reading = false →
    (∀ kept, before = some kept → type.equal kept reading = false) →
      next.value = v.value ∧ next.valueCheck = reading ∧ next.checkChange = true ∧
        next.timers = v.timers ++ [250]

/-- A value whose readings so far are `past`. -/
structure Tracked (around : Surroundings) (past : List type.Carrier) (v : Value type) : Prop where
  verifies : v.Verifies around
  follows : Confirmation.Follows type.equal past v.state
  idle : v.isSet = false → v.checkChange = false

theorem tracked_refresh (htype : type ≠ .schedule) {past : List type.Carrier} {v : Value type}
    (h : v.Tracked around past) (reading : type.Carrier) :
    (v.refresh around reading).Tracked around (past ++ [reading]) where
  verifies := refresh_verifies htype h.verifies reading
  follows := by
    cases hset : v.isSet with
    | false =>
        rw [refresh_unset h.verifies hset, state]
        simp only [h.idle hset, Bool.false_eq_true, if_false]
        trivial
    | true =>
        rw [state_refresh htype h.verifies hset]
        exact Confirmation.follows_step type.equal past v.state reading
  idle := by
    intro hunset
    exact Bool.noConfusion (hunset.symm.trans (refresh_isSet htype h.verifies reading))

theorem changes_refresh (htype : type ≠ .schedule) {past : List type.Carrier} {v : Value type}
    (h : v.Tracked around past) (hset : v.isSet = true) (reading : type.Carrier) :
    (v.refresh around reading).changes = v.changes + 1 ∧
        (v.refresh around reading).value ≠ v.value ∨
      (v.refresh around reading).changes = v.changes ∧
        (v.refresh around reading).value = v.value := by
  rw [refresh_set htype h.verifies hset]
  split
  · rename_i hconfirmed
    left
    have hfollows := h.follows
    rw [state, if_pos hconfirmed.1] at hfollows
    constructor
    · simp only [changes, List.count_append, List.count_singleton_self]
    · exact ValueType.ne_of_equal htype hfollows.2 hconfirmed.2
  · right
    split
    · refine ⟨?_, rfl⟩
      simp only [changes]
      split
      · rfl
      · rw [List.count_append]
        rfl
    · exact ⟨rfl, rfl⟩

theorem refresh_step (htype : type ≠ .schedule) {past : List type.Carrier} {v : Value type}
    (h : v.Tracked around past) (reading : type.Carrier) :
    VerifiedStep past.getLast? v reading (v.refresh around reading) where
  first := by
    intro hset
    rw [refresh_unset h.verifies hset]
    exact ⟨rfl, rfl, rfl⟩
  confirmed := by
    intro hset
    refine ⟨?_, changes_refresh htype h hset reading⟩
    intro hchanged
    rw [← state_value, ← state_value v, state_refresh htype h.verifies hset] at hchanged
    rw [← state_value, state_refresh htype h.verifies hset]
    obtain hsame | hconfirmed := Confirmation.step_value h.follows reading
    · exact absurd hsame hchanged
    · obtain ⟨hvalue, before, hlast, hagrees, -⟩ := hconfirmed
      exact ⟨hvalue, before, hlast, hagrees⟩
  rechecked := by
    intro hset hvalue hbefore
    have hkept : ¬(v.checkChange = true ∧ type.equal v.valueCheck reading = true) := by
      intro hkept
      have hfollows := h.follows
      rw [state, if_pos hkept.1] at hfollows
      exact Bool.noConfusion (hkept.2.symm.trans (hbefore v.valueCheck hfollows.1))
    rw [refresh_set htype h.verifies hset, if_neg hkept, hvalue]
    exact ⟨rfl, rfl, rfl, rfl⟩

end Value

/-- What a report brings to the stored value, if anything. -/
def ValueType.accepted (items : List Int32) : (type : ValueType) → type.Reading →
    Option type.Carrier
  | .list => fun reading =>
      if ValueList.getItemIdxByValue items reading < 0 then none
      else some (ValueList.getItemIdxByValue items reading)
  | .bool | .byte | .decimal | .int | .schedule | .short | .string | .raw => some

theorem onValueRefreshed_eq (around : Surroundings) (items : List Int32) (type : ValueType)
    (v : Value type) (reading : type.Reading) :
    onValueRefreshed around items type v reading =
      match type.accepted items reading with
      | none => v
      | some new => v.refresh around new := by
  cases type with
  | list =>
      by_cases hnone : ValueList.getItemIdxByValue items reading < 0
      · simp only [onValueRefreshed, ValueList.onValueRefreshed, ValueType.accepted, hnone, if_true]
      · simp only [onValueRefreshed, ValueList.onValueRefreshed, ValueType.accepted, hnone, if_false]
  | bool => rfl
  | byte => rfl
  | decimal => rfl
  | int => rfl
  | schedule => rfl
  | short => rfl
  | string => rfl
  | raw => rfl

theorem tracked_run {around : Surroundings} (items : List Int32) {type : ValueType}
    (htype : type ≠ .schedule) {past : List type.Carrier} {v : Value type}
    (h : v.Tracked around past) (readings : List type.Reading) :
    (run (onValueRefreshed around items type) v readings).Tracked around
      (past ++ readings.filterMap (type.accepted items)) := by
  induction readings generalizing past v with
  | nil => simpa using h
  | cons reading readings ih =>
      rw [run_cons, onValueRefreshed_eq, List.filterMap_cons]
      cases type.accepted items reading with
      | none => exact ih h
      | some new =>
          have hnext := ih (v.tracked_refresh htype h new)
          rwa [List.append_assoc] at hnext

/-- The first reading is stored and told. From then on the stored value changes to
a reading that the one before it already brought, every other new reading is
checked again, and the change notifications are those of the changes. -/
theorem readings_verified (around : Surroundings) (items : List Int32) {type : ValueType}
    (htype : type ≠ .schedule) {v : Value type} (hv : v.Verifies around)
    (hidle : v.checkChange = false) (past : List type.Reading) (reading : type.Reading) :
    let s := run (onValueRefreshed around items type) v past
    match type.accepted items reading with
    | none => onValueRefreshed around items type s reading = s
    | some new =>
        Value.VerifiedStep (past.filterMap (type.accepted items)).getLast? s new
          (onValueRefreshed around items type s reading) := by
  intro s
  have hstart : v.Tracked around [] := by
    refine ⟨hv, ?_, fun _ => hidle⟩
    simp only [Value.state, hidle, Bool.false_eq_true, if_false]
    trivial
  have htracked : s.Tracked around (past.filterMap (type.accepted items)) :=
    tracked_run items htype hstart past
  rw [onValueRefreshed_eq]
  cases type.accepted items reading with
  | none => rfl
  | some new => exact Value.refresh_step htype htracked new

/-- A dimmer level that no report has set yet. -/
def freshLevel : Value .byte where
  value := 0
  valueCheck := 0
  targetValue := 0
  duration := 0
  isSet := false
  writeOnly := false
  verifyChanges := true
  checkChange := false
  targetValueSet := false
  notified := []
  timers := []

def readyDriver : Surroundings := ⟨true, false⟩

/-- The level is set to 20, then read as 99 twice. -/
theorem readings_verified_twice :
    @Value.VerifiedStep .byte (some 99)
      (run (onValueRefreshed readyDriver [] .byte) freshLevel [20, 99]) 99
      (onValueRefreshed readyDriver [] .byte
        (run (onValueRefreshed readyDriver [] .byte) freshLevel [20, 99]) 99) :=
  @readings_verified readyDriver [] .byte (by decide) freshLevel ⟨rfl, rfl, rfl, rfl⟩ rfl [20, 99] 99

/-- A first reading is stored without a second one, and told even when it is the
value already stored. -/
theorem firstReading_not_confirmed :
    ¬Value.ConfirmedStep none freshLevel 5 (ValueByte.onValueRefreshed readyDriver freshLevel 5) ∧
      ¬Value.ConfirmedStep none freshLevel 0
        (ValueByte.onValueRefreshed readyDriver freshLevel 0) := by
  constructor
  · intro h
    obtain ⟨-, kept, hkept, -⟩ := h.1 (by decide)
    cases hkept
  · intro h
    obtain ⟨-, hchanged⟩ | ⟨hnone, -⟩ := h.2
    · exact hchanged rfl
    · exact absurd hnone (by decide)

end OpenZWave

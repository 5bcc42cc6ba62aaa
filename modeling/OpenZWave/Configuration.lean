import OpenZWave.Bitfield
import OpenZWave.SendDataRequests
import OpenZWave.ValueTarget

/-!
# Configuration parameters

`SetValue` sends the number of a value in the size of its type, and `HandleMsg` makes a
value of the number of a report. The number of a report is read without a sign.
-/

namespace OpenZWave

open BigEndian CommandClass

/-! ## Values of parameters -/

/-- `ValueBitSet`. Its check and its target are left out: what compares with them takes a
plain number for a `Bitfield`. -/
structure ValueBitSet where
  value : Bitfield
  size : UInt8
  isSet : Bool
  writeOnly : Bool
  oneWord : value.OneWord

/-- `ValueList`, with the values of its items. -/
structure ValueList where
  value : Value .list
  items : List Int32
  size : UInt8

/-- A value of a configuration parameter. -/
inductive ConfigValue
  | bitSet (v : ValueBitSet)
  | bool (v : Value .bool)
  | byte (v : Value .byte)
  | short (v : Value .short)
  | int (v : Value .int)
  | list (v : ValueList)
  | button (pressed : Bool)
  | other

/-- The values of a node by instance and parameter. -/
abbrev ConfigValues := UInt8 → UInt16 → Option ConfigValue

/-- A value that is made for a report, with its number and a check of zero. -/
def Value.created {type : ValueType} (value zero : type.Carrier) (verifyChanges : Bool) :
    Value type where
  value := value
  valueCheck := zero
  targetValue := zero
  duration := 0
  isSet := false
  writeOnly := false
  verifyChanges := verifyChanges
  checkChange := false
  targetValueSet := false
  notified := []
  timers := []

/-- `ValueBitSet::OnValueRefreshed`: the first reading is stored. A later one, which is a plain
number, is compared as if it were a `Bitfield`: that is undefined. -/
def ValueBitSet.onValueRefreshed (around : Surroundings) (v : ValueBitSet) (reading : UInt32) :
    Option ValueBitSet :=
  if v.isSet then none
  else
    some { v with
      value := v.value.setValue reading
      isSet := !v.writeOnly && around.driverReady
      oneWord := Bitfield.oneWord_setValue v.oneWord reading }

/-- `ValueList::GetItem`: an index without an item is noticed by the test, or by `at`. -/
def ValueList.getItem (v : ValueList) : Option Int32 :=
  if v.value.value < 0 then none else v.items[v.value.value.toNat]?

namespace ConfigValues

def put (values : ConfigValues) (inst : UInt8) (parameter : UInt16) (c : ConfigValue) :
    ConfigValues :=
  fun inst' parameter' =>
    if inst' = inst ∧ parameter' = parameter then some c else values inst' parameter'

@[simp] theorem put_self (values : ConfigValues) (inst : UInt8) (parameter : UInt16)
    (c : ConfigValue) : values.put inst parameter c inst parameter = some c :=
  if_pos ⟨rfl, rfl⟩

end ConfigValues

namespace Configuration

def cmdReport : UInt8 := 0x06

/-- `Configuration::SetValue`. -/
def setValue (sender : Sender) (id : ℕ) (param : UInt16) : ConfigValue → Bool × List SendData
  | .bitSet v => (true, [set sender id param v.value.getValue.toInt32 v.size])
  | .bool v => (true, [set sender id param (if v.value then 1 else 0) 1])
  | .byte v => (true, [set sender id param (UInt8.toUInt32 v.value).toInt32 1])
  | .short v => (true, [set sender id param (Int16.toInt32 v.value) 2])
  | .int v => (true, [set sender id param v.value 4])
  | .list v =>
      match v.getItem with
      | none => (true, [])
      | some item => (true, [set sender id param item v.size])
  | .button pressed => (true, [set sender id param (if pressed then 1 else 0) 1])
  | .other => (false, [])

/-- The size and the number of a report. -/
def reportSize (data : ℕ → UInt8) : UInt8 := data 2 &&& 0x07

def reportNumber (data : ℕ → UInt8) : Int32 :=
  (shiftIn ((List.range (reportSize data).toNat).map fun i => data (i + 3))).toInt32

/-- A report for a value of the node, by the type of the value. -/
def refresh (around : Surroundings) (paramValue : Int32) : ConfigValue → Option ConfigValue
  | .bitSet v => (v.onValueRefreshed around paramValue.toUInt32).map .bitSet
  | .bool v => some (.bool (ValueBool.onValueRefreshed around v (paramValue != 0)))
  | .byte v => some (.byte (ValueByte.onValueRefreshed around v paramValue.toUInt32.toUInt8))
  | .short v => some (.short (ValueShort.onValueRefreshed around v paramValue.toInt16))
  | .int v => some (.int (ValueInt.onValueRefreshed around v paramValue))
  | .list v =>
      some (.list { v with value := ValueList.onValueRefreshed around v.items v.value paramValue })
  | c => some c

/-- The value that is created for a parameter without one. -/
def create (verifyChanges : Bool) (size : UInt8) (paramValue : Int32) : Option ConfigValue :=
  if size = 1 then
    some (.byte (@Value.created .byte paramValue.toUInt32.toUInt8 (0 : UInt8) verifyChanges))
  else if size = 2 then
    some (.short (@Value.created .short paramValue.toInt16 (0 : Int16) verifyChanges))
  else if size = 4 then some (.int (@Value.created .int paramValue (0 : Int32) verifyChanges))
  else none

/-- `Configuration::HandleMsg`; `verifyChanged` is the compatibility flag of a parameter. A value
that is there for an instance is not replaced by a new one. -/
def handleMsg (around : Surroundings) (verifyChanged : UInt16 → Bool) (values : ConfigValues)
    (data : ℕ → UInt8) (inst : UInt8) : Option (Bool × ConfigValues) :=
  if data 0 = cmdReport then
    let parameter := (data 1).toUInt16
    match values 1 parameter with
    | some c => (refresh around (reportNumber data) c).map fun c => (true, values.put 1 parameter c)
    | none =>
        match create (verifyChanged parameter) (reportSize data) (reportNumber data),
            values inst parameter with
        | some c, none => some (true, values.put inst parameter c)
        | _, _ => some (true, values)
  else some (false, values)

/-! ## The number of a frame -/

/-- The report of a device that has taken the parameter, the size and the bytes of a frame. -/
def report (request : SendData) (i : ℕ) : UInt8 := (cmdReport :: request.command.drop 2).getD i 0

/-- The number that is read of the bytes that are sent for another: its lowest bytes, or its
highest three. -/
def numberBack (size : UInt8) (n : UInt32) : UInt32 :=
  if size = 1 then n % 256
  else if size = 2 then n % 65536
  else if size = 3 then n / 256
  else n

/-- The number is read back. -/
def Fits (size : UInt8) (n : UInt32) : Prop :=
  if size = 3 then n = 0 else n.toNat < 256 ^ size.toNat

theorem size_cases {size : UInt8} (hsize : 1 ≤ size ∧ size ≤ 4) :
    size = 1 ∨ size = 2 ∨ size = 3 ∨ size = 4 := by
  obtain ⟨hlow, hhigh⟩ := hsize
  rw [UInt8.le_iff_toNat_le] at hlow hhigh
  change 1 ≤ size.toNat at hlow
  change size.toNat ≤ 4 at hhigh
  simp only [← UInt8.toNat_inj]
  change size.toNat = 1 ∨ size.toNat = 2 ∨ size.toNat = 3 ∨ size.toNat = 4
  omega

theorem numberBack_eq_iff {size : UInt8} (hsize : 1 ≤ size ∧ size ≤ 4) (n : UInt32) :
    numberBack size n = n ↔ Fits size n := by
  have hn := n.toNat_lt
  rcases size_cases hsize with rfl | rfl | rfl | rfl
  · change n % 256 = n ↔ n.toNat < 256
    rw [← UInt32.toNat_inj, UInt32.toNat_mod]
    change n.toNat % 256 = n.toNat ↔ _
    omega
  · change n % 65536 = n ↔ n.toNat < 65536
    rw [← UInt32.toNat_inj, UInt32.toNat_mod]
    change n.toNat % 65536 = n.toNat ↔ _
    omega
  · change n / 256 = n ↔ n = 0
    rw [← UInt32.toNat_inj, ← UInt32.toNat_inj, UInt32.toNat_div]
    change n.toNat / 256 = n.toNat ↔ n.toNat = 0
    omega
  · exact iff_of_true rfl hn

/-- The byte of a number that starts at a place. -/
theorem toNat_byteAt (n : UInt32) {place : UInt32} (hplace : place.toNat < 32) :
    ((n >>> place) &&& 0xff).toUInt8.toNat = n.toNat / 2 ^ place.toNat % 256 := by
  have hmask : ∀ m : ℕ, m &&& 255 = m % 256 := fun m => Nat.and_two_pow_sub_one_eq_mod m 8
  rw [UInt32.toNat_toUInt8, UInt32.toNat_and, UInt32.toNat_shiftRight, Nat.mod_eq_of_lt hplace,
    Nat.shiftRight_eq_div_pow]
  change (_ &&& 255) % 256 = _
  rw [hmask, Nat.mod_mod]

theorem reportNumber_set (sender : Sender) (id : ℕ) (param : UInt16) (n : Int32) {size : UInt8}
    (hsize : 1 ≤ size ∧ size ≤ 4) :
    reportNumber (report (set sender id param n size)) = (numberBack size n.toUInt32).toInt32 := by
  have hfirst : ((n.toUInt32 >>> 24) &&& 0xff).toUInt8.toNat = n.toUInt32.toNat / 16777216 % 256 :=
    toNat_byteAt n.toUInt32 (by decide)
  have hsecond : ((n.toUInt32 >>> 16) &&& 0xff).toUInt8.toNat = n.toUInt32.toNat / 65536 % 256 :=
    toNat_byteAt n.toUInt32 (by decide)
  have hthird : ((n.toUInt32 >>> 8) &&& 0xff).toUInt8.toNat = n.toUInt32.toNat / 256 % 256 :=
    toNat_byteAt n.toUInt32 (by decide)
  have hlast : (n.toUInt32 &&& 0xff).toUInt8.toNat = n.toUInt32.toNat / 1 % 256 := by
    have hzero := toNat_byteAt n.toUInt32 (show (0 : UInt32).toNat < 32 by decide)
    rwa [UInt32.shiftRight_zero] at hzero
  have hn := n.toUInt32.toNat_lt
  have hsizeByte : reportSize (report (set sender id param n size)) = size &&& 0x07 := rfl
  refine congrArg UInt32.toInt32 ?_
  rw [hsizeByte, ← UInt32.toNat_inj, toNat_shiftIn]
  rcases size_cases hsize with rfl | rfl | rfl | rfl
  · have hbytes : (List.range ((1 : UInt8) &&& 0x07).toNat).map
        (fun i => report (set sender id param n 1) (i + 3)) =
        [(n.toUInt32 &&& 0xff).toUInt8] := by
      simp [report, set, Sender.request]
    rw [hbytes]
    change (256 * 0 + (n.toUInt32 &&& 0xff).toUInt8.toNat) % 2 ^ 32 = (n.toUInt32 % 256).toNat
    rw [hlast, UInt32.toNat_mod]
    change _ = n.toUInt32.toNat % 256
    omega
  · have hbytes : (List.range ((2 : UInt8) &&& 0x07).toNat).map
        (fun i => report (set sender id param n 2) (i + 3)) =
        [((n.toUInt32 >>> 8) &&& 0xff).toUInt8, (n.toUInt32 &&& 0xff).toUInt8] := by
      simp [report, set, Sender.request, List.range_succ]
    rw [hbytes]
    change (256 * (256 * 0 + ((n.toUInt32 >>> 8) &&& 0xff).toUInt8.toNat) +
      (n.toUInt32 &&& 0xff).toUInt8.toNat) % 2 ^ 32 = (n.toUInt32 % 65536).toNat
    rw [hthird, hlast, UInt32.toNat_mod]
    change _ = n.toUInt32.toNat % 65536
    omega
  · have hbytes : (List.range ((3 : UInt8) &&& 0x07).toNat).map
        (fun i => report (set sender id param n 3) (i + 3)) =
        [((n.toUInt32 >>> 24) &&& 0xff).toUInt8, ((n.toUInt32 >>> 16) &&& 0xff).toUInt8,
          ((n.toUInt32 >>> 8) &&& 0xff).toUInt8] := by
      simp [report, set, Sender.request, List.range_succ]
    rw [hbytes]
    change (256 * (256 * (256 * 0 + ((n.toUInt32 >>> 24) &&& 0xff).toUInt8.toNat) +
      ((n.toUInt32 >>> 16) &&& 0xff).toUInt8.toNat) +
      ((n.toUInt32 >>> 8) &&& 0xff).toUInt8.toNat) % 2 ^ 32 = (n.toUInt32 / 256).toNat
    rw [hfirst, hsecond, hthird, UInt32.toNat_div]
    change _ = n.toUInt32.toNat / 256
    omega
  · have hbytes : (List.range ((4 : UInt8) &&& 0x07).toNat).map
        (fun i => report (set sender id param n 4) (i + 3)) =
        [((n.toUInt32 >>> 24) &&& 0xff).toUInt8, ((n.toUInt32 >>> 16) &&& 0xff).toUInt8,
          ((n.toUInt32 >>> 8) &&& 0xff).toUInt8, (n.toUInt32 &&& 0xff).toUInt8] := by
      simp [report, set, Sender.request, List.range_succ]
    rw [hbytes]
    change (256 * (256 * (256 * (256 * 0 + ((n.toUInt32 >>> 24) &&& 0xff).toUInt8.toNat) +
      ((n.toUInt32 >>> 16) &&& 0xff).toUInt8.toNat) +
      ((n.toUInt32 >>> 8) &&& 0xff).toUInt8.toNat) + (n.toUInt32 &&& 0xff).toUInt8.toNat) % 2 ^ 32 =
      n.toUInt32.toNat
    rw [hfirst, hsecond, hthird, hlast]
    omega

end Configuration

/-! ## Readings -/

namespace Value

variable {type : ValueType} (v : Value type) (reading : type.Carrier)

/-- The reading is stored when it arrives: it is the first one, it is the target, changes are not
verified, or it confirms the one before. -/
def Takes : Prop :=
  v.isSet = false ∨
    if v.targetValueSet then type.equal v.targetValue reading = true
    else v.verifyChanges = false ∨ v.checkChange = true ∧ type.equal v.valueCheck reading = true

variable {v reading}

/-- A reading that is not stored leaves the value as it is. -/
theorem value_refresh_cases (around : Surroundings) (htype : type ≠ .schedule) :
    (v.Takes reading ∧ (v.refresh around reading).value = reading) ∨
      (¬ v.Takes reading ∧ (v.refresh around reading).value = v.value) := by
  cases hset : v.isSet with
  | false =>
      refine Or.inl ⟨Or.inl hset, ?_⟩
      by_cases htold : v.Told around
      · rw [refresh_told hset htold]
      · rw [refresh_untold hset htold]
  | true =>
      cases htarget : v.targetValueSet with
      | true =>
          by_cases hawaits : v.Awaits reading
          · refine Or.inr ⟨?_, (kept_refresh around hset hawaits).value⟩
            simp [Takes, hset, htarget, hawaits.2]
          · refine Or.inl ⟨Or.inr ?_, (stored_refresh_target around hset htarget hawaits).value⟩
            simpa [Awaits, htarget] using hawaits
      | false =>
          by_cases hchecks : v.ChecksChanges
          · obtain ⟨-, hstate⟩ := checked_refresh around ⟨hset, htarget, hchecks⟩ reading
            have hvalue := congrArg Confirmation.State.value hstate
            rw [state_value] at hvalue
            have htakes : v.Takes reading ↔
                v.checkChange = true ∧ type.equal v.valueCheck reading = true := by
              simp [Takes, hset, htarget, hchecks.2]
            rw [hvalue, htakes, state]
            by_cases hcheck : v.checkChange = true
            · rw [if_pos hcheck, Confirmation.step]
              by_cases hkept : type.equal v.valueCheck reading = true
              · rw [if_pos hkept]
                exact Or.inl ⟨⟨hcheck, hkept⟩, rfl⟩
              · rw [if_neg hkept]
                refine Or.inr ⟨fun h => hkept h.2, ?_⟩
                split <;> rfl
            · rw [if_neg hcheck, Confirmation.step]
              refine Or.inr ⟨fun h => hcheck h.1, ?_⟩
              split <;> rfl
          · refine Or.inl ⟨Or.inr ?_,
              (stored_refresh_unchecked around reading hset htarget hchecks).value⟩
            simpa [ChecksChanges, htype, htarget] using Or.inl (Bool.eq_false_iff.mpr fun h =>
              hchecks ⟨htype, h⟩)

/-- What is stored of the reading of what is held in the end. -/
theorem value_refresh_self_iff (around : Surroundings) (htype : type ≠ .schedule) :
    (v.refresh around reading).value = reading ↔ v.Takes reading ∨ v.value = reading := by
  rcases value_refresh_cases around htype with ⟨htakes, hvalue⟩ | ⟨hleaves, hvalue⟩
  · exact iff_of_true hvalue (Or.inl htakes)
  · rw [hvalue, or_iff_right hleaves]

theorem value_refresh_other_iff (around : Surroundings) (htype : type ≠ .schedule)
    {held : type.Carrier} (hother : reading ≠ held) :
    (v.refresh around reading).value = held ↔ ¬ v.Takes reading ∧ v.value = held := by
  rcases value_refresh_cases around htype with ⟨htakes, hvalue⟩ | ⟨hleaves, hvalue⟩
  · rw [hvalue]
    exact iff_of_false hother fun h => h.1 htakes
  · rw [hvalue, and_iff_right hleaves]

end Value

namespace ConfigValue

/-- What a value holds, by its type. -/
abbrev Carrier : ConfigValue → Type
  | .bitSet _ => UInt32
  | .bool _ => Bool
  | .byte _ => UInt8
  | .short _ => Int16
  | .int _ => Int32
  | .list _ => ℤ
  | .button _ | .other => Empty

/-- The copy of a value that is set. -/
def assign : (c : ConfigValue) → c.Carrier → ConfigValue
  | .bitSet v, x =>
      .bitSet { v with
        value := v.value.setValue x, oneWord := Bitfield.oneWord_setValue v.oneWord x }
  | .bool v, x => .bool { v with value := x }
  | .byte v, x => .byte { v with value := x }
  | .short v, x => .short { v with value := x }
  | .int v, x => .int { v with value := x }
  | .list v, x => .list { v with value := { v.value with value := x } }

/-- A value of the same type holds this. -/
def Holds : (c : ConfigValue) → c.Carrier → ConfigValue → Prop
  | .bitSet _, x, .bitSet v => v.value.getValue = x
  | .bool _, x, .bool v => v.value = x
  | .byte _, x, .byte v => v.value = x
  | .short _, x, .short v => v.value = x
  | .int _, x, .int v => v.value = x
  | .list _, x, .list v => v.value.value = x
  | _, _, _ => False

/-- Bit sets and lists of one to four bytes. -/
def Sized : ConfigValue → Prop
  | .bitSet v => 1 ≤ v.size ∧ v.size ≤ 4
  | .list v => 1 ≤ v.size ∧ v.size ≤ 4
  | _ => True

end ConfigValue

namespace ValueList

/-- The number of an item is read back, and no item before has it too. -/
def SameItem (v : ValueList) (index : ℤ) (item : Int32) : Prop :=
  Configuration.Fits v.size item.toUInt32 ∧ ∀ i < index.toNat, v.items[i]? ≠ some item

/-- The item is selected by the report: it is found and stored, or it was selected before and
what is found instead is not stored. -/
def ReadsBack (v : ValueList) (index : ℤ) (item : Int32) : Prop :=
  v.SameItem index item ∧ (v.value.Takes index ∨ v.value.value = index) ∨
    ¬ v.SameItem index item ∧ v.value.value = index ∧
      ∀ i : ℕ, v.items[i]? = some (Configuration.numberBack v.size item.toUInt32).toInt32 →
        (∀ j < i, v.items[j]? ≠ v.items[i]?) → ¬ v.value.Takes (i : ℤ)

end ValueList

/-- When the report of a value leaves it with this. -/
def ConfigValue.ReadsBack : (c : ConfigValue) → c.Carrier → Prop
  | .bitSet v, x => v.isSet = false ∧ Configuration.Fits v.size x
  | .bool v, x => v.Takes x ∨ v.value = x
  | .byte v, x => v.Takes x ∨ v.value = x
  | .short v, x => v.Takes x ∨ v.value = x
  | .int v, x => v.Takes x ∨ v.value = x
  | .list v, x => ∀ item, 0 ≤ x → v.items[x.toNat]? = some item → v.ReadsBack x item

namespace Configuration

/-- The report of a device that was set to a value leaves the value of the node with it. -/
def RoundTrips (around : Surroundings) (verifyChanged : UInt16 → Bool) (sender : Sender) (id : ℕ)
    (values : ConfigValues) (parameter inst : UInt8) (c : ConfigValue) (x : c.Carrier) : Prop :=
  ∀ request ∈ (setValue sender id parameter.toUInt16 (c.assign x)).2, ∃ values' after,
    handleMsg around verifyChanged values (report request) inst = some (true, values') ∧
      values' 1 parameter.toUInt16 = some after ∧ c.Holds x after

variable {around : Surroundings} {verifyChanged : UInt16 → Bool} {sender : Sender} {id : ℕ}
  {values : ConfigValues} {parameter inst : UInt8}

/-- A report for a parameter with a value refreshes it. -/
theorem handleMsg_report {c : ConfigValue} (hvalue : values 1 parameter.toUInt16 = some c)
    (n : Int32) {size : UInt8} (hsize : 1 ≤ size ∧ size ≤ 4) :
    handleMsg around verifyChanged values
        (report (set sender id parameter.toUInt16 n size)) inst =
      (refresh around (numberBack size n.toUInt32).toInt32 c).map fun c =>
        (true, values.put 1 parameter.toUInt16 c) := by
  have hcmd : report (set sender id parameter.toUInt16 n size) 0 = cmdReport := rfl
  have hparameter : report (set sender id parameter.toUInt16 n size) 1 = parameter := by
    have hmask : parameter.toNat &&& 255 = parameter.toNat % 256 :=
      Nat.and_two_pow_sub_one_eq_mod parameter.toNat 8
    have hlt := parameter.toNat_lt
    change (parameter.toUInt16 &&& 0xFF).toUInt8 = parameter
    rw [← UInt8.toNat_inj, UInt16.toNat_toUInt8, UInt16.toNat_and, UInt8.toNat_toUInt16]
    change (parameter.toNat &&& 255) % 256 = parameter.toNat
    omega
  rw [handleMsg, if_pos hcmd]
  dsimp only
  rw [hparameter, hvalue, reportNumber_set _ _ _ _ hsize]

/-- The round trip of a value that sends one frame. -/
theorem roundTrips_iff_of_number {c : ConfigValue} {x : c.Carrier} {n : Int32} {size : UInt8}
    (hvalue : values 1 parameter.toUInt16 = some c) (hsize : 1 ≤ size ∧ size ≤ 4)
    (hset : (setValue sender id parameter.toUInt16 (c.assign x)).2 =
      [set sender id parameter.toUInt16 n size]) :
    RoundTrips around verifyChanged sender id values parameter inst c x ↔
      ∃ after, refresh around (numberBack size n.toUInt32).toInt32 c = some after ∧
        c.Holds x after := by
  rw [RoundTrips, hset, List.forall_mem_singleton, handleMsg_report hvalue n hsize]
  constructor
  · rintro ⟨values', after, hhandled, hafter, hholds⟩
    obtain ⟨c', hrefreshed, hput⟩ := Option.map_eq_some_iff.mp hhandled
    cases hput
    rw [ConfigValues.put_self] at hafter
    cases hafter
    exact ⟨after, hrefreshed, hholds⟩
  · rintro ⟨after, hrefreshed, hholds⟩
    exact ⟨_, after, by rw [hrefreshed]; rfl, ConfigValues.put_self .., hholds⟩

/-! ## The types -/

theorem byte_back (x : UInt8) :
    (numberBack 1 x.toUInt32.toInt32.toUInt32).toInt32.toUInt32.toUInt8 = x := by
  have hlt := x.toNat_lt
  change (x.toUInt32 % 256).toUInt8 = x
  rw [← UInt8.toNat_inj, UInt32.toNat_toUInt8, UInt32.toNat_mod, UInt8.toNat_toUInt32]
  change x.toNat % 256 % 256 = x.toNat
  omega

/-- The low half of a short holds its sign, which the conversion to a short reads. -/
theorem short_back (x : Int16) : (numberBack 2 x.toInt32.toUInt32).toInt32.toInt16 = x := by
  have hnarrow : (numberBack 2 x.toInt32.toUInt32).toInt32.toInt16.toBitVec =
      ((x.toBitVec.signExtend 32) % 65536#32).setWidth 16 :=
    BitVec.signExtend_eq_setWidth_of_le _ (by decide)
  have hlt := x.toBitVec.isLt
  rw [← Int16.toBitVec_inj, hnarrow]
  apply BitVec.eq_of_toNat_eq
  rw [BitVec.toNat_setWidth, BitVec.toNat_umod, BitVec.toNat_signExtend, BitVec.toNat_setWidth]
  change (x.toBitVec.toNat % 2 ^ 32 +
    (if x.toBitVec.msb = true then 2 ^ 32 - 2 ^ 16 else 0)) % 65536 % 2 ^ 16 = _
  split <;> omega

/-- The first item with a number is found. -/
theorem getItemIdxByValue_eq_iff {items : List Int32} {n : Int32} {i : ℕ} :
    ValueList.getItemIdxByValue items n = i ↔
      items[i]? = some n ∧ ∀ j < i, items[j]? ≠ some n := by
  have hfind : ValueList.getItemIdxByValue items n = i ↔
      (items.findIdx? fun item => n == item) = some i := by
    rw [ValueList.getItemIdxByValue]
    cases items.findIdx? fun item => n == item with
    | none => exact iff_of_false (fun h => absurd (Int.natCast_nonneg i) (h ▸ by decide)) nofun
    | some k => rw [Option.some.injEq, Int.natCast_inj]
  rw [hfind, List.findIdx?_eq_some_iff_getElem]
  constructor
  · rintro ⟨hlt, hequal, hbefore⟩
    refine ⟨?_, fun j hj hsome => ?_⟩
    · rw [List.getElem?_eq_getElem hlt, ← eq_of_beq hequal]
    · obtain ⟨hjlt, heq⟩ := List.getElem?_eq_some_iff.mp hsome
      exact hbefore j hj (beq_iff_eq.mpr heq.symm)
  · rintro ⟨hsome, hbefore⟩
    obtain ⟨hlt, heq⟩ := List.getElem?_eq_some_iff.mp hsome
    refine ⟨hlt, beq_iff_eq.mpr heq.symm, fun j hj hequal => hbefore j hj ?_⟩
    rw [List.getElem?_eq_getElem (hj.trans hlt), ← eq_of_beq hequal]

theorem getItemIdxByValue_cases (items : List Int32) (n : Int32) :
    (ValueList.getItemIdxByValue items n < 0 ∧ n ∉ items) ∨
      ∃ i : ℕ, ValueList.getItemIdxByValue items n = i := by
  cases hfind : items.findIdx? fun item => n == item with
  | some i =>
      refine Or.inr ⟨i, ?_⟩
      rw [ValueList.getItemIdxByValue, hfind]
  | none =>
      refine Or.inl ⟨?_, fun hmem => ?_⟩
      · rw [ValueList.getItemIdxByValue, hfind]
        exact Int.negSucc_lt_zero 0
      · exact absurd (List.findIdx?_eq_none_iff.mp hfind n hmem) (by simp)

/-- The report of an item. -/
theorem list_readsBack_iff {v : ValueList} {index : ℤ} {item : Int32} (hindex : 0 ≤ index)
    (hitem : v.items[index.toNat]? = some item) (hsize : 1 ≤ v.size ∧ v.size ≤ 4) :
    (ValueList.onValueRefreshed around v.items v.value
        (numberBack v.size item.toUInt32).toInt32).value = index ↔
      v.ReadsBack index item := by
  have hlist : ValueType.list ≠ .schedule := by decide
  obtain ⟨index, rfl⟩ := Int.eq_ofNat_of_zero_le hindex
  rw [Int.toNat_natCast] at hitem
  generalize hback : (numberBack v.size item.toUInt32).toInt32 = back
  have hfits : back = item ↔ Fits v.size item.toUInt32 := by
    rw [← numberBack_eq_iff hsize, ← hback]
    exact ⟨congrArg Int32.toUInt32, congrArg UInt32.toInt32⟩
  have hsame : ValueList.getItemIdxByValue v.items back = index ↔ v.SameItem index item := by
    rw [getItemIdxByValue_eq_iff, ValueList.SameItem, ← hfits, Int.toNat_natCast]
    constructor
    · rintro ⟨hfound, hfirst⟩
      have heq := Option.some.inj (hfound.symm.trans hitem)
      exact ⟨heq, heq ▸ hfirst⟩
    · rintro ⟨rfl, hfirst⟩
      exact ⟨hitem, hfirst⟩
  rw [ValueList.ReadsBack, hback, ← hsame, ValueList.onValueRefreshed]
  rcases getItemIdxByValue_cases v.items back with ⟨hnone, hmissing⟩ | ⟨k, hk⟩
  · -- nothing is found, and the value is as it was
    have hother : ValueList.getItemIdxByValue v.items back ≠ index := by omega
    rw [if_pos hnone, or_iff_right fun h => hother h.1, and_iff_right hother]
    exact (and_iff_left fun i hfound => absurd (List.mem_of_getElem? hfound) hmissing).symm
  · have hfound := getItemIdxByValue_eq_iff.mp hk
    rw [if_neg (by omega), hk, Int.natCast_inj]
    rcases eq_or_ne k index with rfl | hne
    · rw [or_iff_left fun h => h.1 rfl, and_iff_right rfl]
      exact @Value.value_refresh_self_iff .list v.value (k : ℤ) around hlist
    · have hother : (k : ℤ) ≠ index := fun h => hne (Int.natCast_inj.mp h)
      have hrefresh := @Value.value_refresh_other_iff .list v.value (k : ℤ) around hlist index hother
      rw [or_iff_right fun h => hne h.1, and_iff_right hne]
      refine (hrefresh.trans and_comm).trans ?_
      refine and_congr_right fun _ => ⟨fun hleaves i hi hfirst => ?_, fun h => ?_⟩
      · have hki : ValueList.getItemIdxByValue v.items back = i :=
          getItemIdxByValue_eq_iff.mpr ⟨hi, fun j hj => hi ▸ hfirst j hj⟩
        rwa [← Int.natCast_inj.mp (hk.symm.trans hki)]
      · exact h k hfound.1 fun j hj => hfound.1 ▸ hfound.2 j hj

/-- Exactly when the report of a device that was set to a value leaves the value with it. -/
theorem reportRoundTrips_iff (around : Surroundings) (verifyChanged : UInt16 → Bool) (sender : Sender)
    (id : ℕ) (values : ConfigValues) (parameter inst : UInt8) (c : ConfigValue) (x : c.Carrier)
    (hvalue : values 1 parameter.toUInt16 = some c) (hsize : c.Sized) :
    RoundTrips around verifyChanged sender id values parameter inst c x ↔ c.ReadsBack x := by
  have hone : (1 : UInt8) ≤ 1 ∧ (1 : UInt8) ≤ 4 := by decide
  have htwo : (1 : UInt8) ≤ 2 ∧ (2 : UInt8) ≤ 4 := by decide
  have hfour : (1 : UInt8) ≤ 4 ∧ (4 : UInt8) ≤ 4 := by decide
  cases c with
  | bitSet v =>
      have hnumber : (v.value.setValue x).getValue = x := Bitfield.getValue_setValue v.oneWord x
      have hback : ∀ n : UInt32, (v.value.setValue n).getValue = n :=
        Bitfield.getValue_setValue v.oneWord
      rw [roundTrips_iff_of_number hvalue hsize rfl, hnumber, refresh,
        ValueBitSet.onValueRefreshed]
      cases hset : v.isSet with
      | true => simp [ConfigValue.ReadsBack, hset]
      | false =>
          have hfits := numberBack_eq_iff hsize x
          simp only [Bool.false_eq_true, if_false, Option.map_some, Option.some.injEq,
            exists_eq_left', ConfigValue.Holds, hback, ConfigValue.ReadsBack, hset, true_and]
          exact hfits
  | bool v =>
      have hreading : ((numberBack 1 (if x then 1 else 0 : Int32).toUInt32).toInt32 != 0) = x := by
        cases x <;> decide
      rw [roundTrips_iff_of_number hvalue hone rfl, refresh]
      simp only [Option.some.injEq, exists_eq_left', ConfigValue.Holds, ConfigValue.ReadsBack]
      rw [hreading]
      exact Value.value_refresh_self_iff around nofun
  | byte v =>
      rw [roundTrips_iff_of_number hvalue hone rfl, refresh, byte_back]
      simp only [Option.some.injEq, exists_eq_left', ConfigValue.Holds, ConfigValue.ReadsBack]
      exact Value.value_refresh_self_iff around nofun
  | short v =>
      rw [roundTrips_iff_of_number hvalue htwo rfl, refresh, short_back]
      simp only [Option.some.injEq, exists_eq_left', ConfigValue.Holds, ConfigValue.ReadsBack]
      exact Value.value_refresh_self_iff around nofun
  | int v =>
      have hreading : (numberBack 4 (Int32.toUInt32 x)).toInt32 = x := rfl
      rw [roundTrips_iff_of_number hvalue hfour rfl, refresh, hreading]
      simp only [Option.some.injEq, exists_eq_left', ConfigValue.Holds, ConfigValue.ReadsBack]
      exact Value.value_refresh_self_iff around nofun
  | list v =>
      have hitem : ∀ item, ({ v with value := { v.value with value := x } } : ValueList).getItem =
          some item ↔ 0 ≤ x ∧ v.items[x.toNat]? = some item := by
        intro item
        rw [ValueList.getItem]
        split
        · exact iff_of_false nofun fun h => absurd h.1 (Int.not_le.mpr ‹_›)
        · exact (and_iff_right (Int.not_lt.mp ‹_›)).symm
      cases hget : ({ v with value := { v.value with value := x } } : ValueList).getItem with
      | none =>
          have hsent : (setValue sender id parameter.toUInt16
              ((ConfigValue.list v).assign x)).2 = [] := by
            rw [ConfigValue.assign, setValue, hget]
          rw [RoundTrips, hsent]
          refine iff_of_true (List.forall_mem_nil _) fun item hindex hfound => ?_
          cases hget.symm.trans ((hitem item).mpr ⟨hindex, hfound⟩)
      | some item =>
          have hsent : (setValue sender id parameter.toUInt16
              ((ConfigValue.list v).assign x)).2 = [set sender id parameter.toUInt16 item v.size] := by
            rw [ConfigValue.assign, setValue, hget]
          obtain ⟨hindex, hfound⟩ := (hitem item).mp hget
          rw [roundTrips_iff_of_number hvalue hsize hsent, refresh]
          simp only [Option.some.injEq, exists_eq_left', ConfigValue.Holds, ConfigValue.ReadsBack]
          rw [list_readsBack_iff hindex hfound hsize]
          constructor
          · intro hreads other _ hother
            cases hfound.symm.trans hother
            exact hreads
          · exact fun h => h item hindex hfound
  | button => exact x.elim
  | other => exact x.elim

/-- A class of node 5, and values that watchers can be told of. -/
def sender5 : Sender where
  nodeId := 5
  transmitOptions := 0x25
  cc := CommandClass.new
  micc := none

def ready : Surroundings where
  driverReady := true
  suppressValueRefresh := false

/-- A parameter of four bytes that has not been read. -/
def unread : ConfigValue := .int (@Value.created .int (0 : Int32) (0 : Int32) false)

/-- It is set to -5, and reads it. -/
theorem roundTrips_unread :
    RoundTrips ready (fun _ => false) sender5 0 (fun _ _ => some unread) 9 1 unread (-5 : Int32) :=
  (reportRoundTrips_iff ready (fun _ => false) sender5 0 (fun _ _ => some unread) 9 1 unread (-5 : Int32)
    rfl trivial).mpr (Or.inl (Or.inl rfl))

/-- A parameter of one byte with the items 0 and -1, the first of which is selected. -/
def signedItems : ValueList where
  value := { @Value.created .list (0 : ℤ) (0 : ℤ) false with isSet := true }
  items := [0, -1]
  size := 1

/-- The item -1 is read as 255, and is not found. -/
theorem roundTrips_fails :
    ¬ RoundTrips ready (fun _ => false) sender5 0 (fun _ _ => some (.list signedItems)) 9 1
      (.list signedItems) (1 : ℤ) := by
  have hsize : (1 : UInt8) ≤ signedItems.size ∧ signedItems.size ≤ 4 := by decide
  have hset : (setValue sender5 0 (9 : UInt8).toUInt16
      ((ConfigValue.list signedItems).assign (1 : ℤ))).2 =
      [set sender5 0 (9 : UInt8).toUInt16 (-1) signedItems.size] := rfl
  rw [roundTrips_iff_of_number rfl hsize hset]
  rintro ⟨after, hafter, hholds⟩
  cases hafter
  have hkept : (ValueList.onValueRefreshed ready signedItems.items signedItems.value
      (numberBack 1 (-1 : Int32).toUInt32).toInt32).value = (0 : ℤ) := rfl
  exact absurd (hkept.symm.trans hholds) (by decide)

end Configuration

end OpenZWave

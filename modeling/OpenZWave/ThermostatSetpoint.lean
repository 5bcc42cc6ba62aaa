import OpenZWave.CommandFrame
import OpenZWave.ExtractValue
import OpenZWave.SendDataRequests
import Mathlib.Algebra.Order.BigOperators.Group.List

/-!
# Thermostat setpoints

What `ThermostatSetpoint` sends, creates and refreshes. A setpoint type occurs as a bit of
the supported report, as a byte of a command and as the index of a value; its limits have
the indexes from `Unused_0_Minimum` and `Unused_0_Maximum` on.
-/

namespace OpenZWave

open Checked NumberText CommandClass

namespace ThermostatSetpoint

namespace Cmd

def set : UInt8 := 0x01
def get : UInt8 := 0x02
def report : UInt8 := 0x03
def supportedGet : UInt8 := 0x04
def supportedReport : UInt8 := 0x05
def capabilitiesGet : UInt8 := 0x09
def capabilitiesReport : UInt8 := 0x0A

end Cmd

/-- `ThermostatSetpoint_Count`. -/
def count : ℕ := 15

def unused_0_Minimum : UInt16 := 100
def unused_0_Maximum : UInt16 := 200

def c_setpointName : List String :=
  ["Unused 0", "Heating 1", "Cooling 1", "Unused 3", "Unused 4", "Unused 5", "Unused 6", "Furnace",
    "Dry Air", "Moist Air", "Auto Changeover", "Heating Econ", "Cooling Econ", "Away Heating",
    "Away Cooling", "Full Power"]

/-- The version of the class and its flags, and what the texts of decimal values depend on. -/
structure Config where
  version : UInt8
  getSupported : Bool
  base : UInt8
  altTypeInterpretation : Bool
  overridePrecision : UInt8
  locale : Lconv

/-- The values of the class: those for which `GetValue` finds something. -/
abbrev Values := UInt8 → UInt16 → Bool

inductive Effect
  | sent (inst : UInt8) (command : List UInt8)
  | created (inst : UInt8) (index : UInt16) (label : String) (value : List Char)
  | refreshed (inst : UInt8) (index : UInt16) (units : String) (value : List Char)
      (precision : UInt8)

def Effect.isCreated : Effect → Bool
  | .created .. => true
  | _ => false

section

variable (c : Config) (values : Values)

/-- The type that a bit of the report is taken for, before the base is added. -/
def bitType (p : ℕ) : UInt8 :=
  let type := UInt8.ofNat p
  if c.altTypeInterpretation then type else if type > 2 then type + 4 else type

/-- The positions of the bits that are set, in the order of the two loops. -/
def setBits (bytes : List UInt8) : List ℕ :=
  bytes.zipIdx.flatMap fun (b, i) =>
    ((List.range 8).filter fun bit => b.toNat.testBit bit).map (8 * i + ·)

/-- One setpoint of the supported report. -/
def addSupported (inst : UInt8) (p : ℕ) : Except FrameFault (List Effect) := do
  let requests :=
    if c.version ≥ 3 then [Effect.sent inst [Cmd.capabilitiesGet, bitType c p]] else []
  let index := (bitType c p).toNat + c.base.toNat
  if index < count then
    let setpointName ← readAt c_setpointName index .table
    return requests ++ [.created inst (UInt16.ofNat index) setpointName "0.0".toList]
  else return requests

/-- The limits of one setpoint. -/
def addCapabilities (inst : UInt8) (data : List UInt8) : Except FrameFault (List Effect) := do
  let size := data.getD 2 0 &&& 0x07
  let minValue := extractValue c.locale (data.drop 2)
  let maxValue := extractValue c.locale (data.drop (2 + size.toNat + 1))
  let index := data.getD 1 0
  if index.toNat < count then
    let setpointName ← readAt c_setpointName index.toNat .table
    return [.created inst (unused_0_Minimum + index.toUInt16) (setpointName ++ "_minimum")
        minValue.text,
      .created inst (unused_0_Maximum + index.toUInt16) (setpointName ++ "_maximum") maxValue.text]
  else return []

/-- The value of one setpoint. -/
def refresh (inst : UInt8) (data : List UInt8) : Effect :=
  let value := extractValue c.locale (data.drop 2)
  .refreshed inst (data.getD 1 0).toUInt16 (if value.scale ≠ 0 then "F" else "C") value.text
    value.precision

/-- `HandleMsg`. -/
def handleMsg (inst : UInt8) (data : List UInt8) : Except FrameFault (List Effect) :=
  if data.getD 0 0 = Cmd.report then
    return if values inst (data.getD 1 0).toUInt16 then [refresh c inst data] else []
  else if data.getD 0 0 = Cmd.supportedReport then
    return (← (setBits (data.drop 1)).mapM (addSupported c inst)).flatten
  else if data.getD 0 0 = Cmd.capabilitiesReport then addCapabilities c inst data
  else return []

/-- `RequestValue`. -/
def requestValue (setPointIndex : UInt16) (inst : UInt8) : List Effect :=
  if setPointIndex = 0xff then [.sent inst [Cmd.supportedGet]]
  else if !c.getSupported then []
  else if values 1 setPointIndex then [.sent inst [Cmd.get, (setPointIndex &&& 0xFF).toUInt8]]
  else []

/-- The command that `SetValue` makes of a value of the class with its new text. -/
def setpointCommand (index : UInt16) (units value : List Char) : List UInt8 :=
  let scale : UInt8 := if cStr units = ['C'] then 0 else 1
  Cmd.set :: (index &&& 0xFF).toUInt8 :: appendValue c.overridePrecision value scale

inductive Event
  | received (inst : UInt8) (data : List UInt8)
  | requested (setPointIndex : UInt16) (inst : UInt8)
  | set (inst : UInt8) (index : UInt16) (units value : List Char)

def perform : Event → Except FrameFault (List Effect)
  | .received inst data => handleMsg c values inst data
  | .requested setPointIndex inst => return requestValue c values setPointIndex inst
  | .set inst index units value => return [.sent inst (setpointCommand c index units value)]

end

/-- It is the command of the request that `SetValue` sends. -/
theorem setValue_sends (c : Config) (sender : Sender) (id : ℕ) (inst : UInt8) (index : UInt16)
    (units value : List Char) :
    ∃ request, setValue sender id inst c.overridePrecision index units (some value) =
        .ok (true, [request]) ∧
      request.command = classId :: setpointCommand c index units value :=
  ⟨_, rfl, rfl⟩

/-! ## What is asked of them -/

/-- The limits of a setpoint have indexes of their own. -/
def IsLimit (index : UInt16) : Prop :=
  100 ≤ index.toNat ∧ index.toNat < 100 + count ∨ 200 ≤ index.toNat ∧ index.toNat < 200 + count

instance (index : UInt16) : Decidable (IsLimit index) := inferInstanceAs (Decidable (_ ∨ _))

/-- The setpoint type that the index of a value denotes. -/
def settingType (index : UInt16) : ℕ :=
  if 100 ≤ index.toNat ∧ index.toNat < 100 + count then index.toNat - 100
  else if 200 ≤ index.toNat ∧ index.toNat < 200 + count then index.toNat - 200
  else index.toNat

section

variable (c : Config) (values : Values)

/-- What a bit of the report stands for, before the base is added. -/
def interpretation (p : ℕ) : ℕ := if c.altTypeInterpretation ∨ p ≤ 2 then p else p + 4

/-- The setpoint type of a bit of the report. -/
def denotedType (p : ℕ) : ℕ := interpretation c p + c.base.toNat

/-- The value of a setpoint type, under the index and the label of this type. -/
def supportedValue (inst : UInt8) (type : ℕ) : List Effect :=
  if type < count then
    [.created inst (UInt16.ofNat type) (c_setpointName.getD type "") "0.0".toList]
  else []

/-- The limits of a setpoint type. -/
def limitValues (inst : UInt8) (data : List UInt8) (type : ℕ) : List Effect :=
  if type < count then
    [.created inst (UInt16.ofNat (100 + type)) (c_setpointName.getD type "" ++ "_minimum")
        (extractValue c.locale (data.drop 2)).text,
      .created inst (UInt16.ofNat (200 + type)) (c_setpointName.getD type "" ++ "_maximum")
        (extractValue c.locale (data.drop (2 + (data.getD 2 0 &&& 0x07).toNat + 1))).text]
  else []

/-- The indexes that are created and refreshed and the type bytes that are sent denote one
setpoint type: that of the bit, of the report or of the index that is asked for. -/
def Consistent : Event → List Effect → Prop
  | .received inst data, effects =>
      if data.getD 0 0 = Cmd.report then
        effects = if values inst (data.getD 1 0).toUInt16 ∧ ¬ IsLimit (data.getD 1 0).toUInt16
          then [refresh c inst data] else []
      else if data.getD 0 0 = Cmd.supportedReport then
        effects.filter Effect.isCreated =
          (setBits (data.drop 1)).flatMap fun p => supportedValue inst (denotedType c p)
      else if data.getD 0 0 = Cmd.capabilitiesReport then
        effects = limitValues c inst data (data.getD 1 0).toNat
      else effects = []
  | .requested index inst, effects =>
      if index = 0xff then effects = [.sent inst [Cmd.supportedGet]]
      else if c.getSupported ∧ values 1 index then
        ∃ type : UInt8, type.toNat = settingType index ∧ effects = [.sent inst [Cmd.get, type]]
      else effects = []
  | .set inst index units value, effects =>
      ∃ type : UInt8, type.toNat = settingType index ∧
        effects = [.sent inst (Cmd.set :: type :: appendValue c.overridePrecision value
          (if cStr units = ['C'] then 0 else 1))]

/-- The type bytes do not name a setpoint by accident: no limit is reported, asked for or
set under its own index, and no bit of a supported report wraps to a type of the table. -/
def Plain : Event → Prop
  | .received inst data =>
      (data.getD 0 0 = Cmd.report → values inst (data.getD 1 0).toUInt16 →
        ¬ IsLimit (data.getD 1 0).toUInt16) ∧
      (data.getD 0 0 = Cmd.supportedReport → ∀ p ∈ setBits (data.drop 1),
        256 ≤ interpretation c p → count ≤ (bitType c p).toNat + c.base.toNat)
  | .requested index _ =>
      index ≠ 0xff → c.getSupported → values 1 index → ¬ IsLimit index ∧ index.toNat < 256
  | .set _ index _ _ => ¬ IsLimit index ∧ index.toNat < 256

/-- The capabilities that a supported report asks for are those of the types of its bits. -/
def AsksFor : Event → List Effect → Prop
  | .received inst data, effects =>
      data.getD 0 0 = Cmd.supportedReport →
        List.Forall₂ (fun p effect => ∃ type : UInt8, type.toNat = denotedType c p ∧
            effect = Effect.sent inst [Cmd.capabilitiesGet, type])
          (if c.version ≥ 3 then setBits (data.drop 1) else [])
          (effects.filter fun effect => !effect.isCreated)
  | _, _ => True

/-- Nothing is asked for, or the base is 0 and no bit wraps. -/
def WithoutBase : Event → Prop
  | .received _ data => data.getD 0 0 = Cmd.supportedReport → c.version ≥ 3 →
      ∀ p ∈ setBits (data.drop 1), c.base = 0 ∧ interpretation c p < 256
  | _ => True

end

/-! ## The bits of a supported report -/

variable (c : Config) (values : Values)

theorem toNat_bitType {p : ℕ} (h : interpretation c p < 256) :
    (bitType c p).toNat = interpretation c p := by
  rw [interpretation] at h ⊢
  rw [bitType]
  cases halt : c.altTypeInterpretation with
  | true =>
      rw [halt, if_pos (Or.inl rfl)] at h
      rw [if_pos (Or.inl rfl)]
      exact UInt8.toNat_ofNat_of_lt h
  | false =>
      rw [halt] at h
      have hlt : p < 256 := by
        split at h <;> omega
      have hp : (UInt8.ofNat p).toNat = p := UInt8.toNat_ofNat_of_lt hlt
      have htwo : UInt8.ofNat p > 2 ↔ 2 < p := by
        rw [gt_iff_lt, UInt8.lt_iff_toNat_lt, hp]
        rfl
      simp only [Bool.false_eq_true, if_false, false_or, htwo] at h ⊢
      split
      · rename_i hjump
        rw [if_neg (Nat.not_le.mpr hjump)] at h ⊢
        rw [UInt8.toNat_add, hp]
        exact Nat.mod_eq_of_lt h
      · rename_i hlow
        rw [if_pos (Nat.not_lt.mp hlow), hp]

/-- Lists that are joined are equal if each of them is, when those on the right may only
be missing. -/
theorem flatMap_eq_iff {α β : Type} {f g : α → List β} {l : List α}
    (h : ∀ a ∈ l, g a = f a ∨ g a = []) :
    l.flatMap f = l.flatMap g ↔ ∀ a ∈ l, f a = g a := by
  induction l with
  | nil => exact iff_of_true rfl nofun
  | cons a l ih =>
      rw [List.forall_mem_cons] at h ⊢
      rw [List.flatMap_cons, List.flatMap_cons, ← ih h.2]
      have hshorter : (l.flatMap g).length ≤ (l.flatMap f).length := by
        rw [List.length_flatMap, List.length_flatMap]
        apply List.sum_le_sum
        intro b hb
        rcases h.2 b hb with heq | heq
        · rw [heq]
        · rw [heq]
          exact Nat.zero_le _
      constructor
      · intro heq
        rcases h.1 with hsame | hnone
        · rw [hsame] at heq ⊢
          exact ⟨rfl, List.append_cancel_left heq⟩
        · rw [hnone, List.nil_append] at heq
          have hlength := congrArg List.length heq
          rw [List.length_append] at hlength
          have hempty : f a = [] := List.eq_nil_of_length_eq_zero (by omega)
          rw [hempty, List.nil_append] at heq
          exact ⟨hempty.trans hnone.symm, heq⟩
      · rintro ⟨hfirst, hrest⟩
        rw [hfirst, hrest]

/-- The request for the capabilities of a bit. -/
def request (inst : UInt8) (p : ℕ) : Effect := .sent inst [Cmd.capabilitiesGet, bitType c p]

theorem addSupported_eq (inst : UInt8) (p : ℕ) :
    addSupported c inst p = .ok ((if c.version ≥ 3 then [request c inst p] else []) ++
      supportedValue inst ((bitType c p).toNat + c.base.toNat)) := by
  rw [addSupported, supportedValue]
  split
  · rename_i hindex
    have hinside : (bitType c p).toNat + c.base.toNat < c_setpointName.length :=
      Nat.lt_trans hindex (Nat.lt_succ_self 15)
    rw [readAt_bind hinside ""]
    rfl
  · rw [List.append_nil]
    rfl

theorem handleMsg_supportedReport {inst : UInt8} {data : List UInt8}
    (h : data.getD 0 0 = Cmd.supportedReport) :
    handleMsg c values inst data = .ok ((setBits (data.drop 1)).flatMap fun p =>
      (if c.version ≥ 3 then [request c inst p] else []) ++
        supportedValue inst ((bitType c p).toNat + c.base.toNat)) := by
  rw [handleMsg, h, if_neg (by decide), if_pos rfl, funext (addSupported_eq c inst)]
  change (List.mapM (fun p => pure _) _ >>= _) = _
  rw [List.mapM_pure, pure_bind, List.flatMap_def]
  rfl

theorem filter_supportedValue (inst : UInt8) (type : ℕ) :
    (supportedValue inst type).filter Effect.isCreated = supportedValue inst type ∧
      (supportedValue inst type).filter (fun effect => !effect.isCreated) = [] := by
  rw [supportedValue]
  split <;> exact ⟨rfl, rfl⟩

theorem filter_requests (inst : UInt8) (p : ℕ) :
    (if c.version ≥ 3 then [request c inst p] else []).filter Effect.isCreated = [] ∧
      (if c.version ≥ 3 then [request c inst p] else []).filter (fun effect => !effect.isCreated) =
        if c.version ≥ 3 then [request c inst p] else [] := by
  split <;> exact ⟨rfl, rfl⟩

/-- One bit creates the value of its type exactly if it does not wrap into the table. -/
theorem supportedValue_eq_iff (inst : UInt8) (p : ℕ) :
    supportedValue inst ((bitType c p).toNat + c.base.toNat) =
        supportedValue inst (denotedType c p) ↔
      (256 ≤ interpretation c p → count ≤ (bitType c p).toNat + c.base.toNat) := by
  rcases Nat.lt_or_ge (interpretation c p) 256 with hlow | hwraps
  · rw [toNat_bitType c hlow]
    exact iff_of_true rfl fun h => absurd hlow (Nat.not_lt.mpr h)
  · have hout : ¬ denotedType c p < count := by
      rw [denotedType, count]
      omega
    rw [forall_prop_of_true hwraps, supportedValue, supportedValue, if_neg hout]
    constructor
    · intro h
      by_contra hin
      rw [if_pos (Nat.not_le.mp hin)] at h
      cases h
    · intro h
      rw [if_neg (Nat.not_lt.mpr h)]

theorem supportedValue_eq_or (inst : UInt8) (p : ℕ) :
    supportedValue inst (denotedType c p) =
        supportedValue inst ((bitType c p).toNat + c.base.toNat) ∨
      supportedValue inst (denotedType c p) = [] := by
  rcases Nat.lt_or_ge (interpretation c p) 256 with hlow | hwraps
  · rw [toNat_bitType c hlow]
    exact Or.inl rfl
  · refine Or.inr (if_neg ?_)
    rw [denotedType, count]
    omega

/-- The request for a bit names its type exactly if nothing is added to the bit. -/
theorem toNat_bitType_eq_iff (p : ℕ) :
    (bitType c p).toNat = denotedType c p ↔ c.base = 0 ∧ interpretation c p < 256 := by
  have hbyte := (bitType c p).toNat_lt
  rw [denotedType]
  constructor
  · intro h
    have hlow : interpretation c p < 256 := by omega
    rw [toNat_bitType c hlow] at h
    refine ⟨UInt8.toNat_inj.mp ?_, hlow⟩
    change c.base.toNat = 0
    omega
  · rintro ⟨hbase, hlow⟩
    rw [toNat_bitType c hlow, hbase]
    rfl

theorem request_names_iff (inst : UInt8) (p : ℕ) :
    (∃ type : UInt8, type.toNat = denotedType c p ∧
        request c inst p = .sent inst [Cmd.capabilitiesGet, type]) ↔
      c.base = 0 ∧ interpretation c p < 256 := by
  rw [← toNat_bitType_eq_iff]
  constructor
  · rintro ⟨type, htype, hrequest⟩
    cases hrequest
    exact htype
  · intro h
    exact ⟨bitType c p, h, rfl⟩

/-! ## Indexes and types -/

theorem settingType_of_not_limit {index : UInt16} (h : ¬ IsLimit index) :
    settingType index = index.toNat := by
  rw [settingType, if_neg fun hlow => h (Or.inl hlow), if_neg fun hhigh => h (Or.inr hhigh)]

/-- The byte that is sent for an index is its type exactly if it is no index of a limit. -/
theorem toNat_sent_iff (index : UInt16) :
    (index &&& 0xFF).toUInt8.toNat = settingType index ↔ ¬ IsLimit index ∧ index.toNat < 256 := by
  have hbyte : (index &&& 0xFF).toUInt8.toNat = index.toNat % 256 := by
    rw [UInt16.toNat_toUInt8, UInt16.toNat_and]
    change (index.toNat &&& (2 ^ 8 - 1)) % 2 ^ 8 = _
    rw [Nat.and_two_pow_sub_one_eq_mod, Nat.mod_mod]
  rw [hbyte]
  by_cases hlimit : IsLimit index
  · refine iff_of_false ?_ fun h => h.1 hlimit
    rw [IsLimit, count] at hlimit
    rw [settingType, count]
    split
    · omega
    · split <;> omega
  · rw [settingType_of_not_limit hlimit, and_iff_right hlimit]
    omega

/-- The limits of a type are created for this type. -/
theorem addCapabilities_eq (inst : UInt8) (data : List UInt8) :
    addCapabilities c inst data = .ok (limitValues c inst data (data.getD 1 0).toNat) := by
  have hindex : (data.getD 1 0).toUInt16 = UInt16.ofNat (data.getD 1 0).toNat := by
    rw [← UInt8.toNat_toUInt16, UInt16.ofNat_toNat]
  have hmin : unused_0_Minimum + (data.getD 1 0).toUInt16 =
      UInt16.ofNat (100 + (data.getD 1 0).toNat) := by
    rw [UInt16.ofNat_add, hindex]
    rfl
  have hmax : unused_0_Maximum + (data.getD 1 0).toUInt16 =
      UInt16.ofNat (200 + (data.getD 1 0).toNat) := by
    rw [UInt16.ofNat_add, hindex]
    rfl
  rw [addCapabilities, limitValues, hmin, hmax]
  split
  · rename_i hindex
    have hinside : (data.getD 1 0).toNat < c_setpointName.length :=
      Nat.lt_trans hindex (Nat.lt_succ_self 15)
    rw [readAt_bind hinside ""]
    rfl
  · rfl

/-- No label is looked up behind the table. -/
theorem safe_handleMsg (inst : UInt8) (data : List UInt8) :
    Safe (handleMsg c values inst data) := by
  by_cases hsupported : data.getD 0 0 = Cmd.supportedReport
  · exact ⟨_, handleMsg_supportedReport c values hsupported⟩
  · rw [handleMsg, if_neg hsupported, addCapabilities_eq]
    split
    · exact safe_pure _
    · split
      · exact safe_ok _
      · exact safe_pure _

section Commands

variable (inst : UInt8) {data : List UInt8}

theorem report_consistent_iff (h : data.getD 0 0 = Cmd.report) :
    Yields (handleMsg c values inst data) (Consistent c values (.received inst data)) ↔
      (values inst (data.getD 1 0).toUInt16 → ¬ IsLimit (data.getD 1 0).toUInt16) := by
  rw [handleMsg, if_pos h, yields_pure, Consistent, if_pos h]
  cases hvalue : values inst (data.getD 1 0).toUInt16 with
  | false => exact iff_of_true (by simp) nofun
  | true =>
      rw [if_pos rfl, forall_prop_of_true rfl]
      by_cases hlimit : IsLimit (data.getD 1 0).toUInt16
      · rw [if_neg fun hboth => hboth.2 hlimit]
        exact iff_of_false (List.cons_ne_nil _ _) (not_not.mpr hlimit)
      · rw [if_pos ⟨rfl, hlimit⟩]
        exact iff_of_true rfl hlimit

theorem supportedReport_consistent_iff (h : data.getD 0 0 = Cmd.supportedReport) :
    Yields (handleMsg c values inst data) (Consistent c values (.received inst data)) ↔
      ∀ p ∈ setBits (data.drop 1), 256 ≤ interpretation c p →
        count ≤ (bitType c p).toNat + c.base.toNat := by
  have hother : ¬ data.getD 0 0 = Cmd.report := by rw [h]; decide
  rw [handleMsg_supportedReport c values h, yields_ok, Consistent, if_neg hother, if_pos h,
    List.filter_flatMap]
  simp only [List.filter_append, (filter_requests c inst _).1, List.nil_append,
    (filter_supportedValue inst _).1]
  rw [flatMap_eq_iff fun p _ => supportedValue_eq_or c inst p]
  exact forall₂_congr fun p _ => supportedValue_eq_iff c inst p

theorem supportedReport_asksFor_iff (h : data.getD 0 0 = Cmd.supportedReport) :
    Yields (handleMsg c values inst data) (AsksFor c (.received inst data)) ↔
      (c.version ≥ 3 → ∀ p ∈ setBits (data.drop 1), c.base = 0 ∧ interpretation c p < 256) := by
  rw [handleMsg_supportedReport c values h, yields_ok, AsksFor, forall_prop_of_true h,
    List.filter_flatMap]
  simp only [List.filter_append, (filter_requests c inst _).2, (filter_supportedValue inst _).2,
    List.append_nil]
  by_cases hversion : c.version ≥ 3
  · simp only [if_pos hversion, forall_prop_of_true hversion]
    rw [← List.map_eq_flatMap, List.forall₂_map_right_iff, List.forall₂_same]
    exact forall₂_congr fun p _ => request_names_iff c inst p
  · simp only [if_neg hversion]
    refine iff_of_true ?_ fun h => absurd h hversion
    rw [List.flatMap_eq_nil_iff.mpr fun _ _ => rfl]
    exact .nil

theorem capabilitiesReport_consistent (h : data.getD 0 0 = Cmd.capabilitiesReport) :
    Yields (handleMsg c values inst data) (Consistent c values (.received inst data)) := by
  have hreport : ¬ data.getD 0 0 = Cmd.report := by rw [h]; decide
  have hsupported : ¬ data.getD 0 0 = Cmd.supportedReport := by rw [h]; decide
  rw [handleMsg, if_neg hreport, if_neg hsupported, if_pos h, addCapabilities_eq, yields_ok, Consistent,
    if_neg hreport, if_neg hsupported, if_pos h]

end Commands

theorem received_consistent_iff (inst : UInt8) (data : List UInt8) :
    Yields (handleMsg c values inst data) (Consistent c values (.received inst data)) ↔
      Plain c values (.received inst data) := by
  by_cases hreport : data.getD 0 0 = Cmd.report
  · have hother : ¬ data.getD 0 0 = Cmd.supportedReport := by rw [hreport]; decide
    rw [report_consistent_iff c values inst hreport, Plain, forall_prop_of_true hreport,
      and_iff_left fun h => absurd h hother]
  by_cases hsupported : data.getD 0 0 = Cmd.supportedReport
  · rw [supportedReport_consistent_iff c values inst hsupported, Plain,
      forall_prop_of_true hsupported, and_iff_right fun h => absurd h hreport]
  have hplain : Plain c values (.received inst data) :=
    ⟨fun h => absurd h hreport, fun h => absurd h hsupported⟩
  refine iff_of_true ?_ hplain
  by_cases hcapabilities : data.getD 0 0 = Cmd.capabilitiesReport
  · exact capabilitiesReport_consistent c values inst hcapabilities
  · rw [handleMsg, if_neg hreport, if_neg hsupported, if_neg hcapabilities, yields_pure,
      Consistent, if_neg hreport, if_neg hsupported, if_neg hcapabilities]

theorem sent_names_iff (inst : UInt8) (index : UInt16) (command : UInt8 → List UInt8)
    (hcommand : Function.Injective command) :
    (∃ type : UInt8, type.toNat = settingType index ∧
        [Effect.sent inst (command (index &&& 0xFF).toUInt8)] = [.sent inst (command type)]) ↔
      ¬ IsLimit index ∧ index.toNat < 256 := by
  rw [← toNat_sent_iff]
  constructor
  · rintro ⟨type, htype, hsent⟩
    rw [List.singleton_inj, Effect.sent.injEq] at hsent
    rw [hcommand hsent.2, htype]
  · intro h
    exact ⟨_, h, rfl⟩

theorem requested_consistent_iff (index : UInt16) (inst : UInt8) :
    Consistent c values (.requested index inst) (requestValue c values index inst) ↔
      Plain c values (.requested index inst) := by
  rw [Consistent, requestValue, Plain]
  by_cases hsupported : index = 0xff
  · rw [if_pos hsupported, if_pos hsupported]
    exact iff_of_true rfl fun h => absurd hsupported h
  · rw [if_neg hsupported, if_neg hsupported, forall_prop_of_true hsupported]
    cases hget : c.getSupported with
    | false => exact iff_of_true rfl nofun
    | true =>
        cases hvalue : values 1 index with
        | false => exact iff_of_true rfl nofun
        | true =>
            rw [forall_prop_of_true rfl, forall_prop_of_true rfl]
            exact sent_names_iff inst index (fun type => [Cmd.get, type]) fun a b h => by simpa using h

/-- The values that are there and the flags are arbitrary, and so are the commands. -/
theorem setpoints_consistent_iff (c : Config) (values : Values) (event : Event) :
    (Yields (perform c values event) (Consistent c values event) ↔ Plain c values event) ∧
      (Yields (perform c values event) (AsksFor c event) ↔ WithoutBase c event) := by
  cases event with
  | received inst data =>
      refine ⟨received_consistent_iff c values inst data, ?_⟩
      by_cases hsupported : data.getD 0 0 = Cmd.supportedReport
      · rw [WithoutBase, forall_prop_of_true hsupported]
        exact supportedReport_asksFor_iff c values inst hsupported
      · refine iff_of_true ?_ fun h => absurd h hsupported
        obtain ⟨effects, heffects⟩ := safe_handleMsg c values inst data
        exact ⟨effects, heffects, fun h => absurd h hsupported⟩
  | requested index inst =>
      rw [perform, yields_pure, yields_pure]
      exact ⟨requested_consistent_iff c values index inst, iff_of_true trivial trivial⟩
  | set inst index units value =>
      rw [perform, yields_pure, yields_pure]
      refine ⟨sent_names_iff inst index (fun type => Cmd.set :: type :: _) fun a b h => ?_,
        iff_of_true trivial trivial⟩
      simpa using h

/-- Version 3 with the default flags. -/
def defaultConfig : Config where
  version := 3
  getSupported := true
  base := 1
  altTypeInterpretation := true
  overridePrecision := 0
  locale := CommandClass.cLocale

/-- The minimum of the heating setpoint is set as type 101, and a device that has only the
heating setpoint is asked for the capabilities of type 0. -/
theorem setpoints_not_consistent :
    ¬ Yields (perform defaultConfig (fun _ _ => true) (.set 1 101 ['C'] "5.0".toList))
        (Consistent defaultConfig (fun _ _ => true) (.set 1 101 ['C'] "5.0".toList)) ∧
      ¬ Yields (perform defaultConfig (fun _ _ => true) (.received 1 [0x05, 0x01]))
        (AsksFor defaultConfig (.received 1 [0x05, 0x01])) := by
  constructor
  · rw [perform, yields_pure]
    intro h
    have hplain := (sent_names_iff 1 101 (fun type => Cmd.set :: type :: _)
      fun a b h => by simpa using h).mp h
    exact hplain.1 (by decide)
  · intro h
    have hbase := (supportedReport_asksFor_iff defaultConfig (fun _ _ => true) 1 rfl).mp h
      (by decide) 0 (by decide)
    exact absurd hbase.1 (by decide)

end ThermostatSetpoint

end OpenZWave

import OpenZWave.NodeNaming
import OpenZWave.UserCode
import Mathlib.Data.Int.Order.Basic

/-!
# Notifications

The values that the reports on supported notifications create, the reports that refresh
them, and the timers that set them back. What a handler or a timer does to the values is
the list of its calls of `OnValueRefreshed`.
-/

namespace OpenZWave

open Checked

namespace Alarm

def classId : UInt8 := 0x71
def cmdEventSupportedReport : UInt8 := 0x02
def cmdReport : UInt8 := 0x05
def cmdSupportedReport : UInt8 := 0x08

/-- `ValueID_Index_Alarm`, behind the types and the parameters. -/
def typeV1 : UInt32 := 512
def levelV1 : UInt32 := 513
def autoClearEvents : UInt32 := 514

/-- What a handler or a timer must not do: leave the report, fail to extract a text, cast a
value to another type than its own, use a value that is not there. -/
inductive Fault
  | outside
  | text (fault : FrameFault)
  | cast
  | missing

/-! ## The notification types -/

/-- `NotificationEventParamTypes`. -/
inductive ParamType
  | location
  | list
  | userCodeReport
  | byte
  | string
  | time
  deriving DecidableEq

/-- `NotificationEventParams`, with the keys of `ListItems`. -/
structure EventParams where
  id : UInt32
  type : ParamType
  listItems : List UInt32

/-- `NotificationEvents`: the map of the parameters has their ids for keys. -/
structure NotificationEvents where
  id : UInt32
  eventParams : List EventParams
  sorted : (eventParams.map EventParams.id).Pairwise (· < ·)

/-- `NotificationTypes`. -/
structure NotificationTypes where
  id : UInt32
  events : List NotificationEvents
  sorted : (events.map NotificationEvents.id).Pairwise (· < ·)

/-- `NotificationCCTypes`. -/
structure NotificationCCTypes where
  notifications : List NotificationTypes
  sorted : (notifications.map NotificationTypes.id).Pairwise (· < ·)

namespace NotificationCCTypes

variable (types : NotificationCCTypes) (type event : UInt32)

def getAlarmNotificationTypes : Option NotificationTypes :=
  types.notifications.find? fun nt => nt.id = type

def getAlarmNotificationEvents : Option NotificationEvents :=
  (types.getAlarmNotificationTypes type).bind fun nt => nt.events.find? fun ne => ne.id = event

def getAlarmNotificationEventParams : List EventParams :=
  match types.getAlarmNotificationEvents type event with
  | none => []
  | some ne => ne.eventParams

end NotificationCCTypes

/-! ## Values -/

/-- The types of the values; a list with the values of its items. -/
inductive Kind
  | byte
  | string
  | int
  | list (items : List Int32)
  deriving DecidableEq

/-- What `OnValueRefreshed` of such a value is called with. -/
inductive Reading
  | byte (b : UInt8)
  | string (s : List UInt8)
  | int (n : Int32)
  | item (n : Int32)
  deriving DecidableEq

def Reading.fits : Reading → Kind → Bool
  | .byte _, .byte => true
  | .string _, .string => true
  | .int _, .int => true
  | .item _, .list _ => true
  | _, _ => false

/-- A list refuses what is none of its items. -/
def Kind.takes (kind : Kind) (reading : Reading) : Bool :=
  match kind, reading with
  | .list items, .item n => n ∈ items
  | kind, reading => reading.fits kind

/-- What a value is reset to. -/
def Kind.zero : Kind → Reading
  | .byte => .byte 0
  | .string => .string []
  | .int => .int 0
  | .list _ => .item 0

abbrev Values := UInt8 → UInt16 → Option Kind

/-- Where a refresh comes from. -/
inductive Source
  | v1
  | reset
  | param
  | event
  | clear
  deriving DecidableEq

/-- A call of `OnValueRefreshed`. -/
structure Refresh where
  source : Source
  inst : UInt8
  index : UInt16
  kind : Kind
  reading : Reading
  deriving DecidableEq

/-- A value is refreshed if it is there; only then is the reading made. -/
def refresh (values : Values) (source : Source) (inst index : UInt32)
    (reading : Except Fault Reading) : Except Fault (List Refresh) :=
  match values inst.toUInt8 index.toUInt16 with
  | none => return []
  | some kind => do
      let reading ← reading
      check (reading.fits kind = true) .cast
      return [⟨source, inst.toUInt8, index.toUInt16, kind, reading⟩]

/-- An entry of the timer list that belongs to the class. -/
structure ClearTimer where
  type : UInt32
  due : ℤ
  deriving DecidableEq

end Alarm

/-- What does not change: the version, the two compatibility flags, and the notification
types. -/
structure AlarmDevice where
  version : UInt8
  enableClear : Bool
  v1AlarmTypesEnabled : Bool
  types : Alarm.NotificationCCTypes

/-- The members of the class, the values of the node that belong to it by instance and
index, its timers in the order of the list, and the time in milliseconds. -/
structure Alarm where
  v1Params : Bool
  paramsSet : List UInt32
  clearTimeout : UInt32
  timersToInstances : UInt32 → Option UInt32
  values : Alarm.Values
  staticRequest : Bool
  timers : List Alarm.ClearTimer
  now : ℤ

namespace Alarm

/-- The constructor. -/
def new : Alarm where
  v1Params := false
  paramsSet := []
  clearTimeout := 5000
  timersToInstances := fun _ => none
  values := fun _ _ => none
  staticRequest := true
  timers := []
  now := 0

/-- `AddValue`: a value that is there already stays. -/
def addValue (inst index : UInt32) (kind : Kind) (values : Values) : Values :=
  if (values inst.toUInt8 index.toUInt16).isSome then values
  else
    Function.update values inst.toUInt8
      (Function.update (values inst.toUInt8) index.toUInt16 (some kind))

/-! ## Creation of values -/

/-- The values of a parameter. The items of a list are made from the event. -/
def createParam (inst : UInt32) (ne : NotificationEvents) (values : Values) (p : EventParams) :
    Values :=
  match p.type with
  | .location => addValue inst p.id .string values
  | .list => addValue inst p.id (.list (p.listItems.map fun _ => ne.id.toInt32)) values
  | .userCodeReport => addValue inst (p.id + 1) .string (addValue inst p.id .byte values)
  | .byte => addValue inst p.id .byte values
  | .string => addValue inst p.id .string values
  | .time => addValue inst p.id .int values

/-- `SetupEvents`: the values, and the items. -/
def setupEvents (types : NotificationCCTypes) (type inst : UInt32)
    (made : Values × List Int32) (index : UInt32) : Values × List Int32 :=
  match types.getAlarmNotificationEvents type index with
  | some ne => (ne.eventParams.foldl (createParam inst ne) made.1, made.2 ++ [ne.id.toInt32])
  | none => (made.1, made.2 ++ [index.toInt32])

/-- `_data[i]`. -/
def readByte (f : CommandFrame) (i : ℕ) : Except Fault UInt8 := readAt f.data i .outside

/-- The loops over the bits of a bit mask. -/
def forBits {σ : Type} (f : CommandFrame) (start numBytes : ℕ) (body : σ → UInt32 → σ) (s : σ) :
    Except Fault σ :=
  (List.range numBytes).foldlM (fun s i => do
    let byte ← readByte f (start + i)
    return (List.range 8).foldl (fun s bit =>
      if byte &&& (1 <<< UInt8.ofNat bit) ≠ 0 then body s (UInt32.ofNat (8 * i + bit)) else s) s) s

/-- What a call does to the values, and the types whose events it asks for. -/
structure Output where
  refreshes : List Refresh
  requested : List UInt32

def addV1 (inst : UInt32) (s : Alarm) : Alarm :=
  { s with
    v1Params := true
    values := addValue inst levelV1 .byte (addValue inst typeV1 .byte s.values) }

/-- A supported type. -/
def supportType (device : AlarmDevice) (inst : UInt32) (s : Alarm × List UInt32)
    (index : UInt32) : Alarm × List UInt32 :=
  if device.version = 2 then
    match device.types.getAlarmNotificationTypes index with
    | none => ({ s.1 with staticRequest := false }, s.2)
    | some nt =>
        let made := (nt.events.map NotificationEvents.id).foldl
          (setupEvents device.types index inst) (s.1.values, [])
        ({ s.1 with
            values := addValue inst index (.list made.2) made.1
            staticRequest := false }, s.2)
  else if device.version > 2 then (s.1, s.2 ++ [index])
  else s

def handleSupportedReport (device : AlarmDevice) (s : Alarm) (f : CommandFrame) (inst : UInt32) :
    Except Fault (Alarm × Output) := do
  let mask ← readByte f 1
  let s := if device.version > 2 ∧ mask &&& 0x80 ≠ 0 then s.addV1 inst else s
  let s ← forBits f 2 (mask &&& 0x1F).toNat (supportType device inst) (s, [])
  return (s.1, ⟨[], s.2⟩)

def handleEventSupportedReport (device : AlarmDevice) (s : Alarm) (f : CommandFrame)
    (inst : UInt32) : Except Fault (Alarm × Output) := do
  let type ← readByte f 1
  let numBytes ← readByte f 2
  let made := setupEvents device.types type.toUInt32 inst (s.values, []) 0
  let made ← forBits f 3 (numBytes &&& 0x1F).toNat (setupEvents device.types type.toUInt32 inst)
    made
  let values := addValue inst type.toUInt32 (.list made.2) made.1
  return ({ s with values := values, staticRequest := false }, ⟨[], []⟩)

/-! ## Parameters of a report -/

/-- The bytes from a place on. -/
def behind (f : CommandFrame) (start : ℕ) : CommandFrame where
  data := f.data.drop start
  fits := by
    have hfits := f.fits
    rw [List.length_drop]
    omega

/-- `ExtractString(&_data[start], length)`. -/
def extractString (surrogate : UInt16) (f : CommandFrame) (start : ℕ) (length : UInt32) :
    Except FrameFault (List UInt8 × UInt16) := do
  let encoding := (← (behind f start).read 1) &&& 0x07
  if length ≥ 3 then
    let numBytes := (length - 3).toUInt8
    let numBytes := if numBytes > 16 then 16 else numBytes
    let written ← NodeNaming.writeText surrogate (behind f start) encoding numBytes.toNat
    check (written.1.length < 32) .overrun
    return (NodeNaming.cString written.1, written.2)
  else return ([], surrogate)

/-- What the loop over the parameters changes, with the surrogate that the conversion of
texts keeps. -/
structure Update where
  surrogate : UInt16
  paramsSet : List UInt32
  refreshes : List Refresh

/-- The value of a parameter is refreshed if it is there. -/
def Update.write (u : Update) (values : Values) (inst index : UInt32)
    (reading : Except Fault (Reading × UInt16)) : Except Fault Update :=
  match values inst.toUInt8 index.toUInt16 with
  | none => return u
  | some kind => do
      let reading ← reading
      check (reading.1.fits kind = true) .cast
      return {
        surrogate := reading.2
        paramsSet := u.paramsSet ++ [index]
        refreshes :=
          u.refreshes ++ [⟨.param, inst.toUInt8, index.toUInt16, kind, reading.1⟩] }

/-- A byte that is passed on, and a text. -/
def Update.ofByte (u : Update) (f : CommandFrame) (i : ℕ) (reading : UInt8 → Reading) :
    Except Fault (Reading × UInt16) := do
  return (reading (← readByte f i), u.surrogate)

def Update.ofText (u : Update) (f : CommandFrame) (start : ℕ) (length : UInt32) :
    Except Fault (Reading × UInt16) :=
  match extractString u.surrogate f start length with
  | .ok text => .ok (.string text.1, text.2)
  | .error fault => .error (.text fault)

/-- A duration, in seconds. -/
def Update.ofDuration (u : Update) (f : CommandFrame) : Except Fault (Reading × UInt16) := do
  let hours ← readByte f 10
  let minutes ← readByte f 11
  let seconds ← readByte f 12
  return (.int (Int32.ofNat (hours.toNat * 3600 + minutes.toNat * 60 + seconds.toNat)),
    u.surrogate)

/-- The class and the command of the encapsulated report; the second byte is read only if
the first is right. -/
def hasHeader (f : CommandFrame) (cc cmd : UInt8) : Except Fault Bool := do
  if (← readByte f 8) = cc then return (← readByte f 9) = cmd else return false

/-- The switch over the types of the parameters; `n` is `EventParamLength`. -/
def updateParam (values : Values) (f : CommandFrame) (inst : UInt32) (n : UInt8) (u : Update)
    (p : EventParams) : Except Fault Update :=
  match p.type with
  | .location => do
      if (← hasHeader f NodeNaming.classId NodeNaming.cmdReport) ∧ n > 2 then
        u.write values inst p.id (u.ofText f 10 (n.toUInt32 - 2))
      else return u
  | .list =>
      if n = 1 then u.write values inst p.id (u.ofByte f 8 fun b => .item b.toUInt32.toInt32)
      else return u
  | .userCodeReport => do
      if n ≥ 8 then
        if ← hasHeader f UserCode.classId UserCode.cmdReport then
          let u ← u.write values inst p.id (u.ofByte f 11 .byte)
          u.write values inst p.id (u.ofText f 12 (n.toUInt32 - 4))
        else return u
      else if n = 1 then u.write values inst p.id (u.ofByte f 8 .byte)
      else return u
  | .byte =>
      if n = 1 then u.write values inst p.id (u.ofByte f 8 .byte) else return u
  | .string => u.write values inst p.id (u.ofText f 10 (n.toUInt32 - 2))
  | .time =>
      if n = 3 then u.write values inst p.id (u.ofDuration f) else return u

/-- `ClearEventParams`: every value is used, and reset by its type. -/
def clearEventParams (s : Alarm) (inst : UInt32) : Except Fault (List Refresh) :=
  s.paramsSet.mapM fun index =>
    match s.values inst.toUInt8 index.toUInt16 with
    | none => .error .missing
    | some kind => .ok ⟨.reset, inst.toUInt8, index.toUInt16, kind, kind.zero⟩

/-! ## Reports -/

def refreshV1 (s : Alarm) (inst : UInt32) (type level : UInt8) : Except Fault (List Refresh) := do
  let first ← refresh s.values .v1 inst typeV1 (.ok (.byte type))
  let second ← refresh s.values .v1 inst levelV1 (.ok (.byte level))
  return first ++ second

def reportV1 (s : Alarm) (f : CommandFrame) (inst : UInt32) : Except Fault (List Refresh) := do
  let type ← readByte f 1
  let level ← readByte f 2
  refreshV1 s inst type level

/-- With `m_v1Params` only. -/
def ifV1 (s : Alarm) (v1 : Except Fault (List Refresh)) : Except Fault (List Refresh) :=
  if s.v1Params then v1 else return []

/-- `TimerSetEvent`, for a callback with the type; the instance is stored if there is none. -/
def setClear (s : Alarm) (type inst : UInt32) : Alarm :=
  { s with
    timersToInstances :=
      if s.timersToInstances type = none then
        Function.update s.timersToInstances type (some inst)
      else s.timersToInstances
    timers := s.timers ++ [⟨type, s.now + s.clearTimeout.toInt32.toInt⟩] }

/-- The type, the event and the length of the parameters. -/
structure Header where
  type : UInt8
  event : UInt8
  paramLength : UInt8

/-- The head of a report; the sequence number is read behind the parameters. -/
def readHeader (f : CommandFrame) : Except Fault Header := do
  let _ ← readByte f 4
  let type ← readByte f 5
  let event ← readByte f 6
  let flags ← readByte f 7
  let n := flags &&& 0x1F
  if flags &&& 0x80 ≠ 0 then
    let _ ← readByte f (7 + n.toNat)
    return ⟨type, event, n⟩
  else return ⟨type, event, n⟩

/-- The parameters that a report may refresh. -/
def paramsOf (device : AlarmDevice) (head : Header) : List EventParams :=
  if head.paramLength > 0 then
    device.types.getAlarmNotificationEventParams head.type.toUInt32 head.event.toUInt32
  else []

/-- The state behind a report: the parameters that are set, and a timer for an event. -/
def afterReport (device : AlarmDevice) (s : Alarm) (inst : UInt32) (head : Header) (u : Update) :
    Alarm :=
  let s := { s with paramsSet := u.paramsSet }
  if head.event ≠ 0 ∧ device.version < 4 ∧ s.clearTimeout > 0 ∧ device.enableClear = true then
    s.setClear head.type.toUInt32 inst
  else s

def handleReport (device : AlarmDevice) (surrogate : UInt16) (s : Alarm) (f : CommandFrame)
    (inst : UInt32) : Except Fault (Alarm × Output) :=
  if device.version = 1 then do
    let v1 ← s.reportV1 f inst
    return (s, ⟨v1, []⟩)
  else if device.version > 1 ∧ f.length ≥ 7 then do
    let v1 ← s.ifV1 (s.reportV1 f inst)
    let head ← readHeader f
    let resets ← clearEventParams s inst
    let u ← (paramsOf device head).foldlM (updateParam s.values f inst head.paramLength)
      ⟨surrogate, [], []⟩
    let notified ← refresh s.values .event inst head.type.toUInt32
      (.ok (.item head.event.toUInt32.toInt32))
    return (afterReport device s inst head u, ⟨v1 ++ resets ++ u.refreshes ++ notified, []⟩)
  else return (s, ⟨[], []⟩)

/-- `HandleMsg`; `surrogate` is what the conversion of texts has kept. -/
def handleMsg (device : AlarmDevice) (surrogate : UInt16) (s : Alarm) (f : CommandFrame)
    (inst : UInt32) : Except Fault (Alarm × Output) := do
  let cmd ← readByte f 0
  if cmd = cmdReport then handleReport device surrogate s f inst
  else if cmd = cmdSupportedReport then handleSupportedReport device s f inst
  else if cmd = cmdEventSupportedReport then handleEventSupportedReport device s f inst
  else return (s, ⟨[], []⟩)

/-! ## Timers -/

/-- `ClearAlarm`. -/
def clearAlarm (s : Alarm) (type : UInt32) : Except Fault (Alarm × List Refresh) :=
  match s.timersToInstances type with
  | none => return (s, [])
  | some inst => do
      let s := { s with timersToInstances := Function.update s.timersToInstances type none }
      let resets ← clearEventParams s inst
      let cleared ← refresh s.values .clear inst type (.ok (.item 0))
      let v1 ← s.ifV1 (refreshV1 s inst 0 0)
      return (s, resets ++ cleared ++ v1)

/-- An entry of the list, when the thread comes to it: `TimerFireEvent` calls the callback
and deletes the entry. -/
def visit (s : Alarm × List Refresh) (te : ClearTimer) : Except Fault (Alarm × List Refresh) :=
  if te.due ≤ s.1.now then do
    let fired ← clearAlarm s.1 te.type
    return ({ fired.1 with timers := fired.1.timers.erase te }, s.2 ++ fired.2)
  else return s

/-- The thread goes through the list. -/
def pass (s : Alarm) : Except Fault (Alarm × List Refresh) := s.timers.foldlM visit (s, [])

/-! ## Steps -/

inductive Step
  | requestState (inst : UInt32)
  | setValue (milliseconds : Int32)
  | handleMsg (surrogate : UInt16) (f : CommandFrame) (inst : UInt32)
  | elapse (milliseconds : ℕ)
  | pass

/-- What `RequestState` creates. -/
def requestState (device : AlarmDevice) (s : Alarm) (inst : UInt32) : Alarm :=
  if s.staticRequest then
    let s := if device.version = 1 ∨ device.v1AlarmTypesEnabled then s.addV1 inst else s
    if device.version < 4 ∧ device.enableClear then
      { s with values := addValue inst autoClearEvents .int s.values }
    else s
  else s

def step (device : AlarmDevice) (s : Alarm) : Step → Except Fault (Alarm × Output)
  | .requestState inst => .ok (requestState device s inst, ⟨[], []⟩)
  | .setValue milliseconds => .ok ({ s with clearTimeout := milliseconds.toUInt32 }, ⟨[], []⟩)
  | .handleMsg surrogate f inst => handleMsg device surrogate s f inst
  | .elapse milliseconds => .ok ({ s with now := s.now + milliseconds }, ⟨[], []⟩)
  | .pass => do
      let passed ← s.pass
      return (passed.1, ⟨passed.2, []⟩)

/-! ## Steps without a fault -/

section Harmless

variable (device : AlarmDevice) (s : Alarm) (f : CommandFrame) (inst : UInt32)

/-- The values of version 1, where they are there. -/
def V1Fits : Prop :=
  ∀ index ∈ [typeV1, levelV1], ∀ kind, s.values inst.toUInt8 index.toUInt16 = some kind →
    kind = .byte

/-- The value of a type, where it is there. -/
def TypeFits (type : UInt32) : Prop :=
  ∀ kind, s.values inst.toUInt8 type.toUInt16 = some kind → ∃ items, kind = .list items

/-- The parameters that are set have values on the instance. -/
def Clearable : Prop :=
  ∀ index ∈ s.paramsSet, (s.values inst.toUInt8 index.toUInt16).isSome = true

def headOf : Header where
  type := f.data.getD 5 0
  event := f.data.getD 6 0
  paramLength := f.data.getD 7 0 &&& 0x1F

/-- A text that `ExtractString` takes from the report, whatever was converted before. -/
def TextFits (start : ℕ) (length : UInt32) : Prop :=
  ∀ surrogate, Safe (extractString surrogate f start length)

/-- Nothing goes wrong with a parameter: the bytes that are looked at are there, and so is
what its value reads, if the value is there; the value has the type of the parameter. A
user code has two types, and hence no value. -/
def HarmlessParam (values : Values) (n : UInt8) (p : EventParams) : Prop :=
  let value := values inst.toUInt8 p.id.toUInt16
  let headed := fun cc cmd => f.data.getD 8 0 = cc ∧ f.data.getD 9 0 = cmd
  match p.type with
  | .location =>
      8 < f.data.length ∧ (f.data.getD 8 0 = NodeNaming.classId → 9 < f.data.length) ∧
        (headed NodeNaming.classId NodeNaming.cmdReport → n > 2 → ∀ kind, value = some kind →
          kind = .string ∧ TextFits f 10 (n.toUInt32 - 2))
  | .list => n = 1 → ∀ kind, value = some kind →
      8 < f.data.length ∧ ∃ items, kind = .list items
  | .userCodeReport =>
      (n ≥ 8 → 8 < f.data.length ∧ (f.data.getD 8 0 = UserCode.classId → 9 < f.data.length) ∧
        (headed UserCode.classId UserCode.cmdReport → value = none)) ∧
      (n = 1 → ∀ kind, value = some kind → 8 < f.data.length ∧ kind = .byte)
  | .byte => n = 1 → ∀ kind, value = some kind → 8 < f.data.length ∧ kind = .byte
  | .string => ∀ kind, value = some kind → kind = .string ∧ TextFits f 10 (n.toUInt32 - 2)
  | .time => n = 3 → ∀ kind, value = some kind → 12 < f.data.length ∧ kind = .int

/-- The report has its head, with the sequence number behind the parameters. -/
structure HeadFits : Prop where
  long : 8 ≤ f.data.length
  sequence : f.data.getD 7 0 &&& 0x80 ≠ 0 →
    7 + (f.data.getD 7 0 &&& 0x1F).toNat < f.data.length

/-- A report from version 2 on. -/
structure HarmlessReport : Prop where
  head : HeadFits f
  v1 : s.v1Params = true → V1Fits s inst
  clear : Clearable s inst
  params : ∀ p ∈ paramsOf device (headOf f),
    HarmlessParam f inst s.values (headOf f).paramLength p
  type : TypeFits s inst (headOf f).type.toUInt32

/-- A message: it has a command, and the bytes that its command needs. `report` is what is
asked of a report from version 2 on. -/
structure MsgFits (report : Prop) : Prop where
  command : 1 ≤ f.data.length
  version1 : f.data.getD 0 0 = cmdReport → device.version = 1 →
    3 ≤ f.data.length ∧ V1Fits s inst
  report : f.data.getD 0 0 = cmdReport → device.version > 1 → f.length ≥ 7 → report
  supported : f.data.getD 0 0 = cmdSupportedReport → 2 ≤ f.data.length ∧
    2 + (f.data.getD 1 0 &&& 0x1F).toNat ≤ f.data.length
  events : f.data.getD 0 0 = cmdEventSupportedReport → 3 ≤ f.data.length ∧
    3 + (f.data.getD 2 0 &&& 0x1F).toNat ≤ f.data.length

/-- What is cleared for a type has its values on the instance. -/
structure ClearFits (type : UInt32) : Prop where
  clear : Clearable s inst
  type : TypeFits s inst type
  v1 : s.v1Params = true → V1Fits s inst

/-- A pass of the thread: every timer that is due finds the values that it clears. -/
def HarmlessPass : Prop :=
  ∀ te ∈ s.timers, te.due ≤ s.now → ∀ inst, s.timersToInstances te.type = some inst →
    ClearFits s inst te.type

end Harmless

end Alarm

end OpenZWave

import OpenZWave.DecimalValue
import OpenZWave.Duration
import OpenZWave.Framing

/-!
# Requests of command classes

Each builder of a command class writes the length of its command before the command
itself. The builders below are translated with all that decides how many bytes they
append: sizes, texts, versions, and values that may be missing.
-/

namespace OpenZWave

open NumberText DecimalText

/-! ## A request -/

/-- A SEND_DATA request: the message before its first `Append`, and then what is
appended, in this order. -/
structure SendData where
  head : Msg
  nodeId : UInt8
  declared : UInt8
  command : List UInt8
  transmitOptions : UInt8

namespace SendData

def appended (request : SendData) : List UInt8 :=
  request.nodeId :: request.declared :: (request.command ++ [request.transmitOptions])

/-- The length byte counts the command, and the finished message stays within the
buffer and its length byte. -/
structure WellFormed (request : SendData) : Prop where
  counted : request.declared.toNat = request.command.length
  fits : request.head.totalLength request.appended.length ≤ 255

end SendData

/-- What a command class reads of itself, of its node and of its driver. -/
structure Sender where
  nodeId : UInt8
  transmitOptions : UInt8
  cc : CommandClass
  micc : Option CommandClass

/-- What ends a builder early: an exception, `throw` without one, or a null pointer. -/
inductive Abort
  | outOfRange
  | terminate
  | nullPointer
  deriving DecidableEq

/-- What a builder returns, and the requests it has passed to `SendMsg`. -/
abbrev Sent := Except Abort (Bool × List SendData)

namespace Sender

variable (sender : Sender)

/-- A message that sets something, one that does not wait for a reply, and one that asks
for a report of the command class. -/
def set (id : ℕ) : Msg := Msg.new id sender.nodeId REQUEST FuncId.sendData true

def setNoReply (id : ℕ) : Msg := Msg.new id sender.nodeId REQUEST FuncId.sendData true false

def get (id : ℕ) (classId : UInt8) : Msg :=
  Msg.new id sender.nodeId REQUEST FuncId.sendData true true FuncId.applicationCommandHandler classId

/-- `SetInstance` for this class. -/
def onInstance (head : Msg) (inst : UInt8) : Msg := head.setInstance sender.micc sender.cc inst

def request (head : Msg) (declared : UInt8) (command : List UInt8) : SendData where
  head := head
  nodeId := sender.nodeId
  declared := declared
  command := command
  transmitOptions := sender.transmitOptions

end Sender

/-! ## Configuration -/

namespace Configuration

def classId : UInt8 := 0x70
def cmdSet : UInt8 := 0x04

/-- `Configuration::Set`. -/
def set (sender : Sender) (id : ℕ) (parameter : UInt16) (value : Int32) (size : UInt8) : SendData :=
  let bits := value.toUInt32
  sender.request (sender.set id) (4 + size)
    ([classId, cmdSet, (parameter &&& 0xFF).toUInt8, size] ++
      (if size > 2 then [((bits >>> 24) &&& 0xff).toUInt8, ((bits >>> 16) &&& 0xff).toUInt8] else []) ++
      (if size > 1 then [((bits >>> 8) &&& 0xff).toUInt8] else []) ++
      [(bits &&& 0xff).toUInt8])

end Configuration

/-! ## Color -/

namespace Color

def classId : UInt8 := 0x33
def cmdCapabilityGet : UInt8 := 0x01
def cmdSet : UInt8 := 0x05

/-- `ColorIDX`. -/
def warmWhite : UInt8 := 0
def coldWhite : UInt8 := 1
def red : UInt8 := 2
def green : UInt8 := 3
def blue : UInt8 := 4
def amber : UInt8 := 5
def cyan : UInt8 := 6
def purple : UInt8 := 7
def indexColor : UInt8 := 8

/-- `GetColor`: two hexadecimal digits at a position. -/
def getColor (rgbstring : List Char) (position : ℕ) : Except Abort UInt16 :=
  if rgbstring.length < position * 2 + 1 then .error .terminate
  else .ok (UInt16.ofInt (strtol 16 ((rgbstring.drop ((position - 1) * 2 + 1)).take 2)).1)

/-- The colors that are read of a string, each at its position: how many depends on the
number that the string has room for. -/
def colorPositions (nocols : UInt8) : List (UInt8 × ℕ) :=
  [(red, 1), (green, 2), (blue, 3)] ++
    (if nocols = 4 then [(warmWhite, 4)] else []) ++
    (if nocols ≥ 5 then [(warmWhite, 4), (coldWhite, 5)] else []) ++
    (if nocols ≥ 6 then [(amber, 6)] else []) ++
    (if nocols ≥ 7 then [(cyan, 7)] else []) ++
    (if nocols = 8 then [(purple, 8)] else [])

/-- They are appended as they are read: the index of each color and its value. -/
def colorBytes (rgbstring : List Char) : List (UInt8 × ℕ) → Except Abort (List UInt8)
  | [] => .ok []
  | (index, position) :: positions => do
      let color ← getColor rgbstring position
      let rest ← colorBytes rgbstring positions
      return index :: color.toUInt8 :: rest

/-- The duration that is appended from version two on. -/
def durationBytes (version : UInt8) (default : UInt32) (duration : Option Int32) : List UInt8 :=
  if version > 1 then
    [CommandClass.encodeDuration ((duration.map Int32.toUInt32).getD default)]
  else []

/-- The length of a command with some colors. -/
def declaredLength (version nocols : UInt8) : UInt8 :=
  if version > 1 then UInt8.ofNat (3 + nocols.toNat * 2 + 1) else UInt8.ofNat (3 + nocols.toNat * 2)

/-- `SetValue` for the color string. -/
def setColor (sender : Sender) (id : ℕ) (inst : UInt8) (duration : Option Int32) (s : List Char) :
    Sent := do
  let first ← match s.head? with
    | some c => pure c
    | none => throw .outOfRange
  if first ≠ '#' then return (false, [])
  if (s.length - 1) % 2 ≠ 0 then return (false, [])
  let nocols := UInt8.ofNat ((s.length - 1) / 2)
  let colors ← colorBytes s (colorPositions nocols)
  return (true, [sender.request (sender.onInstance (sender.setNoReply id) inst)
    (declaredLength sender.cc.version nocols)
    ([classId, cmdSet, nocols] ++ colors ++ durationBytes sender.cc.version 15300 duration)])

/-- A bit of `STATE_FLAG_COLOR_CHANNELS`. -/
def has (capabilities : UInt16) (color : UInt8) : Bool := capabilities &&& (1 <<< color.toUInt16) ≠ 0

def rgb (r g b : UInt8) : List UInt8 := [red, r, green, g, blue, b]

/-- The switch over the index, for a device with or without warm and cold white: what is
appended, and whether warm and cold white are among it. -/
def fakeColor (warm cold : Bool) : ℕ → List UInt8 × Bool × Bool
  | 0 => (rgb 0x00 0x00 0x00, false, false)
  | 1 =>
      if cold then
        ((if warm then [warmWhite, 0x00] else []) ++ [coldWhite, 0xFF] ++ rgb 0x00 0x00 0x00, warm, true)
      else (rgb 0xFF 0xFF 0xFF, false, false)
  | 2 =>
      if warm then
        ([warmWhite, 0xFF] ++ (if cold then [coldWhite, 0x00] else []) ++ rgb 0x00 0x00 0x00, true, cold)
      else (rgb 0xFF 0x93 0x29, false, false)
  | 3 => (rgb 0xFF 0x00 0x00, false, false)
  | 4 => (rgb 0x00 0xFF 0x00, false, false)
  | 5 => (rgb 0x00 0x00 0xFF, false, false)
  | 6 => (rgb 0xFF 0xFF 0x00, false, false)
  | 7 => (rgb 0x00 0xFF 0xFF, false, false)
  | 8 => (rgb 0xFF 0x00 0xFF, false, false)
  | 9 => (rgb 0xC0 0xC0 0xC0, false, false)
  | 10 => (rgb 0x80 0x80 0x80, false, false)
  | 11 => (rgb 0x80 0x00 0x00, false, false)
  | 12 => (rgb 0x80 0x80 0x00, false, false)
  | 13 => (rgb 0x00 0x80 0x00, false, false)
  | 14 => (rgb 0x80 0x00 0x80, false, false)
  | 15 => (rgb 0x00 0x80 0x80, false, false)
  | 16 => (rgb 0x00 0x00 0x80, false, false)
  | 17 => (rgb 0x00 0x00 0x00, false, false)
  | _ => ([], false, false)

/-- The number of colors of the device, red, green and blue among them. -/
def countColors (capabilities : UInt16) : UInt8 :=
  3 + (if has capabilities warmWhite then 1 else 0) + (if has capabilities coldWhite then 1 else 0) +
    (if has capabilities amber then 1 else 0) + (if has capabilities cyan then 1 else 0) +
    (if has capabilities purple then 1 else 0)

/-- `SetValue` for the color index. -/
def setIndex (sender : Sender) (id : ℕ) (inst : UInt8) (capabilities : UInt16)
    (duration : Option Int32) (item : Option Int32) : Sent := do
  let some item := item | return (false, [])
  let index := item.toUInt32.toUInt8
  let head := sender.onInstance (sender.setNoReply id) inst
  if has capabilities indexColor then
    return (true, [sender.request head (if sender.cc.version > 1 then 3 + 2 + 1 else 3 + 2)
      ([classId, cmdSet, 1, indexColor, index] ++ durationBytes sender.cc.version 15300 duration)])
  else
    let nocols := countColors capabilities
    let (colors, wwset, cwset) :=
      fakeColor (has capabilities warmWhite) (has capabilities coldWhite) index.toNat
    return (true, [sender.request head (declaredLength sender.cc.version nocols)
      ([classId, cmdSet, nocols] ++ colors ++
        (if has capabilities warmWhite && !wwset then [warmWhite, 0x00] else []) ++
        (if has capabilities coldWhite && !cwset then [coldWhite, 0x00] else []) ++
        (if has capabilities amber then [amber, 0x00] else []) ++
        (if has capabilities cyan then [cyan, 0x00] else []) ++
        (if has capabilities purple then [purple, 0x00] else []) ++
        durationBytes sender.cc.version 0 duration)])

/-- The value that is set, by its index in the class. -/
inductive Value
  | color (value : List Char)
  | index (item : Option Int32)
  | duration (value : Int32)
  | channelsCapabilities (value : Int32)
  | other

/-- The flag `STATE_FLAG_COLOR_CHANNELS` after `SetValue`. -/
def setChannels (capabilities : UInt16) : Value → UInt16
  | .channelsCapabilities value => value.toUInt32.toUInt16
  | _ => capabilities

/-- `Color::SetValue`. -/
def setValue (sender : Sender) (id : ℕ) (inst : UInt8) (capabilities : UInt16)
    (duration : Option Int32) (value : Value) : Sent :=
  match value with
  | .color s => setColor sender id inst duration s
  | .index item => setIndex sender id inst capabilities duration item
  | .duration _ => return (true, [])
  | .channelsCapabilities _ =>
      if setChannels capabilities value = 0 then
        return (false, [sender.request (sender.get id classId) 2 [classId, cmdCapabilityGet]])
      else return (false, [])
  | .other => return (false, [])

end Color

/-! ## Thermostat setpoint -/

namespace ThermostatSetpoint

def classId : UInt8 := 0x43
def cmdSet : UInt8 := 0x01

/-- `ThermostatSetpoint::SetValue` of a decimal value; of another type nothing is sent. -/
def setValue (sender : Sender) (id : ℕ) (inst override : UInt8) (index : UInt16)
    (units : List Char) (value : Option (List Char)) : Sent := do
  let some value := value | return (false, [])
  let scale : UInt8 := if cStr units = ['C'] then 0 else 1
  return (true, [sender.request (sender.onInstance (sender.set id) inst)
    (4 + CommandClass.getAppendValueSize override value)
    ([classId, cmdSet, (index &&& 0xFF).toUInt8] ++ CommandClass.appendValue override value scale)])

end ThermostatSetpoint

/-! ## Multilevel switch -/

namespace SwitchMultilevel

def classId : UInt8 := 0x26
def cmdSet : UInt8 := 0x01
def cmdGet : UInt8 := 0x02
def cmdStartLevelChange : UInt8 := 0x04

/-- `SwitchMultilevel::SetLevel`: the duration is read without a check for it. -/
def setLevel (sender : Sender) (id : ℕ) (inst level : UInt8) (duration : Option Int32) : Sent := do
  let head := sender.onInstance (sender.set id) inst
  if sender.cc.version ≥ 2 then
    let some duration := duration | throw .nullPointer
    return (true, [sender.request head 4
      [classId, cmdSet, level, CommandClass.encodeDuration duration.toUInt32]])
  else return (true, [sender.request head 3 [classId, cmdSet, level]])

/-- `SwitchMultilevel::RequestValue` of the level; `getSupported` is the flag
`COMPAT_FLAG_GETSUPPORTED`. -/
def requestLevel (sender : Sender) (id : ℕ) (inst : UInt8) (getSupported : Bool) : List SendData :=
  if getSupported then
    [sender.request (sender.onInstance (sender.get id classId) inst) 2 [classId, cmdGet]]
  else []

/-- The values that a level change reads. -/
structure LevelValues where
  ignoreStartLevel : Option Bool
  startLevel : Option UInt8
  duration : Option Int32
  step : Option UInt8

/-- `c_directionParams`. -/
def directionParams : List UInt8 := [0x00, 0x40, 0x00, 0x40]

/-- The length that `StartLevelChange` declares: the step counts for directions two and
three. -/
def changeLength (direction : UInt32) (values : LevelValues) : UInt8 :=
  if (direction = 2 ∨ direction = 3) ∧ values.step.isSome then 6
  else if values.duration.isSome then 5
  else 4

/-- `SwitchMultilevel::StartLevelChange`. -/
def startLevelChange (sender : Sender) (id : ℕ) (inst : UInt8) (direction : UInt32)
    (values : LevelValues) (getSupported : Bool) : Sent := do
  if direction > 3 then return (false, [])
  let bits := directionParams.getD direction.toNat 0 |||
    (if values.ignoreStartLevel.getD false then 0x20 else 0)
  let length := changeLength direction values
  let duration := (values.duration.map Int32.toUInt32).getD 0xFFFFFFFF
  let bits :=
    if sender.cc.version = 2 then bits &&& 0x60
    else if sender.cc.version ≥ 3 then bits &&& 0xE0
    else bits
  return (true, sender.request (sender.onInstance (sender.set id) inst) length
      ([classId, cmdStartLevelChange, bits, values.startLevel.getD 0] ++
        (if length ≥ 5 then [CommandClass.encodeDuration duration] else []) ++
        (if length = 6 then [values.step.getD 0] else [])) ::
    requestLevel sender (id + 1) inst getSupported)

end SwitchMultilevel

/-! ## Command configuration of associations -/

namespace AssociationCommandConfiguration

def classId : UInt8 := 0x9b
def cmdSet : UInt8 := 0x03

/-- `AssociationCommandConfiguration::SetCommand`. -/
def setCommand (sender : Sender) (id : ℕ) (groupIdx nodeId length : UInt8) (data : List UInt8) :
    SendData :=
  sender.request (sender.get id classId) (length + 5)
    ([classId, cmdSet, groupIdx, nodeId, length] ++
      (List.range length.toNat).map fun i => data.getD i 0)

end AssociationCommandConfiguration

/-! ## Door lock logging -/

namespace DoorLockLogging

def classId : UInt8 := 0x4c
def cmdRecordSupportedGet : UInt8 := 0x01
def cmdRecordGet : UInt8 := 0x03

/-- `DoorLockLogging::RequestValue`; `curRecord` is `m_CurRecord`. -/
def requestValue (sender : Sender) (id : ℕ) (inst : UInt8) (what : UInt16) (curRecord : UInt8) :
    Bool × List SendData :=
  let head := sender.onInstance (sender.get id classId) inst
  if what = cmdRecordSupportedGet.toUInt16 then
    (true, [sender.request head 2 [classId, cmdRecordSupportedGet]])
  else if what = cmdRecordGet.toUInt16 then
    (true, [sender.request head 2 [classId, cmdRecordGet, curRecord]])
  else (false, [])

end DoorLockLogging

end OpenZWave

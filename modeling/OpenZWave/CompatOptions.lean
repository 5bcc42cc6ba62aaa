import Mathlib.Logic.Function.Basic
import Mathlib.Tactic.Common
import OpenZWave.Lib.NumberText
import OpenZWave.TinyXml

/-!
# Compatibility options

A command class has two managers of options: what the configuration file says about a
device, and what was found out about it. A flag holds one value, or one for each index with
a default for the others. The options are kept in the cache file of the driver.
-/

namespace OpenZWave

open NumberText

/-- `CompatOptionFlags`. -/
inductive CompatOptionFlags
  | getSupported
  | overridePrecision
  | forceVersion
  | createVars
  | refreshOnWakeup
  | basicIgnoreRemapping
  | basicSetAsReport
  | basicMapping
  | colorIdxBug
  | mcaForceInstances
  | miMapRootToEndpoint
  | miForceUniqueEndpoints
  | miIgnMCCapReports
  | miEndpointHint
  | tsspBase
  | tsspAltTypeInterpretation
  | ucExposeRawValue
  | versionGetClassVersion
  | wakeupDelayNmi
  | miRemoveCC
  | verifyChanged
  | notEnableClear
  | notV1AlarmTypesEnabled
  | noRefreshAfterSet
  | ccVersion
  | staticRequests
  | afterMark
  | encrypted
  | inNif
  | csSceneCount
  | csClearTimeout
  | ccsChangeCounter
  | colorChannels
  | doorlockTimeout
  | doorlockInsideMode
  | doorlockOutsideMode
  | doorlockTimeoutMins
  | doorlockTimeoutSecs
  | doorlockLogMaxRecords
  | userCodeCount
  deriving DecidableEq

/-- The kinds of values. -/
inductive FlagKind
  | bool
  | byte
  | short
  | int
  deriving DecidableEq

namespace FlagKind

/-- The values of a kind. -/
def Carrier : FlagKind → Type
  | bool => Bool
  | byte => UInt8
  | short => UInt16
  | int => UInt32

instance (kind : FlagKind) : DecidableEq kind.Carrier :=
  match kind with
  | bool => inferInstanceAs (DecidableEq Bool)
  | byte => inferInstanceAs (DecidableEq UInt8)
  | short => inferInstanceAs (DecidableEq UInt16)
  | int => inferInstanceAs (DecidableEq UInt32)

/-- `false` or zero. -/
def zero : (kind : FlagKind) → kind.Carrier
  | bool => false
  | byte => (0 : UInt8)
  | short => (0 : UInt16)
  | int => (0 : UInt32)

/-- The default that `EnableFlag` makes of its argument. -/
def ofDefault : (kind : FlagKind) → UInt32 → kind.Carrier
  | bool => fun defaultval =>
      let defaultval := if defaultval > 2 then 0 else defaultval
      !(defaultval == 0)
  | byte => fun defaultval => (if defaultval > 0xFF then 0 else defaultval).toUInt8
  | short => fun defaultval => (if defaultval > 0xFFFF then 0 else defaultval).toUInt16
  | int => fun defaultval => defaultval

/-- The text of a value. -/
def print : (kind : FlagKind) → kind.Carrier → List Char
  | bool => fun value : Bool => if value then "true".toList else "false".toList
  | byte => fun value : UInt8 => printInt value.toNat
  | short => fun value : UInt16 => printInt value.toNat
  | int => fun value : UInt32 => printInt value.toInt32.toInt

/-- The value of a text; a number that is too large is read as zero. -/
def parse : (kind : FlagKind) → List Char → kind.Carrier
  | bool => fun value => decide (value = "true".toList)
  | byte => fun value =>
      let val := UInt32.ofInt (strtol 10 value).1
      (if val > 0xFF then 0 else val).toUInt8
  | short => fun value =>
      let val := UInt32.ofInt (strtol 10 value).1
      (if val > 0xFFFF then 0 else val).toUInt16
  | int => fun value => UInt32.ofInt (strtol 10 value).1

end FlagKind

/-- `CompatOptionFlagType`. -/
inductive CompatOptionFlagType
  | bool
  | byte
  | short
  | int
  | boolArray
  | byteArray
  | shortArray
  | intArray
  deriving DecidableEq

namespace CompatOptionFlagType

def kind : CompatOptionFlagType → FlagKind
  | bool | boolArray => .bool
  | byte | byteArray => .byte
  | short | shortArray => .short
  | int | intArray => .int

def isArray : CompatOptionFlagType → Bool
  | bool | byte | short | int => false
  | boolArray | byteArray | shortArray | intArray => true

end CompatOptionFlagType

/-- `CompatOptionFlagStorage`. The union has a member for each kind, of which the type
tells the one in use; so have the arrays. -/
structure CompatOptionFlagStorage where
  type : CompatOptionFlagType
  changed : Bool
  val : (kind : FlagKind) → kind.Carrier
  valArray : (kind : FlagKind) → Std.TreeMap UInt32 kind.Carrier

/-- `CompatOptionFlagDefintions`. -/
structure CompatOptionFlagDefintions where
  name : String
  flag : CompatOptionFlags
  type : CompatOptionFlagType
  deriving DecidableEq

/-- The flags that a manager may have; neither names nor flags occur twice. -/
structure FlagTable where
  flags : List CompatOptionFlagDefintions
  names_nodup : (flags.map (·.name)).Nodup
  flags_nodup : (flags.map (·.flag)).Nodup

def availableCompatFlags : FlagTable where
  flags := [
    ⟨"GetSupported", .getSupported, .bool⟩,
    ⟨"OverridePrecision", .overridePrecision, .byte⟩,
    ⟨"ForceVersion", .forceVersion, .byte⟩,
    ⟨"CreateVars", .createVars, .bool⟩,
    ⟨"RefreshOnWakeup", .refreshOnWakeup, .bool⟩,
    ⟨"IgnoreMapping", .basicIgnoreRemapping, .bool⟩,
    ⟨"SetAsReport", .basicSetAsReport, .bool⟩,
    ⟨"Mapping", .basicMapping, .byte⟩,
    ⟨"ColorIndexBug", .colorIdxBug, .bool⟩,
    ⟨"ForceInstances", .mcaForceInstances, .bool⟩,
    ⟨"MapRootToEndpoint", .miMapRootToEndpoint, .bool⟩,
    ⟨"ForceUniqueEndpoints", .miForceUniqueEndpoints, .bool⟩,
    ⟨"IgnoreMCCapReports", .miIgnMCCapReports, .bool⟩,
    ⟨"EndpointHint", .miEndpointHint, .byte⟩,
    ⟨"Base", .tsspBase, .byte⟩,
    ⟨"AltTypeInterpretation", .tsspAltTypeInterpretation, .bool⟩,
    ⟨"ExposeRawUserCodes", .ucExposeRawValue, .bool⟩,
    ⟨"ClassGetVersionSupported", .versionGetClassVersion, .bool⟩,
    ⟨"DelayNoMoreInfo", .wakeupDelayNmi, .int⟩,
    ⟨"RemoveCC", .miRemoveCC, .boolArray⟩,
    ⟨"VerifyChanged", .verifyChanged, .boolArray⟩,
    ⟨"EnableNotificationClear", .notEnableClear, .bool⟩,
    ⟨"EnableV1AlarmTypes", .notV1AlarmTypesEnabled, .bool⟩,
    ⟨"NoRefreshAfterSet", .noRefreshAfterSet, .boolArray⟩]
  names_nodup := by decide
  flags_nodup := by decide

def availableDiscoveryFlags : FlagTable where
  flags := [
    ⟨"CCVersion", .ccVersion, .byte⟩,
    ⟨"StaticRequests", .staticRequests, .byte⟩,
    ⟨"AfterMark", .afterMark, .bool⟩,
    ⟨"Encrypted", .encrypted, .bool⟩,
    ⟨"InNif", .inNif, .bool⟩,
    ⟨"SceneCount", .csSceneCount, .byte⟩,
    ⟨"ClearTimeout", .csClearTimeout, .int⟩,
    ⟨"ChangeCounter", .ccsChangeCounter, .byte⟩,
    ⟨"Channels", .colorChannels, .short⟩,
    ⟨"TimeOut", .doorlockTimeout, .byte⟩,
    ⟨"InsideMode", .doorlockInsideMode, .byte⟩,
    ⟨"OutsideMode", .doorlockOutsideMode, .byte⟩,
    ⟨"TimeOutMins", .doorlockTimeoutMins, .byte⟩,
    ⟨"TImeOutSecs", .doorlockTimeoutSecs, .byte⟩,
    ⟨"MaxRecords", .doorlockLogMaxRecords, .byte⟩,
    ⟨"Count", .userCodeCount, .byte⟩]
  names_nodup := by decide
  flags_nodup := by decide

/-- `CompatOptionType`. -/
inductive CompatOptionType
  | compatibility
  | discovery
  deriving DecidableEq

/-- `GetXMLTagName`. -/
def CompatOptionType.xmlTagName : CompatOptionType → String
  | compatibility => "Compatibility"
  | discovery => "State"

/-- The flags that the constructor gives a manager. -/
def CompatOptionType.availableFlags : CompatOptionType → FlagTable
  | compatibility => availableCompatFlags
  | discovery => availableDiscoveryFlags

/-- `CompatOptionManager`. `compatVals` is never gone through in its order. -/
structure CompatOptionManager where
  comtype : CompatOptionType
  availableFlags : FlagTable
  compatVals : CompatOptionFlags → Option CompatOptionFlagStorage
  enabledCompatFlags : Std.TreeMap String CompatOptionFlags

/-- A storage that `operator[]` has just made. -/
def CompatOptionFlagStorage.fresh : CompatOptionFlagStorage where
  type := .bool
  changed := false
  val := FlagKind.zero
  valArray := fun _ => ∅

/-- `operator[]`. -/
def storageAt (entry : Option CompatOptionFlagStorage) : CompatOptionFlagStorage :=
  entry.getD CompatOptionFlagStorage.fresh

namespace CompatOptionManager

/-- A manager without enabled flags. -/
def ofTable (availableFlags : FlagTable) (comtype : CompatOptionType) : CompatOptionManager where
  comtype := comtype
  availableFlags := availableFlags
  compatVals := fun _ => none
  enabledCompatFlags := ∅

/-- The constructor. -/
def create (comtype : CompatOptionType) : CompatOptionManager :=
  ofTable comtype.availableFlags comtype

/-- `EnableFlag`. -/
def enableFlag (m : CompatOptionManager) (flag : CompatOptionFlags) (defaultval : UInt32) :
    CompatOptionManager :=
  m.availableFlags.flags.foldl (fun m available =>
    if available.flag = flag then
      let storage := storageAt (m.compatVals flag)
      { m with
        enabledCompatFlags := m.enabledCompatFlags.insert available.name flag
        compatVals := Function.update m.compatVals flag (some { storage with
          type := available.type
          changed := false
          val := Function.update storage.val available.type.kind
            (available.type.kind.ofDefault defaultval) }) }
    else m) m

end CompatOptionManager

namespace CompatOptionFlagStorage

/-- The arms of `ReadXML`. A value is taken if it is not the one that is there, and in an
array if the index has none. -/
def read (s : CompatOptionFlagStorage) (value : List Char) (valElement : TiXmlElement) :
    Option CompatOptionFlagStorage :=
  let kind := s.type.kind
  if s.val kind = kind.parse value then some s
  else if s.type.isArray then
    (valElement.getAttribute "index").map fun indexVal =>
      let index := UInt32.ofInt (strtol 10 indexVal).1
      { s with
        valArray := Function.update s.valArray kind
          ((s.valArray kind).insertIfNew index (kind.parse value))
        changed := true }
  else
    some { s with val := Function.update s.val kind (kind.parse value), changed := true }

/-- The step of `ReadXML` for a flag and the element that was found for it. Nothing is the
result where the code uses a null pointer. -/
def readEntry (s : CompatOptionFlagStorage) : Option TiXmlElement → Option CompatOptionFlagStorage
  | none => some s
  | some valElement => valElement.getText.bind fun value => s.read value valElement

/-- The arms of `WriteXML`: the elements of a flag. -/
def writeEntry (name : String) (s : CompatOptionFlagStorage) : List TiXmlElement :=
  let kind := s.type.kind
  if s.changed = false then []
  else if s.type.isArray then
    ((s.valArray kind).toList.filter fun entry => entry.2 ≠ s.val kind).map fun entry =>
      ((XmlElement.create name).setIntAttribute "index" entry.1.toInt32).linkEndChild
        (.text (kind.print entry.2))
  else [(XmlElement.create name).linkEndChild (.text (kind.print (s.val kind)))]

/-- The value at an index, for which an array may have none. -/
def valueAt (kind : FlagKind) (s : CompatOptionFlagStorage) (index : UInt32) : kind.Carrier :=
  if s.type.isArray then
    if index = -1 then s.val kind else (s.valArray kind)[index]?.getD (s.val kind)
  else s.val kind

end CompatOptionFlagStorage

namespace CompatOptionManager

/-- The loop of `ReadXML`. -/
def readFlags (compatElement : TiXmlElement) (m : CompatOptionManager) :
    Option CompatOptionManager :=
  (m.enabledCompatFlags.toList.foldlM
    (fun (compatVals : CompatOptionFlags → Option CompatOptionFlagStorage) entry =>
      ((storageAt (compatVals entry.2)).readEntry
          (compatElement.firstChildElement entry.1)).map fun storage =>
        Function.update compatVals entry.2 (some storage)) m.compatVals).map fun compatVals =>
          { m with compatVals := compatVals }

/-- `ReadXML`. -/
def readXML (ccElement : TiXmlElement) (m : CompatOptionManager) : Option CompatOptionManager :=
  match ccElement.firstChildElement m.comtype.xmlTagName with
  | none => some m
  | some compatElement => m.readFlags compatElement

/-- The element that `WriteXML` makes. -/
def compatElement (m : CompatOptionManager) : TiXmlElement :=
  { XmlElement.create m.comtype.xmlTagName with
    children := m.enabledCompatFlags.toList.flatMap fun entry =>
      ((storageAt (m.compatVals entry.2)).writeEntry entry.1).map TiXmlNode.element }

/-- `WriteXML`. -/
def writeXML (ccElement : TiXmlElement) (m : CompatOptionManager) : TiXmlElement :=
  ccElement.linkEndChild (.element m.compatElement)

/-- What `GetFlagBool`, `GetFlagByte`, `GetFlagShort` and `GetFlagInt` do with a value of
their kind. -/
def getFlag (kind : FlagKind) (m : CompatOptionManager) (flag : CompatOptionFlags)
    (index : UInt32) : kind.Carrier :=
  match m.compatVals flag with
  | none => kind.zero
  | some s => if s.type.kind = kind then s.valueAt kind index else kind.zero

def getFlagBool : CompatOptionManager → CompatOptionFlags → UInt32 → Bool := getFlag .bool

def getFlagByte : CompatOptionManager → CompatOptionFlags → UInt32 → UInt8 := getFlag .byte

def getFlagShort : CompatOptionManager → CompatOptionFlags → UInt32 → UInt16 := getFlag .short

def getFlagInt : CompatOptionManager → CompatOptionFlags → UInt32 → UInt32 := getFlag .int

/-- What `SetFlagBool`, `SetFlagByte`, `SetFlagShort` and `SetFlagInt` do with a value of
their kind; the flag of the result tells whether it was set. -/
def setFlag (kind : FlagKind) (flag : CompatOptionFlags) (value : kind.Carrier) (index : UInt32)
    (m : CompatOptionManager) : Bool × CompatOptionManager :=
  match m.compatVals flag with
  | none => (false, m)
  | some s =>
      if s.type.kind = kind then
        if s.type.isArray then
          if index = -1 then (false, m)
          else
            (true, { m with
              compatVals := Function.update m.compatVals flag (some { s with
                changed := true
                valArray := Function.update s.valArray kind
                  ((s.valArray kind).insert index value) }) })
        else
          (true, { m with
            compatVals := Function.update m.compatVals flag (some { s with
              changed := true
              val := Function.update s.val kind value }) })
      else (false, m)

def setFlagBool (flag : CompatOptionFlags) (value : Bool) : UInt32 → CompatOptionManager →
    Bool × CompatOptionManager := setFlag .bool flag value

def setFlagByte (flag : CompatOptionFlags) (value : UInt8) : UInt32 → CompatOptionManager →
    Bool × CompatOptionManager := setFlag .byte flag value

def setFlagShort (flag : CompatOptionFlags) (value : UInt16) : UInt32 → CompatOptionManager →
    Bool × CompatOptionManager := setFlag .short flag value

def setFlagInt (flag : CompatOptionFlags) (value : UInt32) : UInt32 → CompatOptionManager →
    Bool × CompatOptionManager := setFlag .int flag value

/-- What changes a manager whose flags are enabled. -/
inductive Change
  | setFlagBool (flag : CompatOptionFlags) (value : Bool) (index : UInt32)
  | setFlagByte (flag : CompatOptionFlags) (value : UInt8) (index : UInt32)
  | setFlagShort (flag : CompatOptionFlags) (value : UInt16) (index : UInt32)
  | setFlagInt (flag : CompatOptionFlags) (value : UInt32) (index : UInt32)
  | readXML (ccElement : TiXmlElement)

def Change.apply : Change → CompatOptionManager → Option CompatOptionManager
  | setFlagBool flag value index => fun m => some (m.setFlagBool flag value index).2
  | setFlagByte flag value index => fun m => some (m.setFlagByte flag value index).2
  | setFlagShort flag value index => fun m => some (m.setFlagShort flag value index).2
  | setFlagInt flag value index => fun m => some (m.setFlagInt flag value index).2
  | readXML ccElement => fun m => m.readXML ccElement

/-- A manager in which flags have been enabled, as a command class does it. -/
def enableFlags (enabled : List (CompatOptionFlags × UInt32)) (m : CompatOptionManager) :
    CompatOptionManager :=
  enabled.foldl (fun m flag => m.enableFlag flag.1 flag.2) m

/-- The managers that come about from one with enabled flags. -/
inductive Reachable (fresh : CompatOptionManager) : CompatOptionManager → Prop
  | start : Reachable fresh fresh
  | change {m m' : CompatOptionManager} (change : Change) (before : Reachable fresh m)
      (applied : change.apply m = some m') : Reachable fresh m'

end CompatOptionManager

end OpenZWave

import OpenZWave.Lib.Sweep
import OpenZWave.TinyXml
import OpenZWave.ValueID

/-!
# Scenes

A scene is a set of values that are set together. The scenes of all drivers are kept in
one table, which is saved in a file when a driver is closed and read when the manager is
created. The number of scenes is counted as they come and go.
-/

namespace OpenZWave

open NumberText Sweep

/-- `c_genreName`. -/
def genreNames : List String := ["basic", "user", "config", "system"]

/-- `c_typeName`. -/
def typeNames : List String :=
  ["bool", "byte", "decimal", "int", "list", "schedule", "short", "string", "button", "raw",
    "bitset"]

/-- `GetGenreNameFromEnum`. -/
def getGenreNameFromEnum (genre : GenreField) : String := genreNames.getD genre.toNat "invalid"

/-- `GetTypeNameFromEnum`. -/
def getTypeNameFromEnum (type : TypeField) : String := typeNames.getD type.toNat "invalid type"

/-- The first position of a name. -/
def positionOf (names : List String) (name : Option (List Char)) : Option ℕ :=
  name.bind fun name => names.findIdx? fun known => decide (name = known.toList)

/-- `GetGenreEnumFromName`. -/
def getGenreEnumFromName (name : Option (List Char)) : GenreField :=
  BitVec.ofNat 2 ((positionOf genreNames name).getD 3)

/-- `GetTypeEnumFromName`. -/
def getTypeEnumFromName (name : Option (List Char)) : TypeField :=
  BitVec.ofNat 4 ((positionOf typeNames name).getD 0)

/-- `SceneStorage`. -/
structure SceneStorage where
  id : PackedValueID
  value : List Char
  deriving DecidableEq

/-- A `Scene`, without the id that it has in the table. -/
structure Scene where
  label : List Char
  values : List SceneStorage
  deriving DecidableEq

namespace Scene

/-- `AddValue`. -/
def addValue (valueId : PackedValueID) (value : List Char) (scene : Scene) : Scene :=
  { scene with values := scene.values ++ [⟨valueId, value⟩] }

/-- `RemoveValue`. -/
def removeValue (valueId : PackedValueID) (scene : Scene) : Scene :=
  { scene with values := scene.values.eraseP fun stored => stored.id.eq valueId }

/-- `SetValue`: the first value with the id is changed. -/
def setValue (valueId : PackedValueID) (value : List Char) (scene : Scene) : Scene :=
  { scene with
    values :=
      match scene.values.findIdx? fun stored => stored.id.eq valueId with
      | some i => scene.values.modify i fun stored => { stored with value := value }
      | none => scene.values }

/-- `RemoveValues` without the values that go. -/
def removeValues (goes : PackedValueID → Bool) (scene : Scene) : Scene :=
  { scene with values := scene.values.filter fun stored => !goes stored.id }

end Scene

/-- The statics of `Scene`. -/
structure Scenes where
  scenes : UInt8 → Option Scene
  sceneCnt : UInt8

namespace Scenes

/-- A process that has just started. -/
def start : Scenes where
  scenes := fun _ => none
  sceneCnt := 0

/-- The ids that the loops go through. -/
def sceneIds : List UInt8 := bytesUpTo 255

/-- The constructor of `Scene`. -/
def newScene (sceneId : UInt8) (s : Scenes) : Scenes where
  scenes := Function.update s.scenes sceneId (some { label := [], values := [] })
  sceneCnt := s.sceneCnt + 1

/-- The destructor of `Scene`. -/
def deleteScene (sceneId : UInt8) (s : Scenes) : Scenes where
  scenes := Function.update s.scenes sceneId none
  sceneCnt := s.sceneCnt - 1

/-- A change of a scene that is there. -/
def modifyScene (sceneId : UInt8) (change : Scene → Scene) (s : Scenes) : Scenes :=
  { s with scenes := Function.update s.scenes sceneId ((s.scenes sceneId).map change) }

/-- `CreateScene`. -/
def createScene (s : Scenes) : Scenes :=
  match sceneIds.find? fun sceneId => (s.scenes sceneId).isNone with
  | some sceneId => s.newScene sceneId
  | none => s

/-- `RemoveScene`. -/
def removeScene (sceneId : UInt8) (s : Scenes) : Scenes :=
  match s.scenes sceneId with
  | some _ => s.deleteScene sceneId
  | none => s

/-- `RemoveValues` of a scene, which is deleted when it is empty. -/
def removeValues (goes : PackedValueID → Bool) (s : Scenes) (sceneId : UInt8) : Scenes :=
  match s.scenes sceneId with
  | some scene =>
      let s := s.modifyScene sceneId (Scene.removeValues goes)
      if (scene.removeValues goes).values.isEmpty then s.deleteScene sceneId else s
  | none => s

/-- `RemoveAllScenes`. -/
def removeAllScenes (homeId : UInt32) (s : Scenes) : Scenes :=
  sceneIds.foldl (fun s sceneId =>
    if homeId = 0 then s.removeScene sceneId
    else s.removeValues (fun id => id.getHomeId == homeId) sceneId) s

/-- `RemoveValues` when a node is deleted. -/
def removeNodeValues (homeId : UInt32) (nodeId : UInt8) (s : Scenes) : Scenes :=
  sceneIds.foldl (fun s sceneId =>
    s.removeValues (fun id => id.getHomeId == homeId && id.getNodeId == nodeId) sceneId) s

/-! ## Writing -/

/-- The element of a value. The children are those of a text. -/
def valueElement (children : List Char → List TiXmlNode) (stored : SceneStorage) : TiXmlElement :=
  let element := (XmlElement.create "Value")
    |>.setAttribute "homeId" ('0' :: 'x' :: printHex 8 stored.id.getHomeId.toNat)
    |>.setAttribute "nodeId" (printInt stored.id.getNodeId.toNat)
    |>.setAttribute "genre" (getGenreNameFromEnum stored.id.getGenre).toList
    |>.setAttribute "commandClassId" (printInt stored.id.getCommandClassId.toNat)
    |>.setAttribute "instance" (printInt stored.id.getInstance.toNat)
    |>.setAttribute "index" (printInt stored.id.getIndex.toNat)
    |>.setAttribute "type" (getTypeNameFromEnum stored.id.getType).toList
  { element with children := children stored.value }

/-- The element of a scene. -/
def sceneElement (children : List Char → List TiXmlNode) (sceneId : UInt8) (scene : Scene) :
    TiXmlElement :=
  let element := (XmlElement.create "Scene")
    |>.setAttribute "id" (printInt sceneId.toNat)
    |>.setAttribute "label" (cStr scene.label)
  { element with
    children := scene.values.map fun stored => .element (valueElement children stored) }

/-- The root of the document. -/
def scenesElement (children : List Char → List TiXmlNode) (s : Scenes) : TiXmlElement :=
  let element := (XmlElement.create "Scenes")
    |>.setAttribute "xmlns" "http://code.google.com/p/open-zwave/".toList
    |>.setAttribute "version" (printInt 1)
  { element with
    children := sceneIds.filterMap fun sceneId =>
      (s.scenes sceneId).map fun scene => .element (sceneElement children sceneId scene) }

/-- The document of `WriteXML`. -/
def writeXML (s : Scenes) : TiXmlElement := s.scenesElement fun value => [.text (cStr value)]

/-! ## Reading -/

/-- An attribute that is read into a byte. -/
def byteAttribute (element : TiXmlElement) (name : String) : UInt8 :=
  ((element.queryIntAttribute name).map fun intVal => intVal.toUInt32.toUInt8).getD 0

/-- The id of a value element. The index is read into a byte, too. -/
def readValueId (element : TiXmlElement) : PackedValueID :=
  PackedValueID.new {
    homeId := ((element.getAttribute "homeId").map fun str => UInt32.ofInt (strtol 0 str).1).getD 0
    nodeId := byteAttribute element "nodeId"
    genre := getGenreEnumFromName (element.getAttribute "genre")
    commandClassId := byteAttribute element "commandClassId"
    instanceId := byteAttribute element "instance"
    index := (byteAttribute element "index").toUInt16
    type := getTypeEnumFromName (element.getAttribute "type") }

/-- An element in a scene. Without a text a string is made from a null pointer. -/
def readValue (scene : Scene) (element : TiXmlElement) : Option Scene :=
  if element.value = "Value" then
    element.getText.map fun data => scene.addValue (readValueId element) data
  else some scene

/-- A scene element after its id has been read. -/
def readScene (sceneId : UInt8) (element : TiXmlElement) (s : Scenes) : Option Scenes :=
  let scene : Scene := { label := (element.getAttribute "label").getD [], values := [] }
  (element.childElements.foldlM readValue scene).map fun scene =>
    (s.newScene sceneId).modifyScene sceneId fun _ => scene

/-- How a call of `ReadScenes` goes. -/
inductive Reading
  | returned (read : Bool) (s : Scenes)
  | undefined
  | running

/-- The loop over the scene elements, as far as a number of turns goes. An element without
an id is not left. -/
def readLoop : ℕ → List TiXmlElement → Scenes → Reading
  | 0, _, _ => .running
  | _ + 1, [], s => .returned true s
  | turns + 1, element :: elements, s =>
      match element.queryIntAttribute "id" with
      | none => readLoop turns (element :: elements) s
      | some intVal =>
          match readScene intVal.toUInt32.toUInt8 element s with
          | none => .undefined
          | some s => readLoop turns elements s

/-- What `LoadFile` gives: the root of the document, which a document may be without. -/
inductive LoadedFile
  | failed
  | document (root : Option TiXmlElement)

/-- `ReadScenes`. -/
def readScenes (turns : ℕ) (file : LoadedFile) (s : Scenes) : Reading :=
  match file with
  | .failed => .returned false s
  | .document none => .undefined
  | .document (some root) =>
      match root.queryIntAttribute "version" with
      | none => .returned false s
      | some intVal =>
          if intVal.toUInt32 ≠ 1 then .returned false s
          else readLoop turns root.childElements s

/-- The call returns. -/
def Reads (file : LoadedFile) (s : Scenes) (read : Bool) (s' : Scenes) : Prop :=
  ∃ turns, readScenes turns file s = .returned read s'

end Scenes

end OpenZWave

import OpenZWave.Lib.Sweep
import OpenZWave.NodeQueries
import OpenZWave.TinyXml
import OpenZWave.WakeUp

/-!
# The cache of the nodes

What is known of a node is saved in the cache when it is past the stage at which a node of
the cache starts. What the command classes and the meta data write below the element of
the node is given with it; they read and write no attribute of the node.
-/

namespace OpenZWave

open NumberText

/-- `c_queryStageNames`. -/
def queryStageName : QueryStage → String
  | .none => "None"
  | .protocolInfo => "ProtocolInfo"
  | .probe => "Probe"
  | .wakeUp => "WakeUp"
  | .nodeInfo => "NodeInfo"
  | .nodePlusInfo => "NodePlusInfo"
  | .securityReport => "SecurityReport"
  | .versions => "Versions"
  | .manufacturerSpecific1 => "ManufacturerSpecific1"
  | .instances => "Instances"
  | .manufacturerSpecific2 => "ManufacturerSpecific2"
  | .static => "Static"
  | .cacheLoad => "CacheLoad"
  | .associations => "Associations"
  | .neighbors => "Neighbors"
  | .session => "Session"
  | .dynamic => "Dynamic"
  | .configuration => "Configuration"
  | .complete => "Complete"

/-- The stages that the loop over the names goes through. -/
def stagesBeforeSession : List QueryStage :=
  [.none, .protocolInfo, .probe, .wakeUp, .nodeInfo, .nodePlusInfo, .securityReport, .versions,
    .manufacturerSpecific1, .instances, .manufacturerSpecific2, .static, .cacheLoad, .associations,
    .neighbors]

/-- The stage that is read. Later stages start with the session. -/
def readQueryStage (str : List Char) : QueryStage :=
  (stagesBeforeSession.find? fun stage => str = (queryStageName stage).toList).getD .session

/-- The notifications of `ReadXML`. -/
inductive CacheNotice
  | nodeProtocolInfo
  | essentialNodeQueriesComplete
  | nodeNaming
  deriving DecidableEq

/-- The attributes of a node. -/
@[ext]
structure NodeAttributes where
  nodeId : UInt8
  nodeName : List Char
  location : List Char
  basic : UInt8
  generic : UInt8
  specific : UInt8
  nodePlusInfoReceived : Bool
  role : UInt8
  deviceType : UInt16
  nodeType : UInt8
  type : List Char
  listening : Bool
  frequentListening : Bool
  beaming : Bool
  routing : Bool
  maxBaudRate : UInt32
  version : UInt8
  security : Bool
  secured : Bool
  nodeInfoSupported : Bool
  refreshonNodeInfoFrame : Bool
  loadedConfigRevision : UInt32
  neighbors : Vector UInt8 29
  manufacturerId : UInt16
  manufacturerName : List Char
  productType : UInt16
  productId : UInt16
  productName : List Char
  deriving DecidableEq

/-- The part of `Node` that the cache reads and writes. `manufacturerSpecific` says that the
class is in the map. -/
structure NodeData extends NodeAttributes where
  queryStage : QueryStage
  queryPending : Bool
  queryConfiguration : Bool
  protocolInfoReceived : Bool
  nodeInfoReceived : Bool
  manufacturerSpecific : Bool
  nodeCache : Option TiXmlElement
  notifications : List CacheNotice

/-- What is written below the element of a node. -/
structure NodeContent where
  metaData : List TiXmlNode
  commandClasses : List TiXmlNode

/-- The names in a `ProductDescriptor`. -/
structure ProductDescriptor where
  manufacturerName : List Char
  productName : List Char

namespace NodeData

/-- The constructor. -/
def create (nodeId : UInt8) : NodeData where
  nodeId := nodeId
  nodeName := []
  location := []
  basic := 0
  generic := 0
  specific := 0
  nodePlusInfoReceived := false
  role := 0
  deviceType := 0
  nodeType := 0
  type := []
  listening := true
  frequentListening := false
  beaming := false
  routing := false
  maxBaudRate := 0
  version := 0
  security := false
  secured := false
  nodeInfoSupported := true
  refreshonNodeInfoFrame := true
  loadedConfigRevision := 0
  neighbors := Vector.replicate 29 0
  manufacturerId := 0
  manufacturerName := []
  productType := 0
  productId := 0
  productName := []
  queryStage := .none
  queryPending := false
  queryConfiguration := false
  protocolInfoReceived := false
  nodeInfoReceived := false
  manufacturerSpecific := true
  nodeCache := none
  notifications := []

/-- `SetQueryStage` without the queries that it may start. -/
def setQueryStage (stage : QueryStage) (node : NodeData) : NodeData :=
  if stage.number < node.queryStage.number then
    { node with
      queryStage := stage
      queryPending := false
      queryConfiguration := node.queryConfiguration || stage = .configuration }
  else node

/-! ## Writing -/

/-- A flag as it is written. -/
def flagText (flag : Bool) : List Char := if flag then "true".toList else "false".toList

/-- An attribute that is left out in the other case. -/
def setAttributeIf (written : Bool) (name : String) (value : List Char) (element : TiXmlElement) :
    TiXmlElement :=
  if written then element.setAttribute name value else element

/-- The bytes of the neighbors, with commas between them. -/
def neighborList (neighbors : List UInt8) : List Char :=
  [','].intercalate (neighbors.map fun neighbor => printInt neighbor.toNat)

/-- The element of the neighbors. -/
def neighborsElement (neighbors : Vector UInt8 29) : TiXmlElement :=
  (XmlElement.create "Neighbors").linkEndChild (.text (neighborList neighbors.toList))

/-- The element of the product. -/
def productElement (metaData : List TiXmlNode) (node : NodeAttributes) : TiXmlElement :=
  (XmlElement.create "Product")
    |>.setAttribute "type" (printHex 0 node.productType.toNat)
    |>.setAttribute "id" (printHex 0 node.productId.toNat)
    |>.setAttribute "name" (cStr node.productName)
    |>.linkEndChild (.element { XmlElement.create "MetaData" with children := metaData })

/-- The element of the manufacturer. -/
def manufacturerElement (metaData : List TiXmlNode) (node : NodeAttributes) : TiXmlElement :=
  (XmlElement.create "Manufacturer")
    |>.setAttribute "id" (printHex 0 node.manufacturerId.toNat)
    |>.setAttribute "name" (cStr node.manufacturerName)
    |>.linkEndChild (.element (productElement metaData node))

/-- The element of a node, before its children are linked. -/
def attributesElement (stage : QueryStage) (node : NodeAttributes) : TiXmlElement :=
  (XmlElement.create "Node")
    |>.setAttribute "id" (printInt node.nodeId.toNat)
    |>.setAttribute "name" (cStr node.nodeName)
    |>.setAttribute "location" (cStr node.location)
    |>.setAttribute "basic" (printInt node.basic.toNat)
    |>.setAttribute "generic" (printInt node.generic.toNat)
    |>.setAttribute "specific" (printInt node.specific.toNat)
    |> setAttributeIf node.nodePlusInfoReceived "roletype" (printInt node.role.toNat)
    |> setAttributeIf node.nodePlusInfoReceived "devicetype" (printInt node.deviceType.toNat)
    |> setAttributeIf node.nodePlusInfoReceived "nodetype" (printInt node.nodeType.toNat)
    |>.setAttribute "type" (cStr node.type)
    |>.setAttribute "listening" (flagText node.listening)
    |>.setAttribute "frequentListening" (flagText node.frequentListening)
    |>.setAttribute "beaming" (flagText node.beaming)
    |>.setAttribute "routing" (flagText node.routing)
    |>.setAttribute "max_baud_rate" (printInt node.maxBaudRate.toInt32.toInt)
    |>.setAttribute "version" (printInt node.version.toNat)
    |> setAttributeIf node.security "security" "true".toList
    |> setAttributeIf node.secured "secured" "true".toList
    |> setAttributeIf (!node.nodeInfoSupported) "nodeinfosupported" "false".toList
    |> setAttributeIf (!node.refreshonNodeInfoFrame) "refreshonnodeinfoframe" "false".toList
    |>.setAttribute "configrevision" (printInt node.loadedConfigRevision.toInt32.toInt)
    |>.setAttribute "query_stage" (queryStageName stage).toList

/-- The element of a node. -/
def nodeElement (content : NodeContent) (node : NodeData) : TiXmlElement :=
  (attributesElement node.queryStage node.toNodeAttributes)
    |>.linkEndChild (.element (neighborsElement node.neighbors))
    |>.linkEndChild (.element (manufacturerElement content.metaData node.toNodeAttributes))
    |>.linkEndChild (.element
      { XmlElement.create "CommandClasses" with children := content.commandClasses })

/-- `WriteXML`. A node at the stage of the cache that was not read from it has no element
to copy. -/
def writeXML (content : NodeContent) (node : NodeData) : Option TiXmlElement :=
  if node.queryStage.number ≤ QueryStage.cacheLoad.number then node.nodeCache
  else some (nodeElement content node)

/-- The elements that `WriteCache` writes. -/
def writeCache (content : NodeData → NodeContent) (nodes : UInt8 → Option NodeData) :
    Option (List TiXmlElement) :=
  let ids := (List.range 256).map UInt8.ofNat
  let written := ids.filterMap fun id =>
    (nodes id).filter fun node => QueryStage.cacheLoad.number ≤ node.queryStage.number
  written.mapM fun node => node.writeXML (content node)

/-! ## Reading -/

/-- A number in an attribute. -/
def intAttribute {α : Type} (element : TiXmlElement) (name : String) (convert : UInt32 → α)
    (default : α) : α :=
  ((element.queryIntAttribute name).map fun intVal => convert intVal.toUInt32).getD default

/-- A number in an attribute, to the base 16. -/
def hexAttribute (element : TiXmlElement) (name : String) : UInt16 :=
  ((element.getAttribute name).map fun str => UInt16.ofInt (strtol 16 str).1).getD 0

/-- A flag in an attribute. -/
def flagAttribute (element : TiXmlElement) (name : String) (default : Bool) : Bool :=
  ((element.getAttribute name).map fun str => decide (str = "true".toList)).getD default

/-- The stage, and what follows from it. -/
def restoreQueryStage (element : TiXmlElement) (node : NodeData) : NodeData :=
  let node := match element.getAttribute "query_stage" with
    | some str =>
        { node with
          queryStage := readQueryStage str
          queryPending := false
          queryConfiguration :=
            node.queryConfiguration || readQueryStage str = .configuration }
    | none => node
  if node.queryStage = .none then node
  else
    let after (stage : QueryStage) : Bool := decide (stage.number < node.queryStage.number)
    { node with
      protocolInfoReceived := node.protocolInfoReceived || after .protocolInfo
      nodeInfoReceived := node.nodeInfoReceived || after .nodeInfo
      notifications := node.notifications ++
        (if after .protocolInfo then [.nodeProtocolInfo] else []) ++
          if after .static then [.essentialNodeQueriesComplete] else []
      nodeCache := if after .cacheLoad then some element else node.nodeCache }

/-- The attributes of the element. -/
def readAttributes (element : TiXmlElement) (node : NodeAttributes) : NodeAttributes :=
  { node with
    nodeName := (element.getAttribute "name").getD node.nodeName
    location := (element.getAttribute "location").getD node.location
    basic := intAttribute element "basic" UInt32.toUInt8 node.basic
    generic := intAttribute element "generic" UInt32.toUInt8 node.generic
    specific := intAttribute element "specific" UInt32.toUInt8 node.specific
    role := intAttribute element "roletype" UInt32.toUInt8 node.role
    deviceType := intAttribute element "devicetype" UInt32.toUInt16 node.deviceType
    nodeType := intAttribute element "nodetype" UInt32.toUInt8 node.nodeType
    nodePlusInfoReceived := node.nodePlusInfoReceived ||
      (element.queryIntAttribute "roletype").isSome ||
        (element.queryIntAttribute "devicetype").isSome ||
          (element.queryIntAttribute "nodetype").isSome
    type := (element.getAttribute "type").getD node.type
    listening := flagAttribute element "listening" true
    frequentListening := flagAttribute element "frequentListening" false
    beaming := flagAttribute element "beaming" false
    routing := flagAttribute element "routing" true
    maxBaudRate := intAttribute element "max_baud_rate" id 0
    version := intAttribute element "version" UInt32.toUInt8 0
    security := flagAttribute element "security" false
    secured := flagAttribute element "secured" false
    nodeInfoSupported := flagAttribute element "nodeinfosupported" true
    refreshonNodeInfoFrame := flagAttribute element "refreshonnodeinfoframe" true
    loadedConfigRevision :=
      ((element.getAttribute "configrevision").map fun str => UInt32.ofInt (atol str)).getD 0 }

/-- The loop over the neighbors. It does not end where no number is read and no comma
follows. -/
def readNeighbors (pos : List Char) (i : ℕ) (neighbors : Vector UInt8 29) :
    Option (Vector UInt8 29) :=
  if pos = [] ∨ 29 ≤ i then some neighbors
  else
    let read := strtol 10 pos
    let neighbors := neighbors.setIfInBounds i (UInt8.ofInt read.1)
    if hcomma : read.2.head? = some ',' then readNeighbors read.2.tail (i + 1) neighbors
    else if _hless : read.2.length < pos.length then readNeighbors read.2 i neighbors
    else none
termination_by pos.length
decreasing_by
  · have hne : (strtol 10 pos).2 ≠ [] := by
      intro hnil
      rw [hnil] at hcomma
      cases hcomma
    exact length_tail_strtol hne
  · assumption

/-- `ReadCommandClassesXML`, as far as the class with the ids of the product is concerned. -/
def readCommandClassesXML (element : TiXmlElement) (node : NodeData) : NodeData :=
  element.childElements.foldl (fun node cc =>
    if cc.value = "CommandClass" ∧
        (cc.queryIntAttribute "id").map (fun intVal => intVal.toUInt32.toUInt8) =
          some ClassId.manufacturerSpecific then
      { node with
        manufacturerSpecific :=
          !decide ((cc.getAttribute "action").map (·.map Char.toLower) = some "remove".toList) }
    else node) node

section

variable (getProduct : UInt16 → UInt16 → UInt16 → Option ProductDescriptor)

/-- The names of a product. -/
def productNames (manufacturerId productType productId : UInt16) : ProductDescriptor :=
  (getProduct manufacturerId productType productId).getD {
    manufacturerName := "Unknown: id=".toList ++ printHex 4 manufacturerId.toNat
    productName := "Unknown: type=".toList ++ printHex 4 productType.toNat ++
      ", id=".toList ++ printHex 4 productId.toNat }

/-- `SetProductDetails`. -/
def setProductDetails (manufacturerId productType productId : UInt16) (node : NodeData) :
    NodeData :=
  let names := productNames getProduct manufacturerId productType productId
  { node with
    manufacturerName := names.manufacturerName
    productName := names.productName
    manufacturerId := manufacturerId
    productType := productType
    productId := productId }

/-- The element of the manufacturer, which has to have a child. -/
def readManufacturer (element : TiXmlElement) (node : NodeData) : Option NodeData :=
  element.childElements.head?.map fun product =>
    let node :=
      { node with manufacturerName := (element.getAttribute "name").getD node.manufacturerName }
    if product.value = "Product" then
      let node := { node with productName := (product.getAttribute "name").getD node.productName }
      if node.manufacturerSpecific then
        node.setProductDetails getProduct (hexAttribute element "id") (hexAttribute product "type")
          (hexAttribute product "id")
      else node
    else node

/-- A turn of the loop over the children. -/
def readChild (node : NodeData) (child : TiXmlElement) : Option NodeData :=
  if child.value = "Neighbors" then
    child.children.head?.bind fun list =>
      (readNeighbors (cStr list.getValue) 0 node.neighbors).map fun neighbors =>
        { node with neighbors := neighbors }
  else if child.value = "CommandClasses" then some (readCommandClassesXML child node)
  else if child.value = "Manufacturer" then readManufacturer getProduct child node
  else some node

/-- The notification of the names. -/
def notifyNaming (node : NodeData) : NodeData :=
  if 0 < node.nodeName.length ∨ 0 < node.location.length ∨ 0 < node.manufacturerId then
    { node with notifications := node.notifications ++ [.nodeNaming] }
  else node

/-- `ReadXML`. -/
def readXML (element : TiXmlElement) (node : NodeData) : Option NodeData :=
  let node := restoreQueryStage element node
  let node := { node with toNodeAttributes := readAttributes element node.toNodeAttributes }
  (element.childElements.foldlM (readChild getProduct) node).map notifyNaming

end

end NodeData

end OpenZWave

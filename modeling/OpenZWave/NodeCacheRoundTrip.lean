import OpenZWave.NodeCache

/-!
# The cache round trip

A node that was written past the stage of the cache comes back with its attributes, but
the names of the manufacturer and of the product are those of the product database.
-/

namespace OpenZWave

open NumberText

namespace NodeData

/-! ## The attributes of the element -/

theorem getAttribute_setAttributeIf (written : Bool) (name name' : String) (value : List Char)
    (element : TiXmlElement) :
    (setAttributeIf written name value element).getAttribute name' =
      if written = true ∧ name' = name then some (cStr value) else element.getAttribute name' := by
  cases written
  · simp [setAttributeIf]
  · simp [setAttributeIf, XmlElement.getAttribute_setAttribute]

/-- What the attributes of an element tell of a node. -/
structure Describes (element : TiXmlElement) (stage : QueryStage) (node : NodeAttributes) :
    Prop where
  queryStage : element.getAttribute "query_stage" = some (cStr (queryStageName stage).toList)
  nodeName : element.getAttribute "name" = some (cStr node.nodeName)
  location : element.getAttribute "location" = some (cStr node.location)
  type : element.getAttribute "type" = some (cStr node.type)
  basic : element.getAttribute "basic" = some (cStr (printInt node.basic.toNat))
  generic : element.getAttribute "generic" = some (cStr (printInt node.generic.toNat))
  specific : element.getAttribute "specific" = some (cStr (printInt node.specific.toNat))
  version : element.getAttribute "version" = some (cStr (printInt node.version.toNat))
  role : element.getAttribute "roletype" =
    if node.nodePlusInfoReceived then some (cStr (printInt node.role.toNat)) else none
  deviceType : element.getAttribute "devicetype" =
    if node.nodePlusInfoReceived then some (cStr (printInt node.deviceType.toNat)) else none
  nodeType : element.getAttribute "nodetype" =
    if node.nodePlusInfoReceived then some (cStr (printInt node.nodeType.toNat)) else none
  listening : element.getAttribute "listening" = some (cStr (flagText node.listening))
  frequentListening :
    element.getAttribute "frequentListening" = some (cStr (flagText node.frequentListening))
  beaming : element.getAttribute "beaming" = some (cStr (flagText node.beaming))
  routing : element.getAttribute "routing" = some (cStr (flagText node.routing))
  maxBaudRate : element.getAttribute "max_baud_rate" =
    some (cStr (printInt node.maxBaudRate.toInt32.toInt))
  security : element.getAttribute "security" =
    if node.security then some (cStr "true".toList) else none
  secured : element.getAttribute "secured" =
    if node.secured then some (cStr "true".toList) else none
  nodeInfoSupported : element.getAttribute "nodeinfosupported" =
    if !node.nodeInfoSupported then some (cStr "false".toList) else none
  refreshonNodeInfoFrame : element.getAttribute "refreshonnodeinfoframe" =
    if !node.refreshonNodeInfoFrame then some (cStr "false".toList) else none
  loadedConfigRevision : element.getAttribute "configrevision" =
    some (cStr (printInt node.loadedConfigRevision.toInt32.toInt))

theorem describes_nodeElement (content : NodeContent) (node : NodeData) :
    Describes (nodeElement content node) node.queryStage node.toNodeAttributes := by
  constructor <;>
    simp only [nodeElement, attributesElement, XmlElement.getAttribute_linkEndChild,
      XmlElement.getAttribute_setAttribute, getAttribute_setAttributeIf,
      XmlElement.getAttribute_create, cStr_cStr, String.reduceEq, and_false, and_true, if_false,
      if_true]

/-! ## Numbers and flags -/

variable {element : TiXmlElement} {name : String}

theorem intAttribute_of_written {α : Type} {convert : UInt32 → α} {default : α} {n : ℕ}
    (hn : n < 2 ^ 32) {written : Bool}
    (h : element.getAttribute name = if written then some (cStr (printInt n)) else none) :
    intAttribute element name convert default =
      if written then convert (Int32.ofInt n).toUInt32 else default := by
  cases written
  · simp [intAttribute, XmlElement.queryIntAttribute_eq_none h]
  · simp [intAttribute, XmlElement.queryIntAttribute_printInt (by omega) (by omega) h]

theorem intAttribute_byte {default : UInt8} {byte : UInt8}
    (h : element.getAttribute name = some (cStr (printInt byte.toNat))) :
    intAttribute element name UInt32.toUInt8 default = byte := by
  have hless := byte.toNat_lt
  have hread := @intAttribute_of_written element name _ UInt32.toUInt8 default byte.toNat (by omega)
    true h
  rw [hread, if_pos rfl, toUInt8_ofInt, UInt8.ofNat_toNat]

theorem intAttribute_word {default : UInt32} {word : UInt32}
    (h : element.getAttribute name = some (cStr (printInt word.toInt32.toInt))) :
    intAttribute element name id default = word := by
  have hlow := word.toInt32.le_toInt
  have hhigh := word.toInt32.toInt_lt
  have hread := XmlElement.queryIntAttribute_printInt (by omega) (by omega) h
  simp [intAttribute, hread]

theorem flagAttribute_of_text {default flag : Bool}
    (h : element.getAttribute name = some (cStr (flagText flag))) :
    flagAttribute element name default = flag := by
  rw [flagAttribute, h]
  cases flag <;> rfl

theorem flagAttribute_of_written {default flag written : Bool}
    (h : element.getAttribute name = if written then some (cStr (flagText flag)) else none) :
    flagAttribute element name default = if written then flag else default := by
  cases written
  · simp [flagAttribute, h]
  · exact flagAttribute_of_text h

/-! ## The attributes come back -/

/-- What comes back of the attributes. -/
def restored (getProduct : UInt16 → UInt16 → UInt16 → Option ProductDescriptor)
    (node : NodeAttributes) : NodeAttributes :=
  let names := productNames getProduct node.manufacturerId node.productType node.productId
  { node with
    nodeName := cStr node.nodeName
    location := cStr node.location
    type := cStr node.type
    role := if node.nodePlusInfoReceived then node.role else 0
    deviceType := if node.nodePlusInfoReceived then node.deviceType else 0
    nodeType := if node.nodePlusInfoReceived then node.nodeType else 0
    manufacturerName := names.manufacturerName
    productName := names.productName }

/-- The attributes that the children tell are still those of the constructor. -/
def withoutChildren (node : NodeAttributes) : NodeAttributes :=
  { node with
    neighbors := Vector.replicate 29 0
    manufacturerId := 0
    manufacturerName := []
    productType := 0
    productId := 0
    productName := [] }

theorem readAttributes_of_describes
    (getProduct : UInt16 → UInt16 → UInt16 → Option ProductDescriptor) {stage : QueryStage}
    {node : NodeAttributes} (h : Describes element stage node) :
    readAttributes element (create node.nodeId).toNodeAttributes =
      withoutChildren (restored getProduct node) := by
  have hrole : intAttribute element "roletype" UInt32.toUInt8 0 =
      if node.nodePlusInfoReceived then node.role else 0 := by
    have hless := node.role.toNat_lt
    rw [intAttribute_of_written (by omega) h.role, toUInt8_ofInt, UInt8.ofNat_toNat]
  have hdevice : intAttribute element "devicetype" UInt32.toUInt16 0 =
      if node.nodePlusInfoReceived then node.deviceType else 0 := by
    have hless := node.deviceType.toNat_lt
    rw [intAttribute_of_written (by omega) h.deviceType, toUInt16_ofInt, UInt16.ofNat_toNat]
  have htype : intAttribute element "nodetype" UInt32.toUInt8 0 =
      if node.nodePlusInfoReceived then node.nodeType else 0 := by
    have hless := node.nodeType.toNat_lt
    rw [intAttribute_of_written (by omega) h.nodeType, toUInt8_ofInt, UInt8.ofNat_toNat]
  have hplus : ((element.queryIntAttribute "roletype").isSome ||
      (element.queryIntAttribute "devicetype").isSome ||
        (element.queryIntAttribute "nodetype").isSome) = node.nodePlusInfoReceived := by
    have hless := node.role.toNat_lt
    cases hreceived : node.nodePlusInfoReceived with
    | false =>
        have hnone := h.role
        have hnone' := h.deviceType
        have hnone'' := h.nodeType
        rw [hreceived] at hnone hnone' hnone''
        rw [XmlElement.queryIntAttribute_eq_none hnone, XmlElement.queryIntAttribute_eq_none hnone',
          XmlElement.queryIntAttribute_eq_none hnone'']
        rfl
    | true =>
        have hsome := h.role
        rw [hreceived, if_pos rfl] at hsome
        rw [XmlElement.queryIntAttribute_printInt (by omega) (by omega) hsome]
        rfl
  have hrevision : UInt32.ofInt (atol (cStr (printInt node.loadedConfigRevision.toInt32.toInt))) =
      node.loadedConfigRevision := by
    have hlow := node.loadedConfigRevision.toInt32.le_toInt
    have hhigh := node.loadedConfigRevision.toInt32.toInt_lt
    have hnumeral := @numeral_printInt node.loadedConfigRevision.toInt32.toInt (by omega) (by omega)
    rw [hnumeral.cStr (Or.inl rfl), atol, hnumeral.2, ofInt_toInt_toInt32]
  simp only [readAttributes, create, withoutChildren, restored, h.nodeName, h.location, h.type,
    Option.getD_some, intAttribute_byte h.basic, intAttribute_byte h.generic,
    intAttribute_byte h.specific, intAttribute_byte h.version, intAttribute_word h.maxBaudRate,
    hrole, hdevice, htype, hplus, hrevision, flagAttribute_of_text h.listening,
    flagAttribute_of_text h.frequentListening, flagAttribute_of_text h.beaming,
    flagAttribute_of_text h.routing, @flagAttribute_of_written _ _ false true _ h.security,
    @flagAttribute_of_written _ _ false true _ h.secured,
    @flagAttribute_of_written _ _ true false _ h.nodeInfoSupported,
    @flagAttribute_of_written _ _ true false _ h.refreshonNodeInfoFrame, h.loadedConfigRevision,
    Option.map_some, Bool.false_or]
  simp

/-! ## The neighbors -/

theorem neighborList_cons (byte : UInt8) {bytes : List UInt8} (h : bytes ≠ []) :
    neighborList (byte :: bytes) = printInt byte.toNat ++ ',' :: neighborList bytes := by
  have hne : (bytes.map fun neighbor => printInt neighbor.toNat) ≠ [] := by simpa using h
  rw [neighborList, List.map_cons, List.intercalate_cons_of_ne_nil hne, neighborList]
  simp

theorem zero_not_mem_neighborList (bytes : List UInt8) : Char.ofNat 0 ∉ neighborList bytes := by
  have hnumber : ∀ byte : UInt8, Char.ofNat 0 ∉ printInt byte.toNat := fun byte => by
    have hless := byte.toNat_lt
    exact cStr_eq_iff.mp ((numeral_printInt (by omega) (by omega)).cStr (Or.inl rfl))
  induction bytes with
  | nil => decide
  | cons byte bytes ih =>
      by_cases hne : bytes = []
      · subst hne
        simpa [neighborList] using hnumber byte
      · rw [neighborList_cons byte hne, List.mem_append, List.mem_cons]
        rintro (hmem | hcomma | hmem)
        · exact hnumber byte hmem
        · cases hcomma
        · exact ih hmem

/-- A turn of the loop. -/
theorem readNeighbors_printInt {i : ℕ} (hi : i < 29) (byte : UInt8) {rest : List Char}
    (hrest : rest = [] ∨ rest.head? = some ',') (neighbors : Vector UInt8 29) :
    readNeighbors (printInt byte.toNat ++ rest) i neighbors =
      if rest = [] then some (neighbors.setIfInBounds i byte)
      else readNeighbors rest.tail (i + 1) (neighbors.setIfInBounds i byte) := by
  have hless := byte.toNat_lt
  have hstops : Stops 10 rest := by
    rintro c hc
    rcases hrest with rfl | hcomma
    · cases hc
    · rw [hcomma] at hc
      cases hc
      rfl
  have hread := strtol_printInt (i := byte.toNat) (by omega) (by omega) hstops
  have hne : printInt byte.toNat ≠ [] := (numeral_printInt (by omega) (by omega)).1
  have hbyte : UInt8.ofInt byte.toNat = byte := by
    have hmod : ((byte.toNat : ℤ) % 2 ^ 8).toNat = byte.toNat := by omega
    rw [UInt8.ofInt, hmod, UInt8.ofNat_toNat]
  rw [readNeighbors, if_neg (by simp [hne, hi])]
  simp only [hread, hbyte]
  rcases hrest with rfl | hcomma
  · have hpos := List.length_pos_iff.mpr hne
    rw [dif_neg (by simp), dif_pos (by simpa using hpos), readNeighbors, if_pos (Or.inl rfl),
      if_pos rfl]
  · have hsome : rest ≠ [] := by
      rintro rfl
      cases hcomma
    rw [dif_pos hcomma, if_neg hsome]

/-- The bytes that are written replace those from the first place on. -/
theorem readNeighbors_neighborList {bytes : List UInt8} (hne : bytes ≠ []) {i : ℕ}
    (hlength : i + bytes.length = 29) (neighbors : Vector UInt8 29) :
    ∃ read, readNeighbors (neighborList bytes) i neighbors = some read ∧
      read.toList = neighbors.toList.take i ++ bytes := by
  induction bytes generalizing i neighbors with
  | nil => exact absurd rfl hne
  | cons byte bytes ih =>
      have hi : i < 29 := by
        rw [List.length_cons] at hlength
        omega
      have htake : (neighbors.setIfInBounds i byte).toList.take (i + 1) =
          neighbors.toList.take i ++ [byte] := by
        have hbound : i < (neighbors.toList.set i byte).length := by simpa using hi
        rw [Vector.toList_setIfInBounds, List.take_succ_eq_append_getElem hbound,
          List.take_set_of_le (Nat.le_refl i), List.getElem_set_self]
      by_cases hrest : bytes = []
      · subst hrest
        have hturn := readNeighbors_printInt hi byte (Or.inl rfl) neighbors
        have hlast : i + 1 = 29 := hlength
        refine ⟨neighbors.setIfInBounds i byte, ?_, ?_⟩
        · simpa [neighborList] using hturn
        · rw [← htake, hlast, List.take_of_length_le (by simp)]
      · have hturn := @readNeighbors_printInt i hi byte (',' :: neighborList bytes) (Or.inr rfl)
          neighbors
        rw [if_neg (List.cons_ne_nil _ _)] at hturn
        rw [List.length_cons] at hlength
        obtain ⟨read, hread, hlist⟩ := ih hrest (i := i + 1) (by omega)
          (neighbors.setIfInBounds i byte)
        refine ⟨read, ?_, ?_⟩
        · rw [neighborList_cons byte hrest, hturn]
          exact hread
        · rw [hlist, htake, List.append_assoc, List.singleton_append]

/-! ## The children -/

section

variable {getProduct : UInt16 → UInt16 → UInt16 → Option ProductDescriptor}

theorem children_setAttributeIf (written : Bool) (name : String) (value : List Char)
    (element : TiXmlElement) :
    (setAttributeIf written name value element).children = element.children := by
  cases written <;> rfl

theorem childElements_nodeElement (content : NodeContent) (node : NodeData) :
    (nodeElement content node).childElements = [neighborsElement node.neighbors,
      manufacturerElement content.metaData node.toNodeAttributes,
      { XmlElement.create "CommandClasses" with children := content.commandClasses }] := by
  have hchildren : ∀ (element : TiXmlElement) name value,
      (element.setAttribute name value).children = element.children := fun _ _ _ => rfl
  simp [nodeElement, attributesElement, XmlElement.childElements, XmlElement.linkEndChild,
    XmlElement.create, TiXmlNode.toElement, hchildren, children_setAttributeIf]

theorem readChild_neighborsElement (node : NodeData) (neighbors : Vector UInt8 29) :
    readChild getProduct node (neighborsElement neighbors) =
      some { node with neighbors := neighbors } := by
  have hne : neighbors.toList ≠ [] := by
    intro hnil
    have hlength := congrArg List.length hnil
    simp at hlength
  obtain ⟨read, hread, hlist⟩ := readNeighbors_neighborList hne (i := 0) (by simp) node.neighbors
  have hsame : read = neighbors := Vector.toList_inj.mp hlist
  have htext : cStr (neighborList neighbors.toList) = neighborList neighbors.toList :=
    cStr_eq_iff.mpr (zero_not_mem_neighborList _)
  have hvalue : (neighborsElement neighbors).value = "Neighbors" := rfl
  have hchild : (neighborsElement neighbors).children.head? =
      some (.text (neighborList neighbors.toList)) := rfl
  rw [readChild, if_pos hvalue, hchild, Option.bind_some, TiXmlNode.getValue, htext, hread,
    hsame]
  rfl

theorem hexAttribute_printHex {number : UInt16}
    (h : element.getAttribute name = some (cStr (printHex 0 number.toNat))) :
    hexAttribute element name = number := by
  have hless := number.toNat_lt
  have hnumeral := @numeral_printHex_plain 0 number.toNat (by omega)
  have hmod : ((number.toNat : ℤ) % 2 ^ 16).toNat = number.toNat := by omega
  rw [hexAttribute, h, hnumeral.cStr (Or.inr rfl), Option.map_some, Option.getD_some, hnumeral.2,
    UInt16.ofInt, hmod, UInt16.ofNat_toNat]

theorem readChild_manufacturerElement (node : NodeData) (hclass : node.manufacturerSpecific = true)
    (metaData : List TiXmlNode) (written : NodeAttributes) :
    readChild getProduct node (manufacturerElement metaData written) =
      some (node.setProductDetails getProduct written.manufacturerId written.productType
        written.productId) := by
  have hvalue : (manufacturerElement metaData written).value = "Manufacturer" := rfl
  have hproduct : (manufacturerElement metaData written).childElements =
      [productElement metaData written] := rfl
  have hname : (productElement metaData written).value = "Product" := rfl
  have hmanufacturerId : hexAttribute (manufacturerElement metaData written) "id" =
      written.manufacturerId := hexAttribute_printHex (by
    simp [manufacturerElement, XmlElement.getAttribute_setAttribute])
  have hproductType : hexAttribute (productElement metaData written) "type" =
      written.productType := hexAttribute_printHex (by
    simp [productElement, XmlElement.getAttribute_setAttribute])
  have hproductId : hexAttribute (productElement metaData written) "id" =
      written.productId := hexAttribute_printHex (by
    simp [productElement, XmlElement.getAttribute_setAttribute])
  have hother : ¬ (manufacturerElement metaData written).value = "Neighbors" := by
    rw [hvalue]
    decide
  have hother' : ¬ (manufacturerElement metaData written).value = "CommandClasses" := by
    rw [hvalue]
    decide
  rw [readChild, if_neg hother, if_neg hother', if_pos hvalue, readManufacturer, hproduct,
    List.head?_cons, Option.map_some]
  simp only [hname, if_true, hclass, hmanufacturerId, hproductType, hproductId,
    setProductDetails]

theorem readCommandClassesXML_keeps (element : TiXmlElement) (node : NodeData) :
    (readCommandClassesXML element node).toNodeAttributes = node.toNodeAttributes ∧
      (readCommandClassesXML element node).queryStage = node.queryStage ∧
      (readCommandClassesXML element node).nodeCache = node.nodeCache := by
  refine List.foldlRecOn _ _ (motive := fun (after : NodeData) =>
    after.toNodeAttributes = node.toNodeAttributes ∧ after.queryStage = node.queryStage ∧
      after.nodeCache = node.nodeCache) ⟨rfl, rfl, rfl⟩ fun after hafter cc _ => ?_
  split <;> exact hafter

/-! ## The stage -/

theorem readQueryStage_name (stage : QueryStage) :
    (readQueryStage (cStr (queryStageName stage).toList)).number =
      min stage.number QueryStage.session.number := by
  cases stage <;> decide

theorem restoreQueryStage_spec {stage : QueryStage} {node : NodeAttributes}
    (h : Describes element stage node) (hstage : QueryStage.cacheLoad.number < stage.number)
    (fresh : NodeData) :
    (restoreQueryStage element fresh).toNodeAttributes = fresh.toNodeAttributes ∧
      (restoreQueryStage element fresh).queryStage.number =
        min stage.number QueryStage.session.number ∧
      (restoreQueryStage element fresh).manufacturerSpecific = fresh.manufacturerSpecific ∧
      (restoreQueryStage element fresh).nodeCache = some element := by
  have hnumber := readQueryStage_name stage
  have hlater : QueryStage.cacheLoad.number <
      (readQueryStage (cStr (queryStageName stage).toList)).number := by
    rw [hnumber]
    exact lt_min hstage (by decide)
  have hstarted : readQueryStage (cStr (queryStageName stage).toList) ≠ .none := by
    intro hnone
    rw [hnone] at hlater
    exact absurd hlater (by decide)
  simp only [restoreQueryStage, h.queryStage, if_neg hstarted, hlater, decide_true, if_true]
  exact ⟨trivial, hnumber, trivial, trivial⟩

/-! ## The element is read -/

/-- The element of the command classes. -/
def classesElement (content : NodeContent) : TiXmlElement :=
  { XmlElement.create "CommandClasses" with children := content.commandClasses }

/-- The loop over the children. -/
theorem foldlM_readChild (content : NodeContent) (node : NodeData) {started : NodeData}
    (hclass : started.manufacturerSpecific = true) :
    ∃ read, (nodeElement content node).childElements.foldlM (readChild getProduct) started =
        some read ∧
      read.toNodeAttributes = (setProductDetails getProduct node.manufacturerId node.productType
        node.productId { started with neighbors := node.neighbors }).toNodeAttributes ∧
      read.queryStage = started.queryStage ∧ read.nodeCache = started.nodeCache := by
  have hneighbors := @readChild_neighborsElement getProduct started node.neighbors
  have hproduct := @readChild_manufacturerElement getProduct
    { started with neighbors := node.neighbors } hclass content.metaData node.toNodeAttributes
  have hclasses : ∀ product, readChild getProduct product (classesElement content) =
      some (readCommandClassesXML (classesElement content) product) := fun _ => rfl
  refine ⟨_, ?_, readCommandClassesXML_keeps (classesElement content) _⟩
  rw [childElements_nodeElement, ← classesElement]
  simp only [List.foldlM_cons, List.foldlM_nil, hneighbors, hproduct, hclasses, Option.bind_eq_bind,
    Option.bind_some, Option.pure_def]

theorem notifyNaming_keeps (node : NodeData) :
    (notifyNaming node).toNodeAttributes = node.toNodeAttributes ∧
      (notifyNaming node).queryStage = node.queryStage ∧
      (notifyNaming node).nodeCache = node.nodeCache := by
  rw [notifyNaming]
  split <;> exact ⟨rfl, rfl, rfl⟩

/-- What reading the element of a node into a new one gives. -/
theorem readXML_nodeElement (content : NodeContent) (node : NodeData)
    (hstage : QueryStage.cacheLoad.number < node.queryStage.number) :
    ∃ read, readXML getProduct (nodeElement content node) (create node.nodeId) = some read ∧
      read.toNodeAttributes = restored getProduct node.toNodeAttributes ∧
      read.queryStage.number = min node.queryStage.number QueryStage.session.number ∧
      read.nodeCache = some (nodeElement content node) := by
  have hdescribes := describes_nodeElement content node
  obtain ⟨hfresh, hnumber, hclass, hcache⟩ :=
    restoreQueryStage_spec hdescribes hstage (create node.nodeId)
  have hattributes := readAttributes_of_describes getProduct hdescribes
  rw [readXML, hfresh, hattributes]
  generalize restoreQueryStage (nodeElement content node) (create node.nodeId) = started at *
  obtain ⟨read, hread, hsame, hstageKept, hcacheKept⟩ := @foldlM_readChild getProduct content node
    { started with toNodeAttributes := withoutChildren (restored getProduct node.toNodeAttributes) }
    hclass
  obtain ⟨hsame', hstageKept', hcacheKept'⟩ := notifyNaming_keeps read
  refine ⟨notifyNaming read, ?_, hsame'.trans hsame, ?_, ?_⟩
  · exact congrArg (Option.map notifyNaming) hread
  · rw [hstageKept', hstageKept, hnumber]
  · rw [hcacheKept', hcacheKept, hcache]

/-! ## What a node needs to come back -/

/-- The names are C strings, what the Z-Wave Plus information tells is there only with it,
and the names of the product are those of the database. -/
structure Restorable (getProduct : UInt16 → UInt16 → UInt16 → Option ProductDescriptor)
    (node : NodeAttributes) : Prop where
  nodeName : Char.ofNat 0 ∉ node.nodeName
  location : Char.ofNat 0 ∉ node.location
  type : Char.ofNat 0 ∉ node.type
  plusInfo : node.nodePlusInfoReceived = false →
    node.role = 0 ∧ node.deviceType = 0 ∧ node.nodeType = 0
  product : productNames getProduct node.manufacturerId node.productType node.productId =
    ⟨node.manufacturerName, node.productName⟩

theorem restored_eq_iff (node : NodeAttributes) :
    restored getProduct node = node ↔ Restorable getProduct node := by
  constructor
  · intro h
    refine ⟨cStr_eq_iff.mp (congrArg NodeAttributes.nodeName h),
      cStr_eq_iff.mp (congrArg NodeAttributes.location h),
      cStr_eq_iff.mp (congrArg NodeAttributes.type h), fun hplus => ?_, ?_⟩
    · have hrole := congrArg NodeAttributes.role h
      have hdevice := congrArg NodeAttributes.deviceType h
      have htype := congrArg NodeAttributes.nodeType h
      simp only [restored, hplus, Bool.false_eq_true, if_false] at hrole hdevice htype
      exact ⟨hrole.symm, hdevice.symm, htype.symm⟩
    · have hmanufacturer := congrArg NodeAttributes.manufacturerName h
      have hproduct := congrArg NodeAttributes.productName h
      exact congrArg₂ ProductDescriptor.mk hmanufacturer hproduct
  · rintro ⟨hname, hlocation, htype, hplus, hproduct⟩
    cases hreceived : node.nodePlusInfoReceived with
    | true =>
        ext1 <;> simp [restored, hproduct, cStr_eq_iff.mpr hname, cStr_eq_iff.mpr hlocation,
          cStr_eq_iff.mpr htype, hreceived]
    | false =>
        obtain ⟨hrole, hdevice, hnodeType⟩ := hplus hreceived
        ext1 <;> simp [restored, hproduct, cStr_eq_iff.mpr hname, cStr_eq_iff.mpr hlocation,
          cStr_eq_iff.mpr htype, hreceived, hrole, hdevice, hnodeType]

/-! ## The cache -/

/-- Writing is defined if the nodes that are at the stage of the cache were read from it. -/
theorem isSome_writeCache_iff (content : NodeData → NodeContent) (nodes : UInt8 → Option NodeData) :
    (writeCache content nodes).isSome = true ↔
      ∀ id node, nodes id = some node → node.queryStage = .cacheLoad →
        node.nodeCache.isSome = true := by
  have hids : ∀ id : UInt8, id ∈ (List.range 256).map UInt8.ofNat := fun id =>
    List.mem_map.mpr ⟨id.toNat, List.mem_range.mpr id.toNat_lt, UInt8.ofNat_toNat⟩
  rw [writeCache, Sweep.isSome_mapM_iff]
  constructor
  · intro h id node hnode hstage
    have hwritten := h node (List.mem_filterMap.mpr ⟨id, hids id, by simp [hnode, hstage]⟩)
    rw [writeXML, if_pos (by rw [hstage])] at hwritten
    exact hwritten
  · intro h node hmem
    obtain ⟨id, -, hfilter⟩ := List.mem_filterMap.mp hmem
    obtain ⟨hnode, hpast⟩ := Option.filter_eq_some_iff.mp hfilter
    rw [writeXML]
    split
    · rename_i hstage
      have hcache : node.queryStage = .cacheLoad :=
        QueryStage.number_injective (le_antisymm hstage (of_decide_eq_true hpast))
      exact h id node hnode hcache
    · rfl

/-- A node past the stage of the cache comes back at the earlier one of its stage and the
session, with its attributes exactly if it is restorable, and is written as it was while it
is at the stage of the cache. -/
def ComesBack (getProduct : UInt16 → UInt16 → UInt16 → Option ProductDescriptor)
    (content : NodeContent) (node : NodeData) : Prop :=
  ∃ element read, writeXML content node = some element ∧
    readXML getProduct element (create node.nodeId) = some read ∧
    read.queryStage.number = min node.queryStage.number QueryStage.session.number ∧
    (read.toNodeAttributes = node.toNodeAttributes ↔
      Restorable getProduct node.toNodeAttributes) ∧
    ∀ content', writeXML content' (setQueryStage .cacheLoad read) = some element

theorem comesBack_of_past (content : NodeContent) (node : NodeData)
    (hstage : QueryStage.cacheLoad.number < node.queryStage.number) :
    ComesBack getProduct content node := by
  obtain ⟨read, hread, hattributes, hnumber, hcache⟩ :=
    @readXML_nodeElement getProduct content node hstage
  refine ⟨nodeElement content node, read, if_neg (by omega), hread, hnumber, ?_, fun content' => ?_⟩
  · rw [hattributes, restored_eq_iff]
  · have hlater : QueryStage.cacheLoad.number < read.queryStage.number := by
      rw [hnumber]
      exact lt_min hstage (by decide)
    rw [setQueryStage, if_pos hlater, writeXML, if_pos le_rfl]
    exact hcache

/-- Writing is defined exactly if the nodes at the stage of the cache were read from it, and
what is written past that stage comes back. -/
theorem cacheRoundTrip (getProduct : UInt16 → UInt16 → UInt16 → Option ProductDescriptor) :
    (∀ content nodes, (writeCache content nodes).isSome = true ↔
      ∀ id node, nodes id = some node → node.queryStage = .cacheLoad →
        node.nodeCache.isSome = true) ∧
      ∀ content node, QueryStage.cacheLoad.number < node.queryStage.number →
        ComesBack getProduct content node :=
  ⟨isSome_writeCache_iff, comesBack_of_past⟩

/-- A node whose product is not in the database, and that was asked for its manufacturer. -/
def lamp : NodeData :=
  { create 7 with
    nodeName := "Lamp".toList
    nodePlusInfoReceived := true
    role := 5
    deviceType := 0x600
    maxBaudRate := 100000
    manufacturerId := 0x86
    manufacturerName := "Unknown: id=0086".toList
    productType := 3
    productId := 0x4B
    productName := "Unknown: type=0003, id=004b".toList
    queryStage := .complete }

theorem restorable_lamp : Restorable (fun _ _ _ => none) lamp.toNodeAttributes where
  nodeName := by decide
  location := by decide
  type := by decide
  plusInfo := by decide
  product := rfl

theorem cacheRoundTrip_lamp :
    Restorable (fun _ _ _ => none) lamp.toNodeAttributes ∧
      ComesBack (fun _ _ _ => none) ⟨[], []⟩ lamp :=
  ⟨restorable_lamp, (cacheRoundTrip fun _ _ _ => none).2 ⟨[], []⟩ lamp (by decide)⟩

/-- A new node that was given up in the stage before the one of the cache. -/
def stuck : NodeData := { create 7 with queryStage := .cacheLoad }

/-- A new node that was not asked for its manufacturer. -/
def unasked : NodeData := { create 7 with queryStage := .complete }

theorem cacheRoundTrip_fails :
    (∀ content, writeCache content (fun id => if id = 7 then some stuck else none) = none) ∧
      ∀ content, ∃ element read, writeXML content unasked = some element ∧
        readXML (fun _ _ _ => none) element (create 7) = some read ∧
        read.manufacturerName ≠ unasked.manufacturerName := by
  refine ⟨fun content => ?_, fun content => ?_⟩
  · rw [← Option.not_isSome_iff_eq_none, isSome_writeCache_iff]
    intro h
    cases h 7 stuck rfl rfl
  · obtain ⟨read, hread, hattributes, -, -⟩ :=
      @readXML_nodeElement (fun _ _ _ => none) content unasked (by decide)
    refine ⟨_, read, if_neg (by decide), hread, ?_⟩
    rw [show read.manufacturerName = _ from congrArg NodeAttributes.manufacturerName hattributes]
    decide

end

end NodeData

end OpenZWave

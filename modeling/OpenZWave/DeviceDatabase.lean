import Mathlib.Data.Multiset.AddSub
import OpenZWave.Lib.SortedTable
import OpenZWave.Lib.Transition
import OpenZWave.TinyXml

/-!
# The database of devices

`ManufacturerSpecificDB` knows the products and their configuration files. Files that are
missing or out of date are downloaded. The driver waits for the database, which is ready as
soon as no download is outstanding.
-/

namespace OpenZWave

open NumberText SortedTable Transition

/-- What the database keeps of a `ProductDescriptor`. -/
structure DatabaseProduct where
  manufacturerId : UInt16
  productType : UInt16
  productId : UInt16
  configPath : List Char

/-- `GetKey`. -/
def DatabaseProduct.getKey (product : DatabaseProduct) : ℕ :=
  product.manufacturerId.toNat <<< 32 ||| product.productType.toNat <<< 16 |||
    product.productId.toNat

inductive DownloadType
  | config
  | mfsConfig
  | image

/-- The node of a picture is not set. -/
structure HttpDownload where
  filename : List Char
  url : List Char
  operation : DownloadType
  node : Option UInt8

/-- What `refreshNodeConfig` does with a node. -/
inductive NodeRefresh
  | alert
  | reload
  | queueReload
  | nothing

inductive DownloadEvent
  /-- The client was asked for a download, which it accepted or not. -/
  | requested (download : HttpDownload) (accepted : Bool)
  | completed (file : List Char)
  | refreshed (node : UInt8) (refresh : NodeRefresh)
  /-- `Alert_ConfigFileDownloadFailed`. -/
  | alert

inductive DatabaseFault
  /-- The exception for a file of products that cannot be read. -/
  | config
  /-- A use of a node that is not there. -/
  | null

/-- A node whose configuration is updated. -/
structure ConfiguredNode where
  nodeId : UInt8
  manufacturerId : UInt16
  productType : UInt16
  productId : UInt16
  configPath : List Char

/-- What `refreshNodeConfig` asks a node: whether it is listening, and whether it is awake
if it has the class for that. -/
structure RefreshedNode where
  isListeningDevice : Bool
  isAwake : Option Bool

/-- What a call finds around the database. A document that is loaded has a root element, and
the client answers by what has happened so far. -/
structure DownloadContext where
  configPath : List Char
  reloadAfterUpdate : List Char
  fileExists : List Char → Bool
  loadFile : List Char → Option TiXmlElement
  nodes : UInt8 → Option RefreshedNode
  startDownload : List DownloadEvent → HttpDownload → Bool

structure ManufacturerSpecificDB where
  productMap : List DatabaseProduct
  xmlLoaded : Bool
  downloading : List (List Char)
  initializing : Bool
  log : List DownloadEvent

/-! ## Products -/

/-- The casts of identifiers. -/
def readProductId (text : List Char) : UInt16 := UInt16.ofInt (strtol 16 text).1

/-- The body of the inner loop of `LoadProductXML`. -/
def loadProduct (manufacturerId : UInt16) (products : List DatabaseProduct)
    (element : TiXmlElement) : List DatabaseProduct × Bool :=
  if element.value = "Product" then
    match element.getAttribute "type", element.getAttribute "id", element.getAttribute "name" with
    | some productType, some productId, some _ =>
        let product : DatabaseProduct :=
          { manufacturerId := manufacturerId
            productType := readProductId productType
            productId := readProductId productId
            configPath := (element.getAttribute "config").getD [] }
        match lookup DatabaseProduct.getKey product.getKey products with
        | some _ => (products, true)
        | none => (upsert DatabaseProduct.getKey product products, true)
    | _, _, _ => (products, false)
  else (products, true)

/-- A loop over elements, which ends at an error. -/
def loadElements (load : List DatabaseProduct → TiXmlElement → List DatabaseProduct × Bool) :
    List DatabaseProduct → List TiXmlElement → List DatabaseProduct × Bool
  | products, [] => (products, true)
  | products, element :: elements =>
      match load products element with
      | (products, true) => loadElements load products elements
      | (products, false) => (products, false)

/-- The body of the outer loop of `LoadProductXML`. -/
def loadManufacturer (products : List DatabaseProduct) (element : TiXmlElement) :
    List DatabaseProduct × Bool :=
  if element.value = "Manufacturer" then
    match element.getAttribute "id", element.getAttribute "name" with
    | some manufacturerId, some _ =>
        loadElements (loadProduct (readProductId manufacturerId)) products element.childElements
    | _, _ => (products, false)
  else (products, true)

/-! ## Requests -/

/-- The request of `startConfigDownload`. -/
def configDownload (manufacturerId productType productId : UInt16) (configfile : List Char)
    (node : UInt8) : HttpDownload where
  filename := configfile
  url := "http://download.db.openzwave.com/".toList ++ printHex 4 productId.toNat ++ ['.'] ++
    printHex 4 productType.toNat ++ ['.'] ++ printHex 4 manufacturerId.toNat ++ ".xml".toList
  operation := .config
  node := some node

/-- The request of `startMFSDownload`. -/
def mfsDownload (configfile : List Char) : HttpDownload where
  filename := configfile
  url := "http://download.db.openzwave.com/mfs.xml".toList
  operation := .mfsConfig
  node := some 0

/-- The request of `startDownload`. -/
def imageDownload (target file : List Char) : HttpDownload where
  filename := target
  url := "http://download.db.openzwave.com/".toList ++ file
  operation := .image
  node := none

namespace ManufacturerSpecificDB

/-- A new database, with the products that were loaded. -/
def new (products : List DatabaseProduct) : ManufacturerSpecificDB where
  productMap := products
  xmlLoaded := true
  downloading := []
  initializing := true
  log := []

def note (s : ManufacturerSpecificDB) (event : DownloadEvent) : ManufacturerSpecificDB :=
  { s with log := event :: s.log }

/-- `isReady`. -/
def isReady (s : ManufacturerSpecificDB) : Bool := !s.initializing && s.downloading.length == 0

/-- `checkInitialized`. -/
def checkInitialized (s : ManufacturerSpecificDB) : ManufacturerSpecificDB :=
  if s.initializing then
    if s.downloading.length = 0 then { s with initializing := false } else s
  else s

/-- A download ends: the first entry with its file goes. -/
def complete (s : ManufacturerSpecificDB) (file : List Char) : ManufacturerSpecificDB :=
  { s.note (.completed file) with downloading := s.downloading.erase file }

/-- `UnloadProductXML`. -/
def unloadProductXML (s : ManufacturerSpecificDB) : ManufacturerSpecificDB :=
  if s.xmlLoaded then { s with productMap := [], xmlLoaded := false } else s

variable (around : DownloadContext)

/-- The client is asked for a file, which is listed if the download starts. -/
def download (s : ManufacturerSpecificDB) (request : HttpDownload) :
    ManufacturerSpecificDB × Bool :=
  let accepted := around.startDownload s.log request
  let s := s.note (.requested request accepted)
  if accepted then ({ s with downloading := s.downloading ++ [request.filename] }, true)
  else (s, false)

/-- The same, with an alert if it does not start. -/
def downloadOrAlert (s : ManufacturerSpecificDB) (request : HttpDownload) :
    ManufacturerSpecificDB × Bool :=
  match s.download around request with
  | (s, true) => (s, true)
  | (s, false) => (s.note .alert, false)

/-- `LoadProductXML`. What was loaded before an error stays. -/
def loadProductXML (s : ManufacturerSpecificDB) : ManufacturerSpecificDB × Bool :=
  match around.loadFile (around.configPath ++ "manufacturer_specific.xml".toList) with
  | none => (s, false)
  | some root =>
      match loadElements loadManufacturer s.productMap root.childElements with
      | (products, true) => ({ s with productMap := products, xmlLoaded := true }, true)
      | (products, false) => ({ s with productMap := products }, false)

/-- The body of the loop of `checkConfigFileContents`. -/
def checkMetaDataItem (s : ManufacturerSpecificDB) (item : TiXmlElement) : ManufacturerSpecificDB :=
  if item.value = "MetaDataItem" ∧ item.getAttribute "name" = some "ProductPic".toList then
    match item.getText with
    | none => s
    | some text =>
        let imagefile := around.configPath ++ text
        if around.fileExists imagefile then s
        else if imagefile ∈ s.downloading then s
        else (s.download around (imageDownload imagefile text)).1
  else s

/-- `checkConfigFileContents`. -/
def checkConfigFileContents (s : ManufacturerSpecificDB) (file : List Char) :
    ManufacturerSpecificDB :=
  match (around.loadFile file).bind (·.firstChildElement "MetaData") with
  | none => s
  | some metaDataElement => metaDataElement.childElements.foldl (checkMetaDataItem around) s

/-- The body of the loop of `checkConfigFiles`. -/
def checkProduct (s : ManufacturerSpecificDB) (product : DatabaseProduct) :
    ManufacturerSpecificDB :=
  if product.configPath.length > 0 then
    let path := around.configPath ++ product.configPath
    if around.fileExists path then s.checkConfigFileContents around path
    else if path ∈ s.downloading then s
    else
      (s.downloadOrAlert around (configDownload product.manufacturerId product.productType
        product.productId path 0)).1
  else s

/-- `checkConfigFiles`. -/
def checkConfigFiles (s : ManufacturerSpecificDB) :
    ManufacturerSpecificDB × Except DatabaseFault Unit :=
  match if s.xmlLoaded then (s, true) else s.loadProductXML around with
  | (s, false) => (s, .error .config)
  | (s, true) => ((s.productMap.foldl (checkProduct around) s).checkInitialized, .ok ())

/-! ## Completions and updates -/

/-- `Driver::refreshNodeConfig`, with what it does. -/
def refreshNodeConfig (node : UInt8) : Except DatabaseFault NodeRefresh :=
  let action := around.reloadAfterUpdate.map Char.toUpper
  if action = "NEVER".toList then .ok .alert
  else if action = "IMMEDIATE".toList then .ok .reload
  else if action = "AWAKE".toList then
    match around.nodes node with
    | none => .error .null
    | some node =>
        if node.isListeningDevice then .ok .reload
        else
          match node.isAwake with
          | none => .ok .nothing
          | some true => .ok .reload
          | some false => .ok .queueReload
  else .ok .nothing

/-- `configDownloaded`. -/
def configDownloaded (s : ManufacturerSpecificDB) (file : List Char) (node : UInt8)
    (success : Bool) : ManufacturerSpecificDB × Except DatabaseFault Unit :=
  if file ∈ s.downloading then
    let s := s.complete file
    if node > 0 ∧ success then
      match refreshNodeConfig around node with
      | .error fault => (s, .error fault)
      | .ok refresh => (s.note (.refreshed node refresh), .ok ())
    else (s.checkInitialized, .ok ())
  else ((s.complete file).checkInitialized, .ok ())

/-- `fileDownloaded`, which does not look at the success. -/
def fileDownloaded (s : ManufacturerSpecificDB) (file : List Char) (_success : Bool) :
    ManufacturerSpecificDB × Except DatabaseFault Unit :=
  ((s.complete file).checkInitialized, .ok ())

/-- `mfsConfigDownloaded`. -/
def mfsConfigDownloaded (s : ManufacturerSpecificDB) (file : List Char) (success : Bool) :
    ManufacturerSpecificDB × Except DatabaseFault Unit :=
  if file ∈ s.downloading ∧ success then
    match (s.complete file).unloadProductXML.loadProductXML around with
    | (s, false) => (s, .error .config)
    | (s, true) =>
        match s.checkConfigFiles around with
        | (s, .error fault) => (s, .error fault)
        | (s, .ok ()) => (s.checkInitialized, .ok ())
  else ((s.complete file).checkInitialized, .ok ())

/-- `updateConfigFile`. -/
def updateConfigFile (s : ManufacturerSpecificDB) (node : ConfiguredNode) :
    ManufacturerSpecificDB × Bool :=
  let path := around.configPath ++ node.configPath
  let started := s.downloadOrAlert around
    (configDownload node.manufacturerId node.productType node.productId path node.nodeId)
  (started.1.checkInitialized, started.2)

/-- `updateMFSConfigFile`. -/
def updateMFSConfigFile (s : ManufacturerSpecificDB) : ManufacturerSpecificDB × Bool :=
  let started := s.downloadOrAlert around
    (mfsDownload (around.configPath ++ "manufacturer_specific.xml".toList))
  (started.1.checkInitialized, started.2)

end ManufacturerSpecificDB

inductive DatabaseCall
  | configDownloaded (file : List Char) (node : UInt8) (success : Bool)
  | fileDownloaded (file : List Char) (success : Bool)
  | mfsConfigDownloaded (file : List Char) (success : Bool)
  | updateConfigFile (node : ConfiguredNode)
  | updateMFSConfigFile
  | checkConfigFiles
  | checkInitialized

namespace ManufacturerSpecificDB

/-- A call, in the context that it finds. -/
def call (s : ManufacturerSpecificDB) (around : DownloadContext) :
    DatabaseCall → ManufacturerSpecificDB × Except DatabaseFault Unit
  | .configDownloaded file node success => s.configDownloaded around file node success
  | .fileDownloaded file success => s.fileDownloaded file success
  | .mfsConfigDownloaded file success => s.mfsConfigDownloaded around file success
  | .updateConfigFile node => ((s.updateConfigFile around node).1, .ok ())
  | .updateMFSConfigFile => ((s.updateMFSConfigFile around).1, .ok ())
  | .checkConfigFiles => s.checkConfigFiles around
  | .checkInitialized => (s.checkInitialized, .ok ())

def step (s : ManufacturerSpecificDB) (e : DownloadContext × DatabaseCall) :
    ManufacturerSpecificDB := (s.call e.1 e.2).1

/-! ## What is expected -/

/-- The downloads that are outstanding: each that has started, up to its completion. The last
event stands first. -/
def outstanding : List DownloadEvent → Multiset (List Char)
  | [] => 0
  | .requested download true :: past => download.filename ::ₘ outstanding past
  | .completed file :: past => (outstanding past).erase file
  | .requested _ false :: past => outstanding past
  | .refreshed _ _ :: past => outstanding past
  | .alert :: past => outstanding past

/-- The list of downloads is that of the outstanding ones. -/
def Accounted (s : ManufacturerSpecificDB) : Prop :=
  (s.downloading : Multiset (List Char)) = outstanding s.log

/-- A call keeps the account, and when it returns with no download outstanding the database
is ready. -/
def Settles (s : ManufacturerSpecificDB) (e : DownloadContext × DatabaseCall) : Prop :=
  (s.step e).Accounted ∧
    ((s.call e.1 e.2).2 = .ok () → outstanding (s.step e).log = 0 → (s.step e).isReady = true)

/-- The node can be refreshed: to find out whether it is awake, it must be there. -/
def CanRefresh (around : DownloadContext) (node : UInt8) : Prop :=
  around.reloadAfterUpdate.map Char.toUpper = "AWAKE".toList → (around.nodes node).isSome = true

/-- The last download succeeds, for a node, while the database is not initialized. -/
def LastForNode (s : ManufacturerSpecificDB) : DownloadContext × DatabaseCall → Prop
  | (around, .configDownloaded file node success) =>
      s.initializing = true ∧ s.downloading = [file] ∧ 0 < node ∧ success = true ∧
        CanRefresh around node
  | _ => False

variable {s : ManufacturerSpecificDB} {around : DownloadContext}

/-! ## The account -/

theorem Accounted.note (h : s.Accounted) {event : DownloadEvent}
    (hevent : ∀ past, outstanding (event :: past) = outstanding past) :
    (s.note event).Accounted := h.trans (hevent s.log).symm

theorem accounted_new (products : List DatabaseProduct) : (new products).Accounted := rfl

theorem Accounted.complete (h : s.Accounted) (file : List Char) : (s.complete file).Accounted := by
  rw [Accounted] at h
  change ((s.downloading.erase file : List _) : Multiset _) = (outstanding s.log).erase file
  rw [← h, Multiset.coe_erase]
  congr 3
  exact lawful_beq_subsingleton _ _

theorem Accounted.download (h : s.Accounted) (request : HttpDownload) :
    (s.download around request).1.Accounted := by
  rw [ManufacturerSpecificDB.download]
  cases haccepted : around.startDownload s.log request with
  | false => exact h
  | true =>
      change ((s.downloading ++ [request.filename] : List _) : Multiset _) =
        request.filename ::ₘ outstanding s.log
      rw [← Multiset.coe_add, Multiset.add_comm, Multiset.coe_singleton, Multiset.singleton_add, h]

theorem Accounted.downloadOrAlert (h : s.Accounted) (request : HttpDownload) :
    (s.downloadOrAlert around request).1.Accounted := by
  have hdownload : (s.download around request).1.Accounted := h.download request
  rw [ManufacturerSpecificDB.downloadOrAlert]
  split
  · rename_i heq
    rwa [heq] at hdownload
  · rename_i heq
    rw [heq] at hdownload
    exact hdownload.note fun _ => rfl

theorem Accounted.checkInitialized (h : s.Accounted) : s.checkInitialized.Accounted := by
  rw [ManufacturerSpecificDB.checkInitialized]
  split
  · split <;> exact h
  · exact h

theorem Accounted.unloadProductXML (h : s.Accounted) : s.unloadProductXML.Accounted := by
  rw [ManufacturerSpecificDB.unloadProductXML]
  split <;> exact h

theorem Accounted.loadProductXML (h : s.Accounted) : (s.loadProductXML around).1.Accounted := by
  rw [ManufacturerSpecificDB.loadProductXML]
  split
  · exact h
  · split <;> exact h

/-- A loop whose body keeps the account keeps it. -/
theorem Accounted.foldl {α : Type} {body : ManufacturerSpecificDB → α → ManufacturerSpecificDB}
    (hbody : ∀ s a, s.Accounted → (body s a).Accounted) (h : s.Accounted) (items : List α) :
    (items.foldl body s).Accounted := run_invariant body hbody h items

theorem Accounted.checkMetaDataItem (h : s.Accounted) (item : TiXmlElement) :
    (s.checkMetaDataItem around item).Accounted := by
  rw [ManufacturerSpecificDB.checkMetaDataItem]
  split
  · split
    · exact h
    · dsimp only
      split
      · exact h
      · split
        · exact h
        · exact h.download _
  · exact h

theorem Accounted.checkConfigFileContents (h : s.Accounted) (file : List Char) :
    (s.checkConfigFileContents around file).Accounted := by
  rw [ManufacturerSpecificDB.checkConfigFileContents]
  split
  · exact h
  · exact h.foldl (fun _ item hs => hs.checkMetaDataItem item) _

theorem Accounted.checkProduct (h : s.Accounted) (product : DatabaseProduct) :
    (s.checkProduct around product).Accounted := by
  rw [ManufacturerSpecificDB.checkProduct]
  split
  · dsimp only
    split
    · exact h.checkConfigFileContents _
    · split
      · exact h
      · exact h.downloadOrAlert _
  · exact h

/-! ## Readiness -/

theorem Accounted.outstanding_eq_zero_iff (h : s.Accounted) :
    outstanding s.log = 0 ↔ s.downloading = [] := by
  rw [← h]
  exact Multiset.coe_eq_zero _

theorem isReady_iff : s.isReady = true ↔ s.initializing = false ∧ s.downloading = [] := by
  simp [isReady]

@[simp] theorem downloading_checkInitialized (s : ManufacturerSpecificDB) :
    s.checkInitialized.downloading = s.downloading := by
  rw [checkInitialized]
  split
  · split <;> rfl
  · rfl

theorem isReady_checkInitialized (h : s.downloading = []) : s.checkInitialized.isReady = true := by
  rw [isReady_iff, downloading_checkInitialized]
  refine ⟨?_, h⟩
  rw [checkInitialized, h]
  split
  · rfl
  · rename_i hinit
    exact Bool.eq_false_iff.mpr hinit

/-- After the check, the database waits for its downloads only. -/
theorem Accounted.isReady_checkInitialized (h : s.Accounted)
    (hnone : outstanding s.checkInitialized.log = 0) : s.checkInitialized.isReady = true := by
  have hempty := h.checkInitialized.outstanding_eq_zero_iff.mp hnone
  rw [downloading_checkInitialized] at hempty
  exact ManufacturerSpecificDB.isReady_checkInitialized hempty

variable {c : DatabaseCall}

/-- A call that ends with the check settles. -/
theorem Accounted.settles {t : ManufacturerSpecificDB} (ht : t.Accounted)
    (hcall : s.call around c = (t.checkInitialized, .ok ())) : s.Settles (around, c) := by
  rw [Settles, step, hcall]
  exact ⟨ht.checkInitialized, fun _ => ht.isReady_checkInitialized⟩

/-- A call that throws settles when it keeps the account. -/
theorem Accounted.settles_of_error {t : ManufacturerSpecificDB} {fault : DatabaseFault}
    (ht : t.Accounted) (hcall : s.call around c = (t, .error fault)) : s.Settles (around, c) := by
  rw [Settles, step, hcall]
  refine ⟨ht, ?_⟩
  rintro ⟨⟩

/-- The configuration files are checked, or the products cannot be loaded. -/
theorem Accounted.checkConfigFiles_cases (h : s.Accounted) :
    (∃ t : ManufacturerSpecificDB, t.Accounted ∧
        s.checkConfigFiles around = (t.checkInitialized, .ok ())) ∨
      ∃ t : ManufacturerSpecificDB, t.Accounted ∧
        s.checkConfigFiles around = (t, .error .config) := by
  have hloaded : (if s.xmlLoaded then (s, true) else s.loadProductXML around).1.Accounted := by
    split
    · exact h
    · exact h.loadProductXML
  rw [checkConfigFiles]
  split
  · rename_i t heq
    rw [heq] at hloaded
    exact .inr ⟨t, hloaded, rfl⟩
  · rename_i t heq
    rw [heq] at hloaded
    exact .inl ⟨_, hloaded.foldl (fun _ product ht => ht.checkProduct product) _, rfl⟩

/-! ## Calls -/

theorem Accounted.settles_mfsConfigDownloaded (h : s.Accounted) (file : List Char)
    (success : Bool) : s.Settles (around, .mfsConfigDownloaded file success) := by
  by_cases hloads : file ∈ s.downloading ∧ success = true
  · have hcall : s.call around (.mfsConfigDownloaded file success) =
        s.mfsConfigDownloaded around file success := rfl
    rw [mfsConfigDownloaded, if_pos hloads] at hcall
    have hloaded : ((s.complete file).unloadProductXML.loadProductXML around).1.Accounted :=
      (h.complete file).unloadProductXML.loadProductXML
    cases hload : (s.complete file).unloadProductXML.loadProductXML around with
    | mk t loaded =>
        rw [hload] at hloaded hcall
        cases loaded with
        | false => exact hloaded.settles_of_error hcall
        | true =>
            rcases @Accounted.checkConfigFiles_cases t around hloaded with
              ⟨u, hu, hcheck⟩ | ⟨u, hu, hcheck⟩
            · exact hu.checkInitialized.settles (hcall.trans (by simp only [hcheck]))
            · exact @Accounted.settles_of_error s around _ u .config hu
                (hcall.trans (by simp only [hcheck]))
  · exact (h.complete file).settles (if_neg hloads)

/-- Every call but the completion of a configuration settles. -/
theorem Accounted.settles_call (h : s.Accounted)
    (hother : ∀ file node success, c ≠ .configDownloaded file node success) :
    s.Settles (around, c) := by
  cases c with
  | configDownloaded file node success => exact absurd rfl (hother file node success)
  | fileDownloaded file success => exact (h.complete file).settles rfl
  | mfsConfigDownloaded file success => exact h.settles_mfsConfigDownloaded file success
  | updateConfigFile node => exact (h.downloadOrAlert _).settles rfl
  | updateMFSConfigFile => exact (h.downloadOrAlert _).settles rfl
  | checkConfigFiles =>
      rcases @Accounted.checkConfigFiles_cases s around h with ⟨t, ht, hcall⟩ | ⟨t, ht, hcall⟩
      · exact ht.settles hcall
      · exact ht.settles_of_error hcall
  | checkInitialized => exact h.settles rfl

/-- The refresh of a node goes wrong exactly if the node is needed and not there. -/
theorem canRefresh_iff {node : UInt8} :
    CanRefresh around node ↔ ∃ refresh, refreshNodeConfig around node = .ok refresh := by
  rw [CanRefresh, refreshNodeConfig]
  by_cases hawake : around.reloadAfterUpdate.map Char.toUpper = "AWAKE".toList
  · have hnever : "AWAKE".toList ≠ "NEVER".toList := by decide
    have himmediate : "AWAKE".toList ≠ "IMMEDIATE".toList := by decide
    simp only [hawake, if_neg hnever, if_neg himmediate, if_true, forall_const]
    cases around.nodes node with
    | none => simp
    | some node =>
        refine iff_of_true rfl ?_
        dsimp only
        split
        · exact ⟨_, rfl⟩
        · split <;> exact ⟨_, rfl⟩
  · refine iff_of_true (fun h => absurd h hawake) ?_
    rw [if_neg hawake]
    split
    · exact ⟨_, rfl⟩
    · split <;> exact ⟨_, rfl⟩

/-- A configuration of a node that has been downloaded is not followed by the check. -/
theorem Accounted.settles_configDownloaded_iff (h : s.Accounted) (file : List Char) (node : UInt8)
    (success : Bool) :
    s.Settles (around, .configDownloaded file node success) ↔
      ¬ s.LastForNode (around, .configDownloaded file node success) := by
  have hcall : s.call around (.configDownloaded file node success) =
    s.configDownloaded around file node success := rfl
  have hcomplete := h.complete file
  rw [configDownloaded] at hcall
  by_cases hlisted : file ∈ s.downloading
  · rw [if_pos hlisted] at hcall
    by_cases hrefreshes : node > 0 ∧ success = true
    · simp only [if_pos hrefreshes] at hcall
      cases hrefresh : refreshNodeConfig around node with
      | error fault =>
          rw [hrefresh] at hcall
          refine iff_of_true (hcomplete.settles_of_error hcall) ?_
          rintro ⟨-, -, -, -, hcan⟩
          obtain ⟨refresh, hok⟩ := canRefresh_iff.mp hcan
          rw [hrefresh] at hok
          cases hok
      | ok refresh =>
          rw [hrefresh] at hcall
          have hnoted := @Accounted.note _ hcomplete (.refreshed node refresh) fun _ => rfl
          have hempty : s.downloading.erase file = [] ↔ s.downloading = [file] := by
            rw [List.erase_eq_nil_iff, or_iff_right (List.ne_nil_of_mem hlisted)]
          have hready : ((s.complete file).note (.refreshed node refresh)).isReady = true ↔
              s.initializing = false ∧ s.downloading = [file] := isReady_iff.trans
            (and_congr_right' hempty)
          have hnone := hnoted.outstanding_eq_zero_iff.trans hempty
          rw [Settles, step, hcall, and_iff_right hnoted, hready, hnone, LastForNode]
          have hcan := canRefresh_iff.mpr ⟨refresh, hrefresh⟩
          constructor
          · rintro hsettles ⟨hinit, hlast, -⟩
            rw [(hsettles rfl hlast).1] at hinit
            cases hinit
          · intro hnot _ hlast
            refine ⟨Bool.eq_false_iff.mpr fun hinit => hnot ?_, hlast⟩
            exact ⟨hinit, hlast, hrefreshes.1, hrefreshes.2, hcan⟩
    · simp only [if_neg hrefreshes] at hcall
      refine iff_of_true (hcomplete.settles hcall) ?_
      rintro ⟨-, -, hnode, hsuccess, -⟩
      exact hrefreshes ⟨hnode, hsuccess⟩
  · rw [if_neg hlisted] at hcall
    refine iff_of_true (hcomplete.settles hcall) ?_
    rintro ⟨-, hdownloading, -⟩
    rw [hdownloading] at hlisted
    exact hlisted (List.mem_singleton_self file)

theorem Accounted.settles_iff (h : s.Accounted) (e : DownloadContext × DatabaseCall) :
    s.Settles e ↔ ¬ s.LastForNode e := by
  obtain ⟨around, c⟩ := e
  by_cases hconfig : ∃ file node success, c = .configDownloaded file node success
  · obtain ⟨file, node, success, rfl⟩ := hconfig
    exact h.settles_configDownloaded_iff file node success
  · refine iff_of_true (h.settles_call ?_) ?_
    · rintro file node success rfl
      exact hconfig ⟨file, node, success, rfl⟩
    · cases c with
      | configDownloaded file node success => exact absurd ⟨file, node, success, rfl⟩ hconfig
      | _ => exact not_false

/-- In a run every download is listed up to its completion, and every call that returns with
none outstanding leaves the database ready, exactly if the last download of a database that is
not initialized never is a configuration that refreshes its node. -/
theorem settles_throughout_iff (products : List DatabaseProduct)
    (calls : List (DownloadContext × DatabaseCall)) :
    Along step Settles (new products) calls ↔
      Along step (fun s e => ¬ s.LastForNode e) (new products) calls :=
  along_congr (fun _ e h => h.settles_iff e) (fun _ _ _ hsettles => hsettles.1)
    (accounted_new products) calls

/-- No file is there, every download starts, and a node that has been updated is not reloaded. -/
def nothingThere : DownloadContext where
  configPath := []
  reloadAfterUpdate := "NEVER".toList
  fileExists := fun _ => false
  loadFile := fun _ => none
  nodes := fun _ => none
  startDownload := fun _ _ => true

/-- The configuration of a node comes, and the database stays uninitialized. -/
theorem waits_after_configDownloaded :
    ¬ Along step Settles (new [])
      [(nothingThere, .updateConfigFile ⟨5, 1, 2, 3, ['a']⟩),
        (nothingThere, .configDownloaded ['a'] 5 true)] := by
  rintro ⟨-, ⟨-, hready⟩, -⟩
  have hstays := hready rfl (Multiset.coe_eq_zero [] |>.mpr rfl)
  cases hstays

end ManufacturerSpecificDB

end OpenZWave

import OpenZWave.Scene

/-!
# The file of the scenes

Reading returns if every scene element has an id and every value in it a text. Scenes come
back from the file if their values have an index below 256 and a text that the file keeps.
The count is right as long as the ids that are read are new.
-/

namespace OpenZWave

open NumberText Sweep

namespace Scenes

/-! ## The loop returns -/

/-- A turn of the loop over an element that is left. -/
def readElement (s : Scenes) (element : TiXmlElement) : Option Scenes :=
  (element.queryIntAttribute "id").bind fun intVal =>
    readScene intVal.toUInt32.toUInt8 element s

theorem readLoop_returned_iff {elements : List TiXmlElement} {s s' : Scenes} {read : Bool} :
    (∃ turns, readLoop turns elements s = .returned read s') ↔
      read = true ∧ elements.foldlM readElement s = some s' := by
  constructor
  · rintro ⟨turns, h⟩
    induction turns generalizing elements s with
    | zero => cases h
    | succ turns ih =>
        cases elements with
        | nil =>
            cases h
            exact ⟨rfl, rfl⟩
        | cons element elements =>
            rw [readLoop] at h
            cases hid : element.queryIntAttribute "id" with
            | none =>
                -- the element without an id is read again
                rw [hid] at h
                obtain ⟨-, hrest⟩ := ih h
                simp [readElement, hid] at hrest
            | some intVal =>
                rw [hid] at h
                dsimp only at h
                cases hscene : readScene intVal.toUInt32.toUInt8 element s with
                | none =>
                    rw [hscene] at h
                    cases h
                | some next =>
                    rw [hscene] at h
                    obtain ⟨hread, hrest⟩ := ih h
                    refine ⟨hread, ?_⟩
                    simpa [readElement, hid, hscene] using hrest
  · rintro ⟨rfl, h⟩
    induction elements generalizing s with
    | nil =>
        cases h
        exact ⟨1, rfl⟩
    | cons element elements ih =>
        rw [List.foldlM_cons] at h
        obtain ⟨next, hnext, hrest⟩ := Option.bind_eq_some_iff.mp h
        obtain ⟨turns, hturns⟩ := ih hrest
        obtain ⟨intVal, hid, hscene⟩ := Option.bind_eq_some_iff.mp hnext
        refine ⟨turns + 1, ?_⟩
        simp [readLoop, hid, hscene, hturns]

/-- Reading a document of the version that is written. -/
theorem reads_document_iff {root : TiXmlElement}
    (hversion : root.queryIntAttribute "version" = some 1) {s s' : Scenes} {read : Bool} :
    Reads (.document (some root)) s read s' ↔
      read = true ∧ root.childElements.foldlM readElement s = some s' := by
  rw [← readLoop_returned_iff]
  have hcall : ∀ turns, readScenes turns (.document (some root)) s =
      readLoop turns root.childElements s := by
    intro turns
    simp only [readScenes, hversion]
    exact if_neg fun hne => hne rfl
  simp only [Reads, hcall]

/-- A document of another version is not read. -/
theorem readScenes_other_version {root : TiXmlElement}
    (hversion : root.queryIntAttribute "version" ≠ some 1) (turns : ℕ) (s : Scenes) :
    readScenes turns (.document (some root)) s = .returned false s := by
  simp only [readScenes]
  cases hvalue : root.queryIntAttribute "version" with
  | none => rfl
  | some intVal =>
      have hother : intVal.toUInt32 ≠ 1 := by
        rw [hvalue] at hversion
        cases intVal
        exact fun h => hversion (congrArg (fun word => some (Int32.ofUInt32 word)) h)
      exact if_pos hother

/-- An element that is read and left. -/
def Readable (element : TiXmlElement) : Prop :=
  (element.queryIntAttribute "id").isSome = true ∧
    ∀ value ∈ element.childElements, value.value = "Value" → value.getText.isSome = true

/-- What comes back of a value. -/
def restored (stored : SceneStorage) : Option SceneStorage :=
  (valueElement loadedText stored).getText.map fun data =>
    { id := readValueId (valueElement loadedText stored), value := data }

/-- The attributes of a value. -/
theorem getAttribute_valueElement (children : List Char → List TiXmlNode) (stored : SceneStorage) :
    let element := valueElement children stored
    element.getAttribute "homeId" =
        some (cStr ('0' :: 'x' :: printHex 8 stored.id.getHomeId.toNat)) ∧
      element.getAttribute "nodeId" = some (cStr (printInt stored.id.getNodeId.toNat)) ∧
      element.getAttribute "genre" =
        some (cStr (getGenreNameFromEnum stored.id.getGenre).toList) ∧
      element.getAttribute "commandClassId" =
        some (cStr (printInt stored.id.getCommandClassId.toNat)) ∧
      element.getAttribute "instance" = some (cStr (printInt stored.id.getInstance.toNat)) ∧
      element.getAttribute "index" = some (cStr (printInt stored.id.getIndex.toNat)) ∧
      element.getAttribute "type" = some (cStr (getTypeNameFromEnum stored.id.getType).toList) := by
  simp [valueElement, XmlElement.setAttribute, XmlElement.getAttribute, XmlElement.create]

/-- An attribute with a number is read into a byte. -/
theorem byteAttribute_eq {element : TiXmlElement} {name : String} {n : ℕ} (hn : n < 2 ^ 16)
    (h : element.getAttribute name = some (cStr (printInt n))) :
    byteAttribute element name = UInt8.ofNat n := by
  rw [byteAttribute, XmlElement.queryIntAttribute_printInt (by omega) (by omega) h]
  exact toUInt8_ofInt n

theorem getGenreEnumFromName_name (genre : GenreField) :
    getGenreEnumFromName (some (cStr (getGenreNameFromEnum genre).toList)) = genre := by
  revert genre
  decide

theorem getTypeEnumFromName_name (type : TypeField) :
    getTypeEnumFromName (some (cStr (getTypeNameFromEnum type).toList)) =
      if type ≤ 10 then type else 0 := by
  revert type
  decide

/-- The id that comes back has the lower byte of the index. -/
theorem readValueId_valueElement (children : List Char → List TiXmlNode) (stored : SceneStorage) :
    readValueId (valueElement children stored) = PackedValueID.new { stored.id.components with
      index := stored.id.getIndex.toUInt8.toUInt16
      type := if stored.id.getType ≤ 10 then stored.id.getType else 0 } := by
  obtain ⟨hhome, hnode, hgenre, hclass, hinstance, hindex, htype⟩ :=
    getAttribute_valueElement children stored
  have hhomeId : UInt32.ofInt (strtol 0 (cStr ('0' :: 'x' :: printHex 8
      stored.id.getHomeId.toNat))).1 = stored.id.getHomeId := by
    have hless := stored.id.getHomeId.toNat_lt
    have hnumeral := @numeral_printHex 16 (Or.inr rfl) 8 stored.id.getHomeId.toNat (by omega)
    rw [hnumeral.cStr (Or.inr rfl), (numeral_printHex (Or.inl rfl) 8 (by omega)).2,
      ofInt_natCast hless, UInt32.ofNat_toNat]
  have hsmall : ∀ byte : UInt8, byte.toNat < 2 ^ 16 := fun byte => by
    have := byte.toNat_lt
    omega
  rw [readValueId, byteAttribute_eq (hsmall _) hnode, byteAttribute_eq (hsmall _) hclass,
    byteAttribute_eq (hsmall _) hinstance,
    byteAttribute_eq stored.id.getIndex.toNat_lt hindex, hhome, hgenre, htype,
    getGenreEnumFromName_name, getTypeEnumFromName_name]
  simp [hhomeId, PackedValueID.components]

/-- An id that comes back from a file: its index is a byte, its type has a name, and it has
no other bits. -/
structure LastingId (id : PackedValueID) : Prop where
  index : id.getIndex.toNat < 256
  type : id.getType ≤ 10
  components : PackedValueID.new id.components = id

theorem readValueId_eq_iff (children : List Char → List TiXmlNode) (stored : SceneStorage) :
    readValueId (valueElement children stored) = stored.id ↔ LastingId stored.id := by
  rw [readValueId_valueElement]
  constructor
  · intro h
    have hcomponents := congrArg PackedValueID.components h
    rw [PackedValueID.components_new] at hcomponents
    have hindex : stored.id.getIndex.toUInt8.toUInt16 = stored.id.getIndex :=
      congrArg ValueComponents.index hcomponents
    have htype : (if stored.id.getType ≤ 10 then stored.id.getType else 0) = stored.id.getType :=
      congrArg ValueComponents.type hcomponents
    refine ⟨?_, ?_, ?_⟩
    · rw [← hindex]
      exact stored.id.getIndex.toUInt8.toNat_lt
    · by_contra hnamed
      rw [if_neg hnamed] at htype
      exact hnamed (htype ▸ by decide)
    · rw [← hcomponents, h]
  · rintro ⟨hindex, htype, hcomponents⟩
    have hbyte : stored.id.getIndex.toUInt8.toUInt16 = stored.id.getIndex := by
      apply UInt16.toNat_inj.mp
      simp [Nat.mod_eq_of_lt hindex]
    rw [hbyte, if_pos htype]
    exact hcomponents

/-- A value comes back if its id and its text do. -/
theorem restored_eq_iff (stored : SceneStorage) :
    restored stored = some stored ↔ LastingId stored.id ∧ Lasting stored.value := by
  rw [← readValueId_eq_iff loadedText, ← loadedText_eq_iff, restored]
  have hchildren : (valueElement loadedText stored).children = loadedText stored.value := rfl
  obtain ⟨id, value⟩ := stored
  rcases loadedText_cases value with hnone | ⟨value', hvalue', hstr⟩
  · simp [XmlElement.getText, hchildren, hnone]
  · simp [XmlElement.getText, hchildren, hvalue', hstr]

/-! ## A scene in the file -/

/-- What comes back of a scene. -/
def restoredScene (scene : Scene) : Option Scene :=
  (scene.values.mapM restored).map fun values => { label := cStr scene.label, values := values }

theorem mapM_eq_some_self_iff {f : SceneStorage → Option SceneStorage}
    {values : List SceneStorage} :
    values.mapM f = some values ↔ ∀ stored ∈ values, f stored = some stored := by
  induction values with
  | nil => simp
  | cons stored values ih =>
      rw [List.mapM_cons, List.forall_mem_cons, ← ih]
      cases hf : f stored <;> cases hfs : values.mapM f <;> simp

/-- A scene comes back if its label is a C string and its values come back. -/
theorem restoredScene_eq_iff (scene : Scene) :
    restoredScene scene = some scene ↔ Char.ofNat 0 ∉ scene.label ∧
      ∀ stored ∈ scene.values, LastingId stored.id ∧ Lasting stored.value := by
  simp only [← restored_eq_iff, ← cStr_eq_iff, ← mapM_eq_some_self_iff, restoredScene]
  obtain ⟨label, values⟩ := scene
  cases hvalues : values.mapM restored with
  | none => simp
  | some values' => simp

theorem foldlM_readValue (values : List SceneStorage) (scene : Scene) :
    (values.map (valueElement loadedText)).foldlM readValue scene =
      (values.mapM restored).map fun restored =>
        { scene with values := scene.values ++ restored } := by
  induction values generalizing scene with
  | nil => simp
  | cons stored values ih =>
      have hvalue : readValue scene (valueElement loadedText stored) =
          (restored stored).map fun stored => scene.addValue stored.id stored.value := by
        have hname : (valueElement loadedText stored).value = "Value" := rfl
        rw [readValue, if_pos hname, restored, Option.map_map]
        rfl
      rw [List.map_cons, List.foldlM_cons, hvalue, List.mapM_cons]
      cases hstored : restored stored with
      | none => simp
      | some stored' =>
          cases hvalues : values.mapM restored <;> simp [ih, hvalues, Scene.addValue]

/-- A scene that has been read. -/
def put (sceneId : UInt8) (scene : Scene) (s : Scenes) : Scenes where
  scenes := Function.update s.scenes sceneId (some scene)
  sceneCnt := s.sceneCnt + 1

theorem getAttribute_sceneElement (children : List Char → List TiXmlNode) (sceneId : UInt8)
    (scene : Scene) :
    (sceneElement children sceneId scene).getAttribute "id" =
        some (cStr (printInt sceneId.toNat)) ∧
      (sceneElement children sceneId scene).getAttribute "label" = some (cStr scene.label) := by
  simp [sceneElement, XmlElement.setAttribute, XmlElement.getAttribute, XmlElement.create,
    cStr_cStr]

theorem readElement_sceneElement (sceneId : UInt8) (scene : Scene) (s : Scenes) :
    readElement s (sceneElement loadedText sceneId scene) =
      (restoredScene scene).map fun scene => s.put sceneId scene := by
  obtain ⟨hid, hlabel⟩ := getAttribute_sceneElement loadedText sceneId scene
  have hsmall : sceneId.toNat < 2 ^ 16 := by
    have := sceneId.toNat_lt
    omega
  have hvalues : (sceneElement loadedText sceneId scene).childElements =
      scene.values.map (valueElement loadedText) :=
    XmlElement.childElements_map _ _ _ rfl
  rw [readElement, XmlElement.queryIntAttribute_printInt (by omega) (by omega) hid, Option.bind_some, toUInt8_ofInt,
    UInt8.ofNat_toNat, readScene, hvalues, foldlM_readValue, hlabel, restoredScene, Option.map_map,
    Option.map_map]
  congr 1
  funext values
  simp [put, newScene, modifyScene]

/-! ## The document -/

/-- What the loop makes of the scene with an id. -/
def visit (s t : Scenes) (sceneId : UInt8) : Option Scenes :=
  match s.scenes sceneId with
  | none => some t
  | some scene => (restoredScene scene).map fun scene => t.put sceneId scene

theorem foldlM_document (s t : Scenes) :
    (s.scenesElement loadedText).childElements.foldlM readElement t =
      sceneIds.foldlM (visit s) t := by
  have helements : (s.scenesElement loadedText).childElements = sceneIds.filterMap fun sceneId =>
      (s.scenes sceneId).map (sceneElement loadedText sceneId) := by
    simp only [XmlElement.childElements, scenesElement, List.filterMap_filterMap]
    congr 1
    funext sceneId
    cases s.scenes sceneId <;> rfl
  rw [helements, List.foldlM_filterMap]
  congr 1
  funext t sceneId
  cases hscene : s.scenes sceneId with
  | none => simp [visit, hscene]
  | some scene => simp [visit, hscene, readElement_sceneElement]

theorem scenes_put (t : Scenes) (sceneId id : UInt8) (scene : Scene) :
    (t.put sceneId scene).scenes id = if id = sceneId then some scene else t.scenes id := by
  by_cases h : id = sceneId
  · subst h
    simp [put]
  · simp [put, h]

theorem visit_own {s t t' : Scenes} {sceneId : UInt8} {scene : Scene}
    (h : visit s t sceneId = some t') (hscene : s.scenes sceneId = some scene) :
    t'.scenes sceneId = restoredScene scene := by
  rw [visit, hscene] at h
  obtain ⟨back, hback, rfl⟩ := Option.map_eq_some_iff.mp h
  rw [scenes_put, if_pos rfl, hback]

theorem visit_other {s t t' : Scenes} {sceneId id : UInt8} (h : visit s t sceneId = some t')
    (hid : id ≠ sceneId ∨ s.scenes id = none) : t'.scenes id = t.scenes id := by
  rw [visit] at h
  cases hscene : s.scenes sceneId with
  | none =>
      rw [hscene] at h
      cases h
      rfl
  | some scene =>
      rw [hscene] at h
      obtain ⟨back, -, rfl⟩ := Option.map_eq_some_iff.mp h
      have hne : id ≠ sceneId := hid.elim (fun hne => hne) fun hnone heq => by
        rw [heq, hscene] at hnone
        cases hnone
      rw [scenes_put, if_neg hne]

/-- What has been read: for an id in the list the scene that came back. -/
theorem foldlM_visit {s t t' : Scenes} {ids : List UInt8} (hnodup : ids.Nodup)
    (h : ids.foldlM (visit s) t = some t') (id : UInt8) :
    (id ∉ ids ∨ s.scenes id = none → t'.scenes id = t.scenes id) ∧
      ∀ scene, id ∈ ids → s.scenes id = some scene → t'.scenes id = restoredScene scene := by
  induction ids generalizing t with
  | nil =>
      cases h
      simp
  | cons sceneId ids ih =>
      obtain ⟨hnew, hrest⟩ := List.nodup_cons.mp hnodup
      obtain ⟨next, hnext, hfold⟩ := Option.bind_eq_some_iff.mp h
      obtain ⟨hother, hown⟩ := ih hrest hfold
      constructor
      · intro hid
        rw [List.mem_cons, not_or] at hid
        rw [hother (hid.imp And.right fun hnone => hnone), visit_other hnext
          (hid.imp And.left fun hnone => hnone)]
      · intro scene hmem hscene
        rcases List.mem_cons.mp hmem with rfl | hmem
        · rw [hother (Or.inl hnew), visit_own hnext hscene]
        · exact hown scene hmem hscene

theorem exists_foldlM_visit_iff {s t : Scenes} {ids : List UInt8} :
    (∃ t', ids.foldlM (visit s) t = some t') ↔
      ∀ id ∈ ids, ∀ scene, s.scenes id = some scene → (restoredScene scene).isSome = true := by
  induction ids generalizing t with
  | nil => simp
  | cons sceneId ids ih =>
      cases hscene : s.scenes sceneId with
      | none => simp [visit, hscene, ih]
      | some scene => cases hback : restoredScene scene <;> simp [visit, hscene, hback, ih]

/-! ## The table in the file -/

/-- What saving and loading a document does to the scenes: no label and no text has a
character reference, which would be copied as it is. -/
structure Reloads (reload : TiXmlElement → LoadedFile) : Prop where
  load : ∀ s : Scenes, (∀ id scene, s.scenes id = some scene → ¬ HasReference scene.label ∧
      ∀ stored ∈ scene.values, ¬ HasReference stored.value) →
    reload s.writeXML = .document (some (s.scenesElement loadedText))

/-- Written, and read by a new process, the scenes are the same. -/
def RoundTrips (reload : TiXmlElement → LoadedFile) (s : Scenes) : Prop :=
  ∃ s', Reads (reload s.writeXML) start true s' ∧ s'.scenes = s.scenes

/-- Scenes that a file keeps. -/
structure LastingScenes (s : Scenes) : Prop where
  zero : s.scenes 0 = none
  label : ∀ id scene, s.scenes id = some scene → Char.ofNat 0 ∉ scene.label
  values : ∀ id scene, s.scenes id = some scene →
    ∀ stored ∈ scene.values, LastingId stored.id ∧ Lasting stored.value

theorem mem_sceneIds {sceneId : UInt8} : sceneId ∈ sceneIds ↔ sceneId ≠ 0 := by
  have hless := sceneId.toNat_lt
  rw [sceneIds, mem_bytesUpTo (by decide), ← UInt8.toNat_inj.ne]
  change _ ↔ sceneId.toNat ≠ 0
  omega

theorem nodup_sceneIds : sceneIds.Nodup := nodup_bytesUpTo (by decide)

theorem version_scenesElement (children : List Char → List TiXmlNode) (s : Scenes) :
    (s.scenesElement children).queryIntAttribute "version" = some 1 := by
  have hattribute : (s.scenesElement children).getAttribute "version" =
      some (cStr (printInt 1)) := by
    simp [scenesElement, XmlElement.setAttribute, XmlElement.getAttribute, XmlElement.create]
  exact XmlElement.queryIntAttribute_printInt (by decide) (by decide) hattribute

/-- The scenes that come back are those that a file keeps. -/
theorem scenesRoundTrip_iff {reload : TiXmlElement → LoadedFile} (hreload : Reloads reload)
    (s : Scenes)
    (hplain : ∀ id scene, s.scenes id = some scene → ¬ HasReference scene.label ∧
      ∀ stored ∈ scene.values, ¬ HasReference stored.value) :
    RoundTrips reload s ↔ LastingScenes s := by
  have hzero : (0 : UInt8) ∉ sceneIds := fun hmem => mem_sceneIds.mp hmem rfl
  simp only [RoundTrips, hreload.load s hplain, reads_document_iff (version_scenesElement _ s),
    true_and, foldlM_document]
  constructor
  · rintro ⟨s', hfold, hsame⟩
    have hread := fun id => foldlM_visit nodup_sceneIds hfold id
    have hscenes : s.scenes 0 = none := by
      rw [← hsame, (hread 0).1 (Or.inl hzero)]
      rfl
    have hback : ∀ id scene, s.scenes id = some scene → restoredScene scene = some scene := by
      intro id scene hscene
      have hne : id ≠ 0 := by
        rintro rfl
        cases hscenes.symm.trans hscene
      rw [← (hread id).2 scene (mem_sceneIds.mpr hne) hscene, hsame, hscene]
    have hparts := fun id scene hscene =>
      (restoredScene_eq_iff scene).mp (hback id scene hscene)
    exact ⟨hscenes, fun id scene hscene => (hparts id scene hscene).1,
      fun id scene hscene => (hparts id scene hscene).2⟩
  · intro hlasting
    have hback : ∀ id scene, s.scenes id = some scene → restoredScene scene = some scene :=
      fun id scene hscene => (restoredScene_eq_iff scene).mpr
        ⟨hlasting.label id scene hscene, hlasting.values id scene hscene⟩
    obtain ⟨s', hfold⟩ := (@exists_foldlM_visit_iff s start sceneIds).mpr
      fun id _ scene hscene => by
        rw [hback id scene hscene]
        rfl
    refine ⟨s', hfold, funext fun id => ?_⟩
    obtain ⟨hother, hown⟩ := foldlM_visit nodup_sceneIds hfold id
    cases hscene : s.scenes id with
    | none => exact hother (Or.inr hscene)
    | some scene =>
        have hne : id ≠ 0 := by
          rintro rfl
          cases hlasting.zero.symm.trans hscene
        rw [hown scene (mem_sceneIds.mpr hne) hscene, hback id scene hscene]

end Scenes

end OpenZWave

import OpenZWave.Lib.Utf8
import OpenZWave.SceneCount
import OpenZWave.TinyXmlDocument

/-!
# The file of the scenes as bytes

The document of the scenes is written with `SaveFile` and read with `LoadFile`, byte by
byte and in UTF-8. What loading makes of the bytes of a text is what it makes of its
characters.
-/

namespace OpenZWave.TiXml

open NumberText Utf8

/-! ## Characters and their bytes -/

theorem sequence_encodeChar (c : Char) : Sequence (String.utf8EncodeChar c) := by
  rcases encodeChar_cases c with ⟨hsmall, hone⟩ | ⟨-, d, l, hmany, hlow, hhigh, hl, hlength⟩
  · rw [hone]
    have hless : UInt8.ofNat c.toNat < 0xC2 := ofNat_lt_ofNat (by decide) (hsmall.trans (by decide))
    exact .single (if_pos hless)
  · rw [hmany]
    have htable : utf8ByteTable d = l.length + 1 := by
      rw [hlength, utf8ByteTable, continuation, if_neg (UInt8.not_lt.mpr hlow)]
      split_ifs <;> rfl
    refine .several htable ?_ hl
    intro hnil
    rw [hnil, continuation] at hlength
    split_ifs at hlength

theorem sequenced_encode (t : List Char) : Sequenced (encode t) := by
  induction t with
  | nil => exact .nil
  | cons c t ih =>
      rw [encode_cons]
      exact .append (sequence_encodeChar c) ih

theorem skipped_encodeChar (c : Char) : Skipped (String.utf8EncodeChar c) ↔ isSkipped c = true := by
  have heq : ∀ d, String.utf8EncodeChar c = String.utf8EncodeChar d ↔ c = d :=
    fun d => encodeChar_injective.eq_iff
  have hblank : String.utf8EncodeChar ' ' = [32] := by decide
  have hmark : String.utf8EncodeChar (Char.ofNat 0xFEFF) = [0xEF, 0xBB, 0xBF] := by decide
  have hreversed : String.utf8EncodeChar (Char.ofNat 0xFFFE) = [0xEF, 0xBF, 0xBE] := by decide
  have hlast : String.utf8EncodeChar (Char.ofNat 0xFFFF) = [0xEF, 0xBF, 0xBF] := by decide
  rw [Skipped, marks, ← hblank, ← hmark, ← hreversed, ← hlast]
  simp only [List.mem_cons, List.not_mem_nil, or_false, heq, isSkipped, Bool.or_eq_true,
    beq_iff_eq, or_assoc]

theorem skipText_encode (t : List Char) : skipText (encode t) = encode (t.dropWhile isSkipped) := by
  induction t with
  | nil => rfl
  | cons c t ih =>
      rw [encode_cons, skipText_append (sequence_encodeChar c), List.dropWhile_cons,
        if_congr (skipped_encodeChar c) rfl rfl, ih]
      split
      · rfl
      · rw [encode_cons]

theorem condense_encode (whitespace : Bool) (t : List Char) :
    condense whitespace (encode t) = encode (OpenZWave.condense whitespace t) := by
  induction t generalizing whitespace with
  | nil => rfl
  | cons c t ih =>
      rw [encode_cons, OpenZWave.condense]
      by_cases hc : c = ' '
      · rw [if_pos hc, hc, ← ih]
        rfl
      · have hblank : String.utf8EncodeChar c ≠ [32] := by
          have hspace : String.utf8EncodeChar ' ' = [32] := by decide
          rw [← hspace]
          exact fun heq => hc (encodeChar_injective heq)
        obtain ⟨hvisible, hne⟩ := (sequence_encodeChar c).visible hblank
        rw [if_neg hc, condense_append_visible hvisible hne, ih]
        cases whitespace with
        | true =>
            rw [if_pos rfl, if_pos rfl, encode_cons, encode_cons, List.append_assoc]
            rfl
        | false =>
            rw [if_neg Bool.false_ne_true, if_neg Bool.false_ne_true, encode_cons]
            rfl

set_option maxRecDepth 4000 in
theorem lt_of_isWhiteSpace {d : UInt8} (h : isWhiteSpace d = true) : d < 0xC2 := by
  have hall : ∀ b, isWhiteSpace b = true → b < 0xC2 := WordBytes.forall_byte (by decide)
  exact hall d h

theorem all_isWhiteSpace_encodeChar (c : Char) :
    (String.utf8EncodeChar c).all isWhiteSpace = isSpace c := by
  rcases encodeChar_cases c with ⟨hsmall, hone⟩ | ⟨hlarge, d, l, hmany, hlow, -⟩
  · have hall : ∀ n < 0x80, isWhiteSpace (UInt8.ofNat n) = isSpace (Char.ofNat n) := by
      decide
    have hc := hall c.toNat hsmall
    rw [Char.ofNat_toNat] at hc
    rw [hone, List.all_cons, List.all_nil, Bool.and_true, hc]
  · have hd : isWhiteSpace d = false :=
      Bool.eq_false_iff.mpr fun htrue => UInt8.not_le.mpr (lt_of_isWhiteSpace htrue) hlow
    have hspace : isSpace c = false := by
      have hne : c ≠ ' ' := by
        rintro rfl
        exact absurd hlarge (by decide)
      have hreturn : ¬ c ≤ '\r' := by
        rw [Char.le_def, UInt32.le_iff_toNat_le]
        exact fun hle => absurd (hlarge.trans hle) (by decide)
      rw [isSpace, beq_false_of_ne hne, decide_eq_false hreturn, Bool.and_false, Bool.or_false]
    rw [hmany, List.all_cons, hd, Bool.false_and, hspace]

theorem all_isWhiteSpace_encode (t : List Char) :
    (encode t).all isWhiteSpace = t.all isSpace := by
  induction t with
  | nil => rfl
  | cons c t ih =>
      rw [encode_cons, List.all_append, List.all_cons, ih, all_isWhiteSpace_encodeChar]

theorem not_hasReference_encode {t : List Char} (h : ¬ OpenZWave.HasReference t) :
    ¬ HasReference (encode t) := by
  have hbytes : bytes ['&', '#', 'x'] = encode ['&', '#', 'x'] := by decide
  rw [HasReference, hbytes]
  exact fun hfound => h (infix_of_encode (by decide) hfound)

theorem plain_encode {t : List Char} (h : ¬ OpenZWave.HasReference t) : Plain (encode t) :=
  ⟨sequenced_encode t, not_hasReference_encode h⟩

/-! ## Nodes -/

mutual

/-- A node with its texts as bytes. -/
def encodeNode : TiXmlNode → XmlNode
  | .element ⟨value, attributeSet, children⟩ =>
      .element (encode value.toList) (attributeSet.map fun a => (encode a.1.toList, encode a.2))
        (encodeNodes children)
  | .text value => .text (encode value) false
  | .other value => .comment (encode value)

def encodeNodes : List TiXmlNode → List XmlNode
  | [] => []
  | node :: nodes => encodeNode node :: encodeNodes nodes

end

mutual

/-- A node with its bytes as texts, if they are in UTF-8. -/
def decodeNode : XmlNode → Option TiXmlNode
  | .element value attributeSet children => do
      let value ← decode value
      let attributeSet ← attributeSet.mapM fun a => do
        return (String.ofList (← decode a.1), ← decode a.2)
      let children ← decodeNodes children
      return .element ⟨String.ofList value, attributeSet, children⟩
  | .text value _ => .text <$> decode value
  | .comment value => .other <$> decode value
  | .declaration _ _ _ => some (.other [])
  | .unknown value => .other <$> decode value

def decodeNodes : List XmlNode → Option (List TiXmlNode)
  | [] => some []
  | node :: nodes => do return (← decodeNode node) :: (← decodeNodes nodes)

end

/-- The document of `WriteXML` with its declaration. -/
def sceneDocument (root : TiXmlElement) : XmlDocument :=
  { nodes := [.declaration (bytes ['1', '.', '0']) (bytes ['u', 't', 'f', '-', '8']) [],
      encodeNode (.element root)]
    useMicrosoftBOM := false }

/-- A file that is loaded in UTF-8, as `ReadScenes` does, and its `RootElement`, the first
element. -/
def loadDocument (file : Bytes) : Scenes.LoadedFile :=
  match loadFile .utf8 file with
  | .ok (doc, none) =>
      match decodeNodes doc.nodes with
      | some nodes => .document (nodes.findSome? TiXmlNode.toElement)
      | none => .failed
  | _ => .failed

theorem decode_attributes (attributeSet : List (String × List Char)) :
    (attributeSet.map fun a => (encode a.1.toList, encode a.2)).mapM (fun a => do
      return (String.ofList (← decode a.1), ← decode a.2)) = some attributeSet := by
  induction attributeSet with
  | nil => rfl
  | cons a attributeSet ih =>
      rw [List.map_cons, List.mapM_cons, ih, decode_encode, decode_encode]
      simp [String.ofList_toList]

theorem loadedText_encode {t : List Char} (h : cStr t = t) :
    loadedText (encode t) = encodeNodes (OpenZWave.loadedText t) := by
  rw [loadedText, OpenZWave.loadedText, h, skipText_encode, condense_encode]
  simp only [all_isWhiteSpace_encode]
  split <;> rfl

theorem decodeNodes_loadedText (t : List Char) :
    decodeNodes (encodeNodes (OpenZWave.loadedText t)) = some (OpenZWave.loadedText t) := by
  rcases loadedText_cases t with hnone | ⟨value, hvalue, -⟩
  · rw [hnone]
    rfl
  · rw [hvalue]
    simp [encodeNodes, encodeNode, decodeNodes, decodeNode, decode_encode]

/-- An element that is loaded, as texts. -/
theorem decodeNode_element {element : TiXmlElement} {children : List TiXmlNode}
    (h : decodeNodes (loadedChildren [] (encodeNodes element.children)) = some children) :
    decodeNode (encodeNode (.element element)).loaded =
      some (.element { element with children := children }) := by
  obtain ⟨value, attributeSet, nodes⟩ := element
  rw [encodeNode, XmlNode.loaded, decodeNode, decode_attributes, h, decode_encode]
  simp [String.ofList_toList]

theorem loads_text {element : TiXmlElement} {t : List Char} (hstr : cStr t = t)
    (h : element.children = [.text t]) :
    decodeNode (encodeNode (.element element)).loaded =
      some (.element { element with children := OpenZWave.loadedText t }) := by
  refine decodeNode_element ?_
  have htext : encodeNodes [.text t] = [.text (encode t) false] := rfl
  rw [h, htext, loadedChildren, loadedChildren, List.nil_append, loadedText_encode hstr,
    decodeNodes_loadedText]

/-- Elements without a text beside them are loaded one by one. -/
theorem loads_elements {element : TiXmlElement} {elements loaded : List TiXmlElement}
    (h : element.children = elements.map TiXmlNode.element)
    (hload : List.Forall₂ (fun x y => decodeNode (encodeNode (.element x)).loaded =
      some (TiXmlNode.element y)) elements loaded) :
    decodeNode (encodeNode (.element element)).loaded =
      some (.element { element with children := loaded.map TiXmlNode.element }) := by
  refine decodeNode_element ?_
  rw [h]
  clear h
  induction hload with
  | nil => rfl
  | cons hnode _ ih =>
      rename_i x y elements loaded _
      have htag : ∀ value, encodeNode (.element x) ≠ .text value false := by
        intro value heq
        rw [encodeNode] at heq
        cases heq
      have hempty : loadedText [] = [] := rfl
      rw [List.map_cons, encodeNodes, loadedChildren, hempty, List.nil_append, decodeNodes, hnode,
        ih]
      · rfl
      · exact htag

theorem writable_element {element : TiXmlElement}
    (hvalue : isValidName (encode element.value.toList) = true)
    (hnames : (element.attributeSet.map Prod.fst).Nodup)
    (hattributes : ∀ a ∈ element.attributeSet, isValidName (encode a.1.toList) = true ∧
      ¬ OpenZWave.HasReference a.2)
    (hchildren : AllWritable (encodeNodes element.children)) :
    (encodeNode (.element element)).Writable := by
  obtain ⟨value, attributeSet, children⟩ := element
  rw [encodeNode, XmlNode.Writable]
  refine ⟨validName_of_isValidName hvalue, ?_, ?_, hchildren⟩
  · have hinjective : Function.Injective fun name : String => encode name.toList :=
      encode_injective.comp fun _ _ heq => String.toList_inj.mp heq
    have hmap : (attributeSet.map fun a => (encode a.1.toList, encode a.2)).map Prod.fst =
        (attributeSet.map Prod.fst).map fun name => encode name.toList := by
      rw [List.map_map, List.map_map]
      rfl
    rw [hmap]
    exact hnames.map hinjective
  · intro a ha
    obtain ⟨b, hb, rfl⟩ := List.mem_map.mp ha
    obtain ⟨hname, hreference⟩ := hattributes b hb
    exact ⟨validName_of_isValidName hname, plain_encode hreference⟩

theorem allWritable_elements {elements : List TiXmlElement}
    (h : ∀ element ∈ elements, (encodeNode (.element element)).Writable) :
    AllWritable (encodeNodes (elements.map TiXmlNode.element)) := by
  induction elements with
  | nil => trivial
  | cons element elements ih =>
      exact ⟨h element List.mem_cons_self,
        ih fun other hmem => h other (List.mem_cons_of_mem element hmem)⟩

theorem not_hasReference {t : List Char} (h : '&' ∉ t) : ¬ OpenZWave.HasReference t :=
  fun hfound => h (hfound.subset List.mem_cons_self)

theorem not_mem_toDigits {base : Nat} (htwo : 1 < base) (hbase : base ≤ 16) (n : Nat) :
    '&' ∉ Nat.toDigits base n := by
  have hdigit : ∀ d < 16, '&' ≠ d.digitChar := by decide
  induction n using Nat.strong_induction_on with
  | _ n ih =>
      rcases Nat.lt_or_ge n base with hlt | hle
      · rw [Nat.toDigits_of_lt_base hlt, List.mem_singleton]
        exact hdigit n (by omega)
      · have hless : n / base < n := Nat.div_lt_self (by omega) htwo
        have hmod := Nat.mod_lt n (by omega : 0 < base)
        rw [Nat.toDigits_of_base_le htwo hle, List.mem_append, List.mem_singleton, not_or]
        exact ⟨ih _ hless, hdigit _ (by omega)⟩

theorem not_mem_printInt (n : Nat) : '&' ∉ printInt n := not_mem_toDigits (by decide) (by decide) n

theorem not_mem_printHex (precision n : Nat) : '&' ∉ '0' :: 'x' :: printHex precision n := by
  rw [printHex, pad]
  simp only [List.mem_cons, List.mem_append, List.mem_replicate, not_or]
  exact ⟨by decide, by decide, fun h => absurd h.2 (by decide),
    not_mem_toDigits (by decide) (by decide) n⟩

end OpenZWave.TiXml

namespace OpenZWave.Scenes

open TiXml NumberText Utf8

theorem writable_valueElement {stored : SceneStorage} (h : ¬ OpenZWave.HasReference stored.value) :
    (encodeNode (.element
      (valueElement (fun value => [.text (cStr value)]) stored))).Writable := by
  have hset : (valueElement (fun value => [.text (cStr value)]) stored).attributeSet =
      [("homeId", '0' :: 'x' :: printHex 8 stored.id.getHomeId.toNat),
        ("nodeId", printInt stored.id.getNodeId.toNat),
        ("genre", (getGenreNameFromEnum stored.id.getGenre).toList),
        ("commandClassId", printInt stored.id.getCommandClassId.toNat),
        ("instance", printInt stored.id.getInstance.toNat),
        ("index", printInt stored.id.getIndex.toNat),
        ("type", (getTypeNameFromEnum stored.id.getType).toList)] := by
    simp [valueElement, XmlElement.setAttribute, XmlElement.create]
  have hgenre : ∀ genre : GenreField, '&' ∉ (getGenreNameFromEnum genre).toList := by
    decide
  have htype : ∀ type : TypeField, '&' ∉ (getTypeNameFromEnum type).toList := by
    decide
  have hplain : ∀ {n : Nat}, ¬ OpenZWave.HasReference (printInt n) :=
    not_hasReference (not_mem_printInt _)
  refine writable_element (by decide : isValidName (encode "Value".toList) = true) ?_ ?_ ?_
  · rw [hset]
    exact (by decide : ["homeId", "nodeId", "genre", "commandClassId", "instance", "index",
      "type"].Nodup)
  · rw [hset]
    simp only [List.forall_mem_cons]
    exact ⟨⟨by decide, not_hasReference (not_mem_printHex _ _)⟩, ⟨by decide, hplain⟩,
      ⟨by decide, not_hasReference (hgenre _)⟩, ⟨by decide, hplain⟩, ⟨by decide, hplain⟩,
      ⟨by decide, hplain⟩, ⟨by decide, not_hasReference (htype _)⟩,
      fun a ha => absurd ha List.not_mem_nil⟩
  · have hreference : ¬ OpenZWave.HasReference (cStr stored.value) :=
      fun hfound => h (hfound.trans (List.takeWhile_prefix _).isInfix)
    exact ⟨plain_encode hreference, trivial⟩

theorem writable_sceneElement (sceneId : UInt8) {scene : Scene}
    (hlabel : ¬ OpenZWave.HasReference scene.label)
    (hvalues : ∀ stored ∈ scene.values, ¬ OpenZWave.HasReference stored.value) :
    (encodeNode (.element
      (sceneElement (fun value => [.text (cStr value)]) sceneId scene))).Writable := by
  have hset : (sceneElement (fun value => [.text (cStr value)]) sceneId scene).attributeSet =
      [("id", printInt sceneId.toNat), ("label", cStr scene.label)] := by
    simp [sceneElement, XmlElement.setAttribute, XmlElement.create]
  refine writable_element (by decide : isValidName (encode "Scene".toList) = true) ?_ ?_ ?_
  · rw [hset]
    exact (by decide : ["id", "label"].Nodup)
  · rw [hset]
    simp only [List.forall_mem_cons]
    have hreference : ¬ OpenZWave.HasReference (cStr scene.label) :=
      fun hfound => hlabel (hfound.trans (List.takeWhile_prefix _).isInfix)
    exact ⟨⟨by decide, not_hasReference (not_mem_printInt _)⟩, ⟨by decide, hreference⟩,
      fun a ha => absurd ha List.not_mem_nil⟩
  · have hchildren : (sceneElement (fun value => [.text (cStr value)]) sceneId scene).children =
        (scene.values.map (valueElement fun value => [.text (cStr value)])).map
          TiXmlNode.element := by
      rw [List.map_map]
      rfl
    rw [hchildren]
    refine allWritable_elements ?_
    intro element helement
    obtain ⟨stored, hstored, rfl⟩ := List.mem_map.mp helement
    exact writable_valueElement (hvalues stored hstored)

/-- The scenes with their ids. -/
def sceneElements (children : List Char → List TiXmlNode) (s : Scenes) : List TiXmlElement :=
  sceneIds.filterMap fun sceneId => (s.scenes sceneId).map (sceneElement children sceneId)

theorem children_scenesElement (children : List Char → List TiXmlNode) (s : Scenes) :
    (s.scenesElement children).children =
      (s.sceneElements children).map TiXmlNode.element := by
  rw [sceneElements, List.map_filterMap]
  simp only [Option.map_map]
  rfl

theorem writable_writeXML {s : Scenes}
    (h : ∀ id scene, s.scenes id = some scene → ¬ OpenZWave.HasReference scene.label ∧
      ∀ stored ∈ scene.values, ¬ OpenZWave.HasReference stored.value) :
    (encodeNode (.element s.writeXML)).Writable := by
  have hset : s.writeXML.attributeSet =
      [("xmlns", "http://code.google.com/p/open-zwave/".toList), ("version", printInt 1)] := by
    simp [writeXML, scenesElement, XmlElement.setAttribute, XmlElement.create]
  refine writable_element (by decide : isValidName (encode "Scenes".toList) = true) ?_ ?_ ?_
  · rw [hset]
    exact (by decide : ["xmlns", "version"].Nodup)
  · rw [hset]
    simp only [List.forall_mem_cons]
    exact ⟨⟨by decide, not_hasReference (by decide)⟩, ⟨by decide, not_hasReference (by decide)⟩,
      fun a ha => absurd ha List.not_mem_nil⟩
  · rw [writeXML, children_scenesElement]
    refine allWritable_elements ?_
    intro element helement
    obtain ⟨sceneId, -, hscene⟩ := List.mem_filterMap.mp helement
    obtain ⟨scene, hsome, rfl⟩ := Option.map_eq_some_iff.mp hscene
    exact writable_sceneElement sceneId (h sceneId scene hsome).1 (h sceneId scene hsome).2

/-- The scenes as they are loaded, element by element. -/
theorem loads_sceneElements (s : Scenes) :
    List.Forall₂ (fun x y => decodeNode (encodeNode (.element x)).loaded =
      some (TiXmlNode.element y)) (s.sceneElements fun value => [.text (cStr value)])
        (s.sceneElements OpenZWave.loadedText) := by
  have hvalue : ∀ stored, decodeNode (encodeNode (.element
      (valueElement (fun value => [.text (cStr value)]) stored))).loaded =
        some (.element (valueElement OpenZWave.loadedText stored)) := by
    intro stored
    have htext : OpenZWave.loadedText (cStr stored.value) = OpenZWave.loadedText stored.value := by
      rw [OpenZWave.loadedText, cStr_cStr, ← OpenZWave.loadedText]
    rw [loads_text (cStr_cStr stored.value) rfl, htext]
    rfl
  have hscene : ∀ sceneId scene, decodeNode (encodeNode (.element
      (sceneElement (fun value => [.text (cStr value)]) sceneId scene))).loaded =
        some (.element (sceneElement OpenZWave.loadedText sceneId scene)) := by
    intro sceneId scene
    have hchildren : ∀ children, (sceneElement children sceneId scene).children =
        (scene.values.map (valueElement children)).map TiXmlNode.element := by
      intro children
      rw [List.map_map]
      rfl
    have hload := loads_elements (hchildren fun value => [.text (cStr value)])
      (List.forall₂_map_left_iff.mpr (List.forall₂_map_right_iff.mpr
        (List.forall₂_same.mpr fun stored _ => hvalue stored)))
    rw [hload, ← hchildren]
    rfl
  rw [sceneElements, sceneElements]
  induction sceneIds with
  | nil => exact .nil
  | cons sceneId ids ih =>
      cases hsome : s.scenes sceneId with
      | none =>
          rw [List.filterMap_cons_none (by rw [hsome]; rfl),
            List.filterMap_cons_none (by rw [hsome]; rfl)]
          exact ih
      | some scene =>
          rw [List.filterMap_cons_some (by rw [hsome]; rfl),
            List.filterMap_cons_some (by rw [hsome]; rfl)]
          exact .cons (hscene sceneId scene) ih

/-- The document that is written to a file and loaded. -/
def reloadDocument (root : TiXmlElement) : LoadedFile :=
  loadDocument (saveFile (sceneDocument root))

theorem reloads_document : Reloads reloadDocument where
  load := by
    intro s hplain
    have hwritable : (sceneDocument s.writeXML).Writable := by
      refine ⟨⟨?_, writable_writeXML hplain, trivial⟩, ?_, List.cons_ne_nil _ _⟩
      · rw [XmlNode.Writable]
        exact ⟨plainPart_of_isSmall rfl (by decide) (by decide) (by decide),
          plainPart_of_isSmall rfl (by decide) (by decide) (by decide),
          plainPart_of_isSmall rfl (by decide) (by decide) (by decide)⟩
      · intro node hnode value
        simp only [sceneDocument, List.mem_cons, List.not_mem_nil, or_false] at hnode
        rcases hnode with rfl | rfl
        · exact XmlNode.noConfusion
        · rw [encodeNode]
          exact XmlNode.noConfusion
    have hload : decodeNode (encodeNode (.element s.writeXML)).loaded =
        some (.element (s.scenesElement OpenZWave.loadedText)) := by
      rw [writeXML, loads_elements (children_scenesElement _ s) s.loads_sceneElements,
        ← children_scenesElement]
      rfl
    have hdeclaration : decodeNode (XmlNode.declaration (bytes ['1', '.', '0'])
        (bytes ['u', 't', 'f', '-', '8']) []).loaded = some (.other []) := rfl
    rw [reloadDocument, loadDocument, loadFile_saveFile .utf8 _ hwritable (.inl rfl)]
    simp only [sceneDocument, List.map_cons, List.map_nil, decodeNodes, hdeclaration, hload]
    rfl

/-- Written to a file and read from it, the scenes are the same exactly if a file keeps
them. -/
theorem fileRoundTrip_iff (s : Scenes)
    (hplain : ∀ id scene, s.scenes id = some scene → ¬ OpenZWave.HasReference scene.label ∧
      ∀ stored ∈ scene.values, ¬ OpenZWave.HasReference stored.value) :
    RoundTrips reloadDocument s ↔ LastingScenes s :=
  scenesRoundTrip_iff reloads_document s hplain

theorem fileRoundTrip_evening : RoundTrips reloadDocument evening :=
  (fileRoundTrip_iff evening plain_evening).mpr lasting_evening

end OpenZWave.Scenes

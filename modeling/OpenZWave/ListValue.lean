import Mathlib.Logic.Function.Basic
import OpenZWave.Configuration
import OpenZWave.TinyXml

/-!
# Lists and their selection

`ValueList` keeps the index of the item that is selected. Reports and targets are values of
items. `VerifyRefreshedValue` is given indexes, and compares one of them with the target.
Of the attributes that all values share, only those that a later reading looks at are kept.
-/

namespace OpenZWave

open NumberText Transition

/-! ## Labels of items -/

/-- `ValueLocalizationEntry`, with the labels of items. -/
structure ItemLabels where
  itemLabelText : List Char → Int32 → Option (List Char)
  defaultItemLabelText : Int32 → Option (List Char)

namespace ItemLabels

def empty : ItemLabels where
  itemLabelText := fun _ _ => none
  defaultItemLabelText := fun _ => none

/-- `ValueLocalizationEntry::AddItemLabel`. -/
def addItemLabel (labels : ItemLabels) (label : List Char) (itemIndex : Int32)
    (lang : List Char) : ItemLabels :=
  if lang = [] then
    { labels with
      defaultItemLabelText := Function.update labels.defaultItemLabelText itemIndex (some label) }
  else
    { labels with
      itemLabelText :=
        Function.update labels.itemLabelText lang
          (Function.update (labels.itemLabelText lang) itemIndex (some label)) }

/-- The label in a language, which the default language does not have. -/
def inLanguage (labels : ItemLabels) (lang : List Char) (itemIndex : Int32) :
    Option (List Char) :=
  if lang = [] then none else labels.itemLabelText lang itemIndex

/-- `ValueLocalizationEntry::GetItemLabel`. -/
def getItemLabel (labels : ItemLabels) (lang : List Char) (itemIndex : Int32) : List Char :=
  (labels.inLanguage lang itemIndex).getD
    ((labels.defaultItemLabelText itemIndex).getD "undefined".toList)

end ItemLabels

/-- `Localization`: the language, and the entry of a value. -/
structure Localization where
  selectedLang : List Char
  entry : Option ItemLabels

namespace Localization

/-- `Localization::SetValueItemLabel`. -/
def setValueItemLabel (localization : Localization) (itemIndex : Int32)
    (label lang : List Char) : Localization :=
  { localization with
    entry := some ((localization.entry.getD .empty).addItemLabel label itemIndex lang) }

/-- `Localization::GetValueItemLabel`. -/
def getValueItemLabel (localization : Localization) (itemIndex : Int32) : List Char :=
  match localization.entry with
  | none => []
  | some labels => labels.getItemLabel localization.selectedLang itemIndex

end Localization

/-! ## The value -/

/-- `ValueList::Item`. -/
structure ListItem where
  label : List Char
  value : Int32
  deriving DecidableEq

/-- `ValueList`, with its index as the stored value. -/
structure ListValue where
  value : Value .list
  items : List ListItem
  size : UInt8
  readOnly : Bool

/-- The loop of the constructor: a label is the default text of its item, and is localized. -/
def localizeItems : Localization → List ListItem → Localization × List ListItem
  | localization, [] => (localization, [])
  | localization, item :: items =>
      let localization := localization.setValueItemLabel item.value item.label []
      let localized := localizeItems localization items
      (localized.1,
        { item with label := localization.getValueItemLabel item.value } :: localized.2)

namespace ListValue

/-- The constructor with items. -/
def construct (localization : Localization) (readOnly writeOnly : Bool) (items : List ListItem)
    (valueIdx : Int32) (size : UInt8) : ListValue where
  value :=
    { value := valueIdx.toInt
      valueCheck := (0 : ℤ)
      targetValue := (0 : ℤ)
      duration := 0
      isSet := false
      writeOnly := writeOnly
      verifyChanges := false
      checkChange := false
      targetValueSet := false
      notified := []
      timers := [] }
  items := (localizeItems localization items).2
  size := size
  readOnly := readOnly

/-- The constructor for a value that is read. -/
def fresh : ListValue where
  value := Value.created (0 : ℤ) (0 : ℤ) false
  items := []
  size := 0
  readOnly := false

/-- The index that is selected. -/
def valueIdx (v : ListValue) : ℤ := v.value.value

/-- `ValueList::GetItem`. -/
def getItem (v : ListValue) : Option ListItem :=
  if v.items.length < (v.valueIdx % 2 ^ 32).toNat then none
  else if v.valueIdx < 0 then none
  else v.items[v.valueIdx.toNat]?

/-- The values of the items, which `GetItemIdxByValue` goes through. -/
def values (v : ListValue) : List Int32 := v.items.map ListItem.value

/-- `ValueList::GetItemIdxByValue`. -/
def getItemIdxByValue (v : ListValue) (value : Int32) : ℤ :=
  ValueList.getItemIdxByValue v.values value

/-- `ValueList::GetItemIdxByLabel`. -/
def getItemIdxByLabel (v : ListValue) (label : List Char) : ℤ :=
  match v.items.findIdx? fun item => label == item.label with
  | some index => index
  | none => -1

/-- `ValueList::SetByValue`, which takes an index. -/
def setByValue (context : SetContext ListValue) (v : ListValue) (value : ℤ) :
    Bool × List ListValue :=
  context.submit v.readOnly { v with value := { v.value with value := value } }

/-- `ValueList::SetByLabel`. -/
def setByLabel (context : SetContext ListValue) (v : ListValue) (label : List Char) :
    Bool × List ListValue :=
  let index := v.getItemIdxByLabel label
  if index < 0 then (false, []) else v.setByValue context index

/-- `ValueList::SetTargetValue`. -/
def setTargetValue (v : ListValue) (target : Int32) (duration : UInt32) : ListValue :=
  { v with value := v.value.setTargetValue target.toInt duration }

/-- `ValueList::OnValueRefreshed`. -/
def onValueRefreshed (around : Surroundings) (v : ListValue) (value : Int32) : ListValue :=
  { v with value := ValueList.onValueRefreshed around v.values v.value value }

/-! ## Documents -/

/-- What the loop of `ReadXML` keeps. -/
structure ItemsRead where
  localization : Localization
  items : List ListItem
  shouldClearList : Bool

/-- The value is accepted for the size. -/
def Fits (size : UInt8) (value : Int32) : Prop :=
  ¬(size = 1 ∧ 255 < value.toInt ∨ size = 2 ∧ 65535 < value.toInt)

instance (size : UInt8) (value : Int32) : Decidable (Fits size value) :=
  inferInstanceAs (Decidable ¬_)

/-- The body of the loop of `ReadXML`. A string that is made of no label is undefined. -/
def readItem (size : UInt8) (read : ItemsRead) (itemElement : TiXmlElement) :
    Option ItemsRead :=
  if itemElement.value = "Item" then
    let items := if read.shouldClearList then [] else read.items
    match itemElement.queryIntAttribute "value" with
    | none => some ⟨read.localization, items, false⟩
    | some value =>
        if Fits size value then
          (itemElement.getAttribute "label").map fun label =>
            match itemElement.getAttribute "lang" with
            | some lang => ⟨read.localization.setValueItemLabel value label lang, items, false⟩
            | none =>
                ⟨read.localization.setValueItemLabel value label [], items ++ [⟨label, value⟩],
                  false⟩
        else some ⟨read.localization, items, false⟩
  else some read

/-- The size that is read, if it is one of those that are supported. -/
def readSize (size : UInt8) (valueElement : TiXmlElement) : UInt8 :=
  match valueElement.queryIntAttribute "size" with
  | none => size
  | some intSize =>
      if intSize = 1 ∨ intSize = 2 ∨ intSize = 4 then intSize.toUInt32.toUInt8 else size

/-- The index that is read: that of the value, or the one that is given. -/
def readValueIdx (values : List Int32) (valueElement : TiXmlElement) : ℤ :=
  let valueIdx :=
    match valueElement.queryIntAttribute "value" with
    | none => 0
    | some intVal =>
        if ValueList.getItemIdxByValue values intVal ≠ -1 then
          ValueList.getItemIdxByValue values intVal
        else 0
  match valueElement.queryIntAttribute "vindex" with
  | none => valueIdx
  | some intInd =>
      if 0 ≤ intInd.toInt ∧ intInd.toInt < values.length then intInd.toInt else valueIdx

/-- A flag of `Value::ReadXML`. -/
def readFlag (flag : Bool) (valueElement : TiXmlElement) (name : String) : Bool :=
  match valueElement.getAttribute name with
  | none => flag
  | some text => text == "true".toList

/-- `ValueList::ReadXML`. -/
def readXML (localization : Localization) (v : ListValue) (valueElement : TiXmlElement) :
    Option ListValue :=
  let size := readSize v.size valueElement
  (valueElement.childElements.foldlM (readItem size) ⟨localization, v.items, true⟩).map fun read =>
    { value :=
        { v.value with
          value := readValueIdx (read.items.map ListItem.value) valueElement
          writeOnly := readFlag v.value.writeOnly valueElement "write_only"
          verifyChanges := readFlag v.value.verifyChanges valueElement "verify_changes" }
      items :=
        read.items.map fun item =>
          { item with label := read.localization.getValueItemLabel item.value }
      size := size
      readOnly := readFlag v.readOnly valueElement "read_only" }

/-- An element of `WriteXML`. -/
def writeItem (item : ListItem) : TiXmlElement :=
  ((XmlElement.create "Item").setAttribute "label" item.label).setIntAttribute "value" item.value

def writeFlag (flag : Bool) : List Char := if flag then "true".toList else "false".toList

/-- The attributes of `WriteXML`, in a new element. -/
def writeAttributes (v : ListValue) : TiXmlElement :=
  let element := (XmlElement.create "Value").setAttribute "read_only" (writeFlag v.readOnly)
  let element := element.setAttribute "write_only" (writeFlag v.value.writeOnly)
  let element := element.setAttribute "verify_changes" (writeFlag v.value.verifyChanges)
  let element := element.setIntAttribute "vindex" (Int32.ofInt v.valueIdx)
  element.setAttribute "size" (printInt v.size.toNat)

/-- `ValueList::WriteXML`. -/
def writeXML (v : ListValue) : TiXmlElement :=
  { v.writeAttributes with children := v.items.map fun item => .element (writeItem item) }

/-! ## The selection -/

/-- The index is that of an item. -/
def InRange (v : ListValue) : Prop := 0 ≤ v.valueIdx ∧ v.valueIdx < v.items.length

/-- With items, one of them is selected. -/
def Valid (v : ListValue) : Prop := v.items ≠ [] → v.InRange ∧ v.getItem ≠ none

theorem getItem_of_inRange {v : ListValue} (h : v.InRange) :
    v.getItem = v.items[v.valueIdx.toNat]? := by
  obtain ⟨hlow, hhigh⟩ := h
  have hunsigned : ¬v.items.length < (v.valueIdx % 2 ^ 32).toNat := by omega
  have hsigned : ¬v.valueIdx < 0 := by omega
  rw [getItem, if_neg hunsigned, if_neg hsigned]

theorem valid_iff (v : ListValue) : v.Valid ↔ (v.items ≠ [] → v.InRange) := by
  constructor
  · intro h hitems
    exact (h hitems).1
  · intro h hitems
    have hrange := h hitems
    have hlt : v.valueIdx.toNat < v.items.length := by
      have hhigh := hrange.2
      have hlow := hrange.1
      omega
    refine ⟨hrange, ?_⟩
    rw [getItem_of_inRange hrange, List.getElem?_eq_getElem hlt]
    exact Option.some_ne_none _

theorem getElem?_values (v : ListValue) (i : ℕ) : v.values[i]? = v.items[i]?.map ListItem.value :=
  List.getElem?_map

/-- What is found for a value is the index of an item with it. -/
theorem exists_item_of_getItemIdxByValue {v : ListValue} {value : Int32} {i : ℕ}
    (h : v.getItemIdxByValue value = i) :
    i < v.items.length ∧ ∃ item, v.items[i]? = some item ∧ item.value = value := by
  have hvalue := (Configuration.getItemIdxByValue_eq_iff.mp h).1
  rw [getElem?_values, Option.map_eq_some_iff] at hvalue
  obtain ⟨item, hitem, hvalue⟩ := hvalue
  exact ⟨(List.getElem?_eq_some_iff.mp hitem).1, item, hitem, hvalue⟩

theorem getItemIdxByLabel_cases (v : ListValue) (label : List Char) :
    v.getItemIdxByLabel label = -1 ∨
      ∃ i : ℕ, v.getItemIdxByLabel label = i ∧ i < v.items.length := by
  rw [getItemIdxByLabel]
  cases hfind : v.items.findIdx? fun item => label == item.label with
  | none => exact .inl rfl
  | some i => exact .inr ⟨i, rfl, (List.findIdx?_eq_some_iff_getElem.mp hfind).1⟩

/-! ## Reports -/

/-- A report that selects an item, or leaves the value as it is. -/
structure Reported (around : Surroundings) (v : ListValue) (value : Int32) : Prop where
  selects : (v.onValueRefreshed around value).valueIdx = v.valueIdx ∨
    ∃ item, (v.onValueRefreshed around value).getItem = some item ∧ item.value = value
  unknown : value ∉ v.values → v.onValueRefreshed around value = v
  reaches : v.value.targetValueSet = true →
    ((v.onValueRefreshed around value).value.targetValueSet = false ↔
      value.toInt = v.value.targetValue)

/-- The index of the value is the target, and it is compared with it. -/
def IndexIsTarget (v : ListValue) (value : Int32) : Prop :=
  v.value.isSet = true ∧ value ∈ v.values ∧ v.getItemIdxByValue value = v.value.targetValue

theorem onValueRefreshed_of_neg {around : Surroundings} {v : ListValue} {value : Int32}
    (h : v.getItemIdxByValue value < 0) : v.onValueRefreshed around value = v := by
  rw [onValueRefreshed, ValueList.onValueRefreshed]
  exact congrArg (fun verified => { v with value := verified }) (if_pos h)

theorem onValueRefreshed_of_index (around : Surroundings) {v : ListValue} {value : Int32} {i : ℕ}
    (h : v.getItemIdxByValue value = i) :
    v.onValueRefreshed around value = { v with value := v.value.refresh around (i : ℤ) } := by
  have hindex : ValueList.getItemIdxByValue v.values value = i := h
  rw [onValueRefreshed, ValueList.onValueRefreshed, hindex]
  exact congrArg (fun verified => { v with value := verified })
    (if_neg (Int.not_lt.mpr (Int.natCast_nonneg i)))

/-- The target is reached by an index that is compared with it. -/
theorem targetValueSet_refresh (around : Surroundings) {v : Value .list}
    (htarget : v.targetValueSet = true) (index : ℤ) :
    (v.refresh around index).targetValueSet = false ↔
      v.isSet = true ∧ index = v.targetValue := by
  cases hset : v.isSet with
  | false =>
      have hsame : (v.refresh around index).targetValueSet = v.targetValueSet := by
        by_cases htold : v.Told around
        · rw [Value.refresh_told hset htold]
        · rw [Value.refresh_untold hset htold]
      rw [hsame, htarget]
      simp
  | true =>
      by_cases hawaits : v.Awaits index
      · have hne : index ≠ v.targetValue := by
          rintro rfl
          exact absurd hawaits.2 (by simp [ValueType.equal])
        rw [(Value.kept_refresh around hset hawaits).targetValueSet, htarget]
        simp [hne]
      · have hequal : v.targetValue = index := by
          have hreached : ValueType.equal .list v.targetValue index = true := by
            simpa [Value.Awaits, htarget] using hawaits
          exact eq_of_beq hreached
        have hdone := (Value.stored_refresh_target around hset htarget hawaits).noTarget
        exact iff_of_true hdone ⟨rfl, hequal.symm⟩

theorem mem_values_of_index {v : ListValue} {value : Int32} {i : ℕ}
    (h : v.getItemIdxByValue value = i) : value ∈ v.values :=
  List.mem_of_getElem? (Configuration.getItemIdxByValue_eq_iff.mp h).1

/-- A report of an item selects it, or leaves the selection. -/
theorem valueIdx_onValueRefreshed (around : Surroundings) {v : ListValue} {value : Int32} {i : ℕ}
    (h : v.getItemIdxByValue value = i) :
    (v.onValueRefreshed around value).valueIdx = i ∨
      (v.onValueRefreshed around value).valueIdx = v.valueIdx := by
  rw [onValueRefreshed_of_index around h]
  rcases @Value.value_refresh_cases _ v.value (i : ℤ) around (by decide) with
    ⟨-, hvalue⟩ | ⟨-, hvalue⟩
  · exact .inl hvalue
  · exact .inr hvalue

theorem items_onValueRefreshed (around : Surroundings) (v : ListValue) (value : Int32) :
    (v.onValueRefreshed around value).items = v.items := rfl

theorem reported_iff (around : Surroundings) (v : ListValue) (value : Int32) :
    v.Reported around value ↔
      (v.value.targetValueSet = true →
        (v.IndexIsTarget value ↔ value.toInt = v.value.targetValue)) := by
  rcases Configuration.getItemIdxByValue_cases v.values value with ⟨hneg, hunknown⟩ | ⟨i, hi⟩
  · have hsame : v.onValueRefreshed around value = v := onValueRefreshed_of_neg hneg
    have hindex : ¬v.IndexIsTarget value := fun h => hunknown h.2.1
    constructor
    · intro h htarget
      have hreaches := h.reaches htarget
      rw [hsame, htarget] at hreaches
      exact iff_of_false hindex fun heq => Bool.noConfusion (hreaches.mpr heq)
    · intro h
      refine ⟨.inl (congrArg valueIdx hsame), fun _ => hsame, fun htarget => ?_⟩
      rw [hsame, htarget]
      exact iff_of_false Bool.noConfusion ((h htarget).not.mp hindex)
  · have hmem : value ∈ v.values := mem_values_of_index hi
    obtain ⟨hlt, item, hitem, hvalue⟩ := exists_item_of_getItemIdxByValue hi
    have hselects : (v.onValueRefreshed around value).valueIdx = v.valueIdx ∨
        ∃ item, (v.onValueRefreshed around value).getItem = some item ∧ item.value = value := by
      rcases valueIdx_onValueRefreshed around hi with hindex | hsame
      · refine .inr ⟨item, ?_, hvalue⟩
        have hrange : (v.onValueRefreshed around value).InRange := by
          rw [InRange, hindex, items_onValueRefreshed]
          omega
        rw [getItem_of_inRange hrange, hindex]
        exact hitem
      · exact .inl hsame
    have htargets : v.value.targetValueSet = true →
        ((v.onValueRefreshed around value).value.targetValueSet = false ↔
          v.IndexIsTarget value) := by
      intro htarget
      rw [onValueRefreshed_of_index around hi, IndexIsTarget, and_iff_right hmem, getItemIdxByValue, hi]
      exact targetValueSet_refresh around htarget i
    constructor
    · intro h htarget
      exact (htargets htarget).symm.trans (h.reaches htarget)
    · intro h
      exact ⟨hselects, fun hunknown => absurd hmem hunknown,
        fun htarget => (htargets htarget).trans (h htarget)⟩

theorem valid_onValueRefreshed (around : Surroundings) {v : ListValue} (h : v.Valid)
    (value : Int32) : (v.onValueRefreshed around value).Valid := by
  rw [valid_iff] at h ⊢
  rcases Configuration.getItemIdxByValue_cases v.values value with ⟨hneg, -⟩ | ⟨i, hi⟩
  · rwa [@onValueRefreshed_of_neg around _ _ hneg]
  · obtain ⟨hlt, -⟩ := exists_item_of_getItemIdxByValue hi
    intro hitems
    rw [InRange, items_onValueRefreshed]
    rcases valueIdx_onValueRefreshed around hi with hindex | hsame
    · rw [hindex]
      omega
    · rw [hsame]
      exact h hitems

/-! ## Setting and reading -/

/-- The copy that is set has an item. -/
theorem valid_of_mem_setByLabel {context : SetContext ListValue} {v copy : ListValue}
    {label : List Char} (h : copy ∈ (v.setByLabel context label).2) : copy.Valid := by
  rw [setByLabel] at h
  rcases getItemIdxByLabel_cases v label with hnone | ⟨i, hi, hlt⟩
  · rw [hnone] at h
    cases h
  · rw [hi, if_neg (Int.not_lt.mpr (Int.natCast_nonneg i)), setByValue, SetContext.submit] at h
    split at h
    · cases h
    · split at h
      · obtain rfl := List.mem_singleton.mp h
        rw [valid_iff]
        intro _
        exact ⟨Int.natCast_nonneg i, Int.ofNat_lt.mpr hlt⟩
      · cases h

theorem valid_setTargetValue {v : ListValue} (h : v.Valid) (target : Int32) (duration : UInt32) :
    (v.setTargetValue target duration).Valid := h

theorem readValueIdx_of_ne_nil {values : List Int32} (h : values ≠ [])
    (valueElement : TiXmlElement) :
    0 ≤ readValueIdx values valueElement ∧ readValueIdx values valueElement < values.length := by
  have hpositive : 0 < values.length := List.length_pos_iff.mpr h
  have hfound : ∀ value, ValueList.getItemIdxByValue values value ≠ -1 →
      0 ≤ ValueList.getItemIdxByValue values value ∧
        ValueList.getItemIdxByValue values value < values.length := by
    intro value hne
    rw [ValueList.getItemIdxByValue] at hne ⊢
    cases hfind : values.findIdx? fun item => value == item with
    | none => simp [hfind] at hne
    | some i =>
        have hlt := (List.findIdx?_eq_some_iff_getElem.mp hfind).1
        exact ⟨Int.natCast_nonneg i, Int.ofNat_lt.mpr hlt⟩
  rw [readValueIdx]
  split
  · split
    · omega
    · split
      · exact hfound _ ‹_›
      · omega
  · split
    · assumption
    · split
      · omega
      · split
        · exact hfound _ ‹_›
        · omega

/-- What is read has a selection. -/
theorem valid_readXML {localization : Localization} {v v' : ListValue}
    {valueElement : TiXmlElement} (h : v.readXML localization valueElement = some v') :
    v'.Valid := by
  rw [readXML, Option.map_eq_some_iff] at h
  obtain ⟨read, -, rfl⟩ := h
  rw [valid_iff]
  intro hitems
  have hvalues : read.items.map ListItem.value ≠ [] := by
    intro hnil
    exact hitems (by simpa using hnil)
  have hrange := readValueIdx_of_ne_nil hvalues valueElement
  rw [List.length_map] at hrange
  rw [InRange, valueIdx, List.length_map]
  exact hrange

/-- Every item that is accepted has a label. -/
def Labelled (size : UInt8) (valueElement : TiXmlElement) : Prop :=
  ∀ itemElement ∈ valueElement.childElements, itemElement.value = "Item" →
    ∀ value, itemElement.queryIntAttribute "value" = some value → Fits size value →
      itemElement.getAttribute "label" ≠ none

theorem readItem_ne_none_iff (size : UInt8) (read : ItemsRead) (itemElement : TiXmlElement) :
    (∃ read', readItem size read itemElement = some read') ↔
      (itemElement.value = "Item" → ∀ value, itemElement.queryIntAttribute "value" = some value →
        Fits size value → itemElement.getAttribute "label" ≠ none) := by
  rw [readItem]
  by_cases hitem : itemElement.value = "Item"
  · rw [if_pos hitem]
    cases hvalue : itemElement.queryIntAttribute "value" with
    | none => simp
    | some value =>
        by_cases hfits : Fits size value
        · cases hlabel : itemElement.getAttribute "label" with
          | none => simp [hitem, hfits]
          | some label => simp [hfits]
        · simp [hfits]
  · rw [if_neg hitem]
    simp [hitem]

theorem foldlM_readItem_ne_none_iff (size : UInt8) (read : ItemsRead)
    (elements : List TiXmlElement) :
    (∃ read', elements.foldlM (readItem size) read = some read') ↔
      ∀ itemElement ∈ elements, itemElement.value = "Item" →
        ∀ value, itemElement.queryIntAttribute "value" = some value → Fits size value →
          itemElement.getAttribute "label" ≠ none := by
  induction elements generalizing read with
  | nil => simp
  | cons itemElement elements ih =>
      have hfirst := readItem_ne_none_iff size read itemElement
      rw [List.foldlM_cons, List.forall_mem_cons]
      cases hread : readItem size read itemElement with
      | none =>
          rw [hread] at hfirst
          refine iff_of_false (by simp) fun h => ?_
          obtain ⟨_, hsome⟩ := hfirst.mpr h.1
          cases hsome
      | some read' =>
          have hmeets := hfirst.mp ⟨read', hread⟩
          exact (ih read').trans (and_iff_right hmeets).symm

/-- A document is read when no label is missing. -/
theorem exists_readXML_iff (localization : Localization) (v : ListValue)
    (valueElement : TiXmlElement) :
    (∃ v', v.readXML localization valueElement = some v') ↔
      Labelled (readSize v.size valueElement) valueElement := by
  rw [Labelled, ← foldlM_readItem_ne_none_iff _ ⟨localization, v.items, true⟩, readXML]
  cases valueElement.childElements.foldlM (readItem (readSize v.size valueElement))
      ⟨localization, v.items, true⟩ with
  | none => simp
  | some read => simp

end ListValue

/-! ## Runs -/

/-- What happens to a list value. A document is read with the labels of that time. -/
inductive ListOp
  | readXML (localization : Localization) (valueElement : TiXmlElement)
  | setByLabel (context : SetContext ListValue) (label : List Char)
  | setTargetValue (target : Int32) (duration : UInt32)
  | onValueRefreshed (around : Surroundings) (value : Int32)

namespace ListValue

def step (v : Option ListValue) (op : ListOp) : Option ListValue :=
  v.bind fun v =>
    match op with
    | .readXML localization valueElement => v.readXML localization valueElement
    | .setByLabel _ _ => some v
    | .setTargetValue target duration => some (v.setTargetValue target duration)
    | .onValueRefreshed around value => some (v.onValueRefreshed around value)

/-- A label selects an item, and a report is handled as such. -/
def Treats (v : ListValue) : ListOp → Prop
  | .readXML _ _ => True
  | .setByLabel context label => ∀ copy ∈ (v.setByLabel context label).2, copy.Valid
  | .setTargetValue _ _ => True
  | .onValueRefreshed around value => v.Reported around value

/-- A step to a value with a selection. -/
def Keeps (state : Option ListValue) (op : ListOp) : Prop :=
  ∃ v v', state = some v ∧ step state op = some v' ∧ v'.Valid ∧ v.Treats op

/-- No label is missing from a document, and the index of a report is the target exactly if the
value is. -/
def Admits (v : ListValue) : ListOp → Prop
  | .readXML _ valueElement => Labelled (readSize v.size valueElement) valueElement
  | .setByLabel _ _ => True
  | .setTargetValue _ _ => True
  | .onValueRefreshed _ value =>
      v.value.targetValueSet = true →
        (v.IndexIsTarget value ↔ value.toInt = v.value.targetValue)

/-- A step that the value admits. -/
def Meets (state : Option ListValue) (op : ListOp) : Prop := ∃ v, state = some v ∧ v.Admits op

theorem keeps_iff_meets {v : ListValue} (h : v.Valid) (op : ListOp) :
    Keeps (some v) op ↔ Meets (some v) op := by
  have hkeeps : Keeps (some v) op ↔ (∃ v', step (some v) op = some v' ∧ v'.Valid) ∧ v.Treats op := by
    constructor
    · rintro ⟨v₁, v', hv, hstep, hvalid, htreats⟩
      obtain rfl := Option.some.inj hv
      exact ⟨⟨v', hstep, hvalid⟩, htreats⟩
    · rintro ⟨⟨v', hstep, hvalid⟩, htreats⟩
      exact ⟨v, v', rfl, hstep, hvalid, htreats⟩
  have hmeets : Meets (some v) op ↔ v.Admits op := by simp [Meets]
  rw [hkeeps, hmeets]
  cases op with
  | readXML localization valueElement =>
      rw [Admits, ← exists_readXML_iff localization]
      constructor
      · rintro ⟨⟨v', hread, -⟩, -⟩
        exact ⟨v', hread⟩
      · rintro ⟨v', hread⟩
        exact ⟨⟨v', hread, valid_readXML hread⟩, trivial⟩
  | setByLabel context label =>
      exact iff_of_true ⟨⟨v, rfl, h⟩, fun _ => valid_of_mem_setByLabel⟩ trivial
  | setTargetValue target duration =>
      exact iff_of_true ⟨⟨_, rfl, valid_setTargetValue h target duration⟩, trivial⟩ trivial
  | onValueRefreshed around value =>
      have hvalid : ∃ v', step (some v) (.onValueRefreshed around value) = some v' ∧ v'.Valid :=
        ⟨_, rfl, valid_onValueRefreshed around h value⟩
      exact (and_iff_right hvalid).trans (reported_iff around v value)

/-- The runs that keep a selection are those whose steps meet the condition. -/
theorem along_keeps_iff {v : ListValue} (h : v.Valid) (ops : List ListOp) :
    Along step Keeps (some v) ops ↔ Along step Meets (some v) ops := by
  refine along_congr (J := fun state => ∃ v : ListValue, state = some v ∧ v.Valid) ?_ ?_
    ⟨v, rfl, h⟩ ops
  · rintro _ op ⟨v, rfl, hvalid⟩
    exact keeps_iff_meets hvalid op
  · rintro _ op - ⟨v, v', -, hstep, hvalid, -⟩
    exact ⟨v', hstep, hvalid⟩

/-- The index that is given to the constructor is taken as it is. -/
theorem valid_construct_iff (localization : Localization) (readOnly writeOnly : Bool)
    (items : List ListItem) (valueIdx : Int32) (size : UInt8) :
    (construct localization readOnly writeOnly items valueIdx size).Valid ↔
      (items ≠ [] → 0 ≤ valueIdx.toInt ∧ valueIdx.toInt < items.length) := by
  have hlength : (localizeItems localization items).2.length = items.length := by
    induction items generalizing localization with
    | nil => rfl
    | cons item items ih => exact congrArg Nat.succ (ih _)
  have hnil : (localizeItems localization items).2 = [] ↔ items = [] := by
    rw [← List.length_eq_zero_iff, hlength, List.length_eq_zero_iff]
  rw [valid_iff, InRange]
  change ((localizeItems localization items).2 ≠ [] → 0 ≤ valueIdx.toInt ∧
    valueIdx.toInt < ((localizeItems localization items).2.length : ℤ)) ↔ _
  rw [hlength, ne_eq, hnil]

theorem valid_fresh : fresh.Valid := fun h => absurd rfl h

end ListValue

end OpenZWave

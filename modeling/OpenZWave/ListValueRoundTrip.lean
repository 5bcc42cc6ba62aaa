import OpenZWave.ListValue

/-!
# Lists that are written and read

A new value is made of what `WriteXML` wrote. The labels of its items are those that the
localization has for their values after the document has been read.
-/

namespace OpenZWave

open NumberText Transition

namespace Localization

/-! ## Labels that are read -/

/-- The label in the language that is selected. -/
def inSelectedLang (localization : Localization) (itemIndex : Int32) : Option (List Char) :=
  (localization.entry.getD .empty).inLanguage localization.selectedLang itemIndex

/-- The default label. -/
def defaultText (localization : Localization) (itemIndex : Int32) : Option (List Char) :=
  (localization.entry.getD .empty).defaultItemLabelText itemIndex

/-- What an item that was written makes of the labels. -/
def store (localization : Localization) (item : ListItem) : Localization :=
  localization.setValueItemLabel item.value (cStr item.label) []

theorem inSelectedLang_store (localization : Localization) (item : ListItem) :
    (localization.store item).inSelectedLang = localization.inSelectedLang := rfl

theorem defaultText_store (localization : Localization) (item : ListItem) (itemIndex : Int32) :
    (localization.store item).defaultText itemIndex =
      if itemIndex = item.value then some (cStr item.label)
      else localization.defaultText itemIndex :=
  Function.update_apply _ _ _ _

/-- The label of the last item with a value. -/
def lastLabel (items : List ListItem) (itemIndex : Int32) : Option (List Char) :=
  (items.reverse.find? fun item => itemIndex = item.value).map fun item => cStr item.label

theorem lastLabel_cons (item : ListItem) (items : List ListItem) (itemIndex : Int32) :
    lastLabel (item :: items) itemIndex =
      (lastLabel items itemIndex).or
        (if itemIndex = item.value then some (cStr item.label) else none) := by
  rw [lastLabel, lastLabel, List.reverse_cons, List.find?_append, Option.map_or]
  by_cases h : itemIndex = item.value <;> simp [h]

theorem lastLabel_ne_none {items : List ListItem} {item : ListItem} (h : item ∈ items) :
    lastLabel items item.value ≠ none := by
  rw [lastLabel, ne_eq, Option.map_eq_none_iff, List.find?_eq_none]
  intro hnone
  exact hnone item (List.mem_reverse.mpr h) (by simp)

theorem inSelectedLang_foldl_store (localization : Localization) (items : List ListItem) :
    (items.foldl store localization).inSelectedLang = localization.inSelectedLang := by
  induction items generalizing localization with
  | nil => rfl
  | cons item items ih => exact (ih (localization.store item)).trans (inSelectedLang_store _ item)

theorem defaultText_foldl_store (localization : Localization) (items : List ListItem)
    (itemIndex : Int32) :
    (items.foldl store localization).defaultText itemIndex =
      (lastLabel items itemIndex).or (localization.defaultText itemIndex) := by
  induction items generalizing localization with
  | nil => rfl
  | cons item items ih =>
      rw [List.foldl_cons, ih, defaultText_store, lastLabel_cons, Option.or_assoc]
      congr 1
      split <;> rfl

theorem entry_foldl_store {localization : Localization} {items : List ListItem}
    (h : localization.entry ≠ none ∨ items ≠ []) :
    (items.foldl store localization).entry ≠ none := by
  induction items generalizing localization with
  | nil => exact h.resolve_right fun hnil => hnil rfl
  | cons item items ih => exact ih (.inl (Option.some_ne_none _))

theorem getValueItemLabel_of_entry {localization : Localization} (h : localization.entry ≠ none)
    (itemIndex : Int32) :
    localization.getValueItemLabel itemIndex =
      (localization.inSelectedLang itemIndex).getD
        ((localization.defaultText itemIndex).getD "undefined".toList) := by
  obtain ⟨labels, hlabels⟩ := Option.ne_none_iff_exists'.mp h
  rw [getValueItemLabel, inSelectedLang, defaultText, hlabels]
  rfl

/-- The label that an item has after its document was read. -/
def labelRead (localization : Localization) (items : List ListItem) (itemIndex : Int32) :
    List Char :=
  (localization.inSelectedLang itemIndex).getD ((lastLabel items itemIndex).getD [])

theorem getValueItemLabel_foldl_store (localization : Localization) {items : List ListItem}
    {item : ListItem} (h : item ∈ items) :
    (items.foldl store localization).getValueItemLabel item.value =
      localization.labelRead items item.value := by
  obtain ⟨label, hlabel⟩ := Option.ne_none_iff_exists'.mp (lastLabel_ne_none h)
  rw [getValueItemLabel_of_entry (entry_foldl_store (.inr (List.ne_nil_of_mem h))), labelRead,
    inSelectedLang_foldl_store, defaultText_foldl_store, hlabel]
  rfl

end Localization

namespace ListValue

/-! ## What is written -/

@[simp] theorem value_writeItem (item : ListItem) : (writeItem item).value = "Item" := rfl

theorem getAttribute_label_writeItem (item : ListItem) :
    (writeItem item).getAttribute "label" = some (cStr item.label) := by
  rw [writeItem, XmlElement.setIntAttribute, XmlElement.getAttribute_setAttribute,
    if_neg (by decide), XmlElement.getAttribute_setAttribute, if_pos rfl]

theorem getAttribute_lang_writeItem (item : ListItem) :
    (writeItem item).getAttribute "lang" = none := by
  rw [writeItem, XmlElement.setIntAttribute, XmlElement.getAttribute_setAttribute,
    if_neg (by decide), XmlElement.getAttribute_setAttribute, if_neg (by decide)]
  rfl

theorem queryIntAttribute_value_writeItem (item : ListItem) :
    (writeItem item).queryIntAttribute "value" = some item.value :=
  XmlElement.queryIntAttribute_setIntAttribute _ "value" item.value

theorem getAttribute_writeXML (v : ListValue) (name : String) :
    v.writeXML.getAttribute name = v.writeAttributes.getAttribute name := rfl

theorem queryIntAttribute_writeXML (v : ListValue) (name : String) :
    v.writeXML.queryIntAttribute name = v.writeAttributes.queryIntAttribute name := rfl

theorem queryIntAttribute_value_writeXML (v : ListValue) :
    v.writeXML.queryIntAttribute "value" = none := by
  apply XmlElement.queryIntAttribute_eq_none
  simp [getAttribute_writeXML, writeAttributes, XmlElement.setIntAttribute,
    XmlElement.getAttribute_setAttribute]

theorem queryIntAttribute_size_writeXML (v : ListValue) :
    v.writeXML.queryIntAttribute "size" = some (Int32.ofInt v.size.toNat) := by
  have hsize := v.size.toNat_lt
  apply XmlElement.queryIntAttribute_printInt (by omega) (by omega)
  rw [getAttribute_writeXML, writeAttributes, XmlElement.getAttribute_setAttribute, if_pos rfl]

theorem queryIntAttribute_vindex_writeXML (v : ListValue) :
    v.writeXML.queryIntAttribute "vindex" = some (Int32.ofInt v.valueIdx) := by
  rw [queryIntAttribute_writeXML, writeAttributes, XmlElement.queryIntAttribute,
    XmlElement.getAttribute_setAttribute, if_neg (by decide)]
  exact XmlElement.queryIntAttribute_setIntAttribute _ "vindex" _

/-- The size that is read of a value without one. -/
theorem readSize_writeXML (v : ListValue) :
    readSize 0 v.writeXML = if v.size = 1 ∨ v.size = 2 ∨ v.size = 4 then v.size else 0 := by
  rw [readSize, queryIntAttribute_size_writeXML]
  have hsize := v.size.toNat_lt
  have hread : ∀ size : UInt8, Int32.ofInt v.size.toNat = Int32.ofInt size.toNat ↔ v.size = size := by
    intro size
    have hlt := size.toNat_lt
    rw [← Int32.toInt_inj, Int32.toInt_ofInt_of_le (by omega) (by omega),
      Int32.toInt_ofInt_of_le (by omega) (by omega), Int.natCast_inj, UInt8.toNat_inj]
  have hone : Int32.ofInt v.size.toNat = 1 ↔ v.size = 1 := hread 1
  have htwo : Int32.ofInt v.size.toNat = 2 ↔ v.size = 2 := hread 2
  have hfour : Int32.ofInt v.size.toNat = 4 ↔ v.size = 4 := hread 4
  simp only [hone, htwo, hfour]
  by_cases h : v.size = 1 ∨ v.size = 2 ∨ v.size = 4
  · rw [if_pos h, if_pos h]
    rcases h with h | h | h <;> rw [h] <;> rfl
  · rw [if_neg h, if_neg h]

/-- The index that is read. -/
theorem readValueIdx_writeXML (v : ListValue) (values : List Int32) :
    readValueIdx values v.writeXML =
      if 0 ≤ (Int32.ofInt v.valueIdx).toInt ∧ (Int32.ofInt v.valueIdx).toInt < values.length then
        (Int32.ofInt v.valueIdx).toInt
      else 0 := by
  rw [readValueIdx, queryIntAttribute_vindex_writeXML, queryIntAttribute_value_writeXML]

/-! ## What is read -/

/-- The items that are accepted for a size. -/
def kept (size : UInt8) (items : List ListItem) : List ListItem :=
  items.filter fun item => Fits size item.value

/-- An item as it is read, before its label is localized. -/
def itemRead (item : ListItem) : ListItem := { item with label := cStr item.label }

theorem readItem_writeItem (size : UInt8) (read : ItemsRead) (item : ListItem) :
    readItem size read (writeItem item) =
      let items := if read.shouldClearList then [] else read.items
      if Fits size item.value then
        some ⟨read.localization.store item, items ++ [itemRead item], false⟩
      else some ⟨read.localization, items, false⟩ := by
  rw [readItem, if_pos (value_writeItem item), queryIntAttribute_value_writeItem,
    getAttribute_label_writeItem, getAttribute_lang_writeItem]
  rfl

theorem foldlM_readItem_writeItem (size : UInt8) (localization : Localization)
    (items acc : List ListItem) :
    (items.map writeItem).foldlM (readItem size) ⟨localization, acc, false⟩ =
      some ⟨(kept size items).foldl .store localization,
        acc ++ (kept size items).map itemRead, false⟩ := by
  induction items generalizing localization acc with
  | nil => simp [kept]
  | cons item items ih =>
      rw [List.map_cons, List.foldlM_cons, readItem_writeItem]
      by_cases hfits : Fits size item.value
      · have hkept : kept size (item :: items) = item :: kept size items :=
          List.filter_cons_of_pos (by simpa using hfits)
        simp [hfits, ih, hkept]
      · have hkept : kept size (item :: items) = kept size items :=
          List.filter_cons_of_neg (by simpa using hfits)
        simp [hfits, ih, hkept]

/-- Into a value without items, nothing is there to be cleared. -/
theorem foldlM_readItem_fresh (size : UInt8) (localization : Localization)
    (items : List ListItem) :
    ∃ shouldClearList, (items.map writeItem).foldlM (readItem size)
        ⟨localization, fresh.items, true⟩ =
      some ⟨(kept size items).foldl .store localization, (kept size items).map itemRead,
        shouldClearList⟩ := by
  cases items with
  | nil => exact ⟨true, rfl⟩
  | cons item items =>
      refine ⟨false, ?_⟩
      have hclear : readItem size ⟨localization, fresh.items, true⟩ (writeItem item) =
          readItem size ⟨localization, [], false⟩ (writeItem item) := by
        rw [readItem_writeItem, readItem_writeItem]
        rfl
      rw [List.map_cons, List.foldlM_cons, hclear, ← List.foldlM_cons, ← List.map_cons]
      exact foldlM_readItem_writeItem size localization (item :: items) []

theorem childElements_writeXML (v : ListValue) : v.writeXML.childElements = v.items.map writeItem :=
  XmlElement.childElements_map _ _ _ rfl

/-- What is made of the items. -/
def itemsRestored (localization : Localization) (size : UInt8) (items : List ListItem) :
    List ListItem :=
  (kept size items).map fun item =>
    { item with label := localization.labelRead (kept size items) item.value }

theorem readXML_writeXML (localization : Localization) (v : ListValue) :
    ∃ v', fresh.readXML localization v.writeXML = some v' ∧
      v'.size = readSize 0 v.writeXML ∧
      v'.items = itemsRestored localization (readSize 0 v.writeXML) v.items ∧
      v'.valueIdx =
        readValueIdx ((kept (readSize 0 v.writeXML) v.items).map ListItem.value) v.writeXML := by
  have hfresh : readSize fresh.size v.writeXML = readSize 0 v.writeXML := rfl
  obtain ⟨shouldClearList, hread⟩ :=
    foldlM_readItem_fresh (readSize 0 v.writeXML) localization v.items
  rw [readXML, childElements_writeXML, hfresh]
  rw [hread]
  refine ⟨_, rfl, rfl, ?_, ?_⟩
  · dsimp only
    rw [List.map_map, itemsRestored]
    refine List.map_congr_left fun item hmem => ?_
    have hlabel := Localization.getValueItemLabel_foldl_store localization hmem
    exact congrArg (fun label => (⟨label, item.value⟩ : ListItem)) hlabel
  · change readValueIdx (((kept _ v.items).map itemRead).map ListItem.value) v.writeXML = _
    rw [List.map_map]
    rfl

/-! ## The round trip -/

/-- A new value reads the items, the size and the index of the value that was written. -/
def RoundTrips (localization : Localization) (v : ListValue) : Prop :=
  ∃ v', fresh.readXML localization v.writeXML = some v' ∧
    v'.items = v.items ∧ v'.size = v.size ∧ v'.valueIdx = v.valueIdx

/-- The size is one of those that are read or that of a new value, and every item fits in it; the
localization has the label of every item; and the index is that of an item or of a new value. -/
structure Restorable (localization : Localization) (v : ListValue) : Prop where
  size : v.size = 0 ∨ v.size = 1 ∨ v.size = 2 ∨ v.size = 4
  fits : ∀ item ∈ v.items, Fits v.size item.value
  labels : ∀ item ∈ v.items, localization.labelRead v.items item.value = item.label
  valueIdx : v.valueIdx = 0 ∨ v.InRange ∧ v.valueIdx < 2 ^ 31

theorem kept_eq_iff (size : UInt8) (items : List ListItem) :
    kept size items = items ↔ ∀ item ∈ items, Fits size item.value := by
  rw [kept, List.filter_eq_self]
  simp

theorem itemsRestored_eq_iff (localization : Localization) (size : UInt8)
    (items : List ListItem) :
    itemsRestored localization size items = items ↔
      (∀ item ∈ items, Fits size item.value) ∧
        ∀ item ∈ items, localization.labelRead items item.value = item.label := by
  have hlabels : ∀ items : List ListItem,
      (items.map fun item => { item with label := localization.labelRead items item.value }) = items ↔
        ∀ item ∈ items, localization.labelRead items item.value = item.label := by
    intro items
    nth_rewrite 3 [← List.map_id items]
    rw [List.map_inj_left]
    refine forall₂_congr fun item _ => ?_
    cases item
    simp
  rw [← kept_eq_iff]
  constructor
  · intro h
    have hkept : kept size items = items := by
      apply List.filter_eq_self.mpr
      apply List.length_filter_eq_length_iff.mp
      exact (List.length_map _).symm.trans (congrArg List.length h)
    rw [itemsRestored, hkept] at h
    exact ⟨hkept, (hlabels items).mp h⟩
  · rintro ⟨hkept, hlabel⟩
    rw [itemsRestored, hkept]
    exact (hlabels items).mpr hlabel

theorem valueIdx_restored_iff (v : ListValue) (values : List Int32)
    (hlength : values.length = v.items.length) :
    readValueIdx values v.writeXML = v.valueIdx ↔
      v.valueIdx = 0 ∨ v.InRange ∧ v.valueIdx < 2 ^ 31 := by
  have hlow := (Int32.ofInt v.valueIdx).le_toInt
  have hhigh := (Int32.ofInt v.valueIdx).toInt_lt
  have hsame : -2 ^ 31 ≤ v.valueIdx → v.valueIdx < 2 ^ 31 →
      (Int32.ofInt v.valueIdx).toInt = v.valueIdx := Int32.toInt_ofInt_of_le
  rw [readValueIdx_writeXML, InRange, hlength]
  split <;> omega

theorem roundTrips_iff_restorable (localization : Localization) (v : ListValue) :
    v.RoundTrips localization ↔ v.Restorable localization := by
  obtain ⟨v', hread, hsize, hitems, hindex⟩ := readXML_writeXML localization v
  have htrips : v.RoundTrips localization ↔
      v'.items = v.items ∧ v'.size = v.size ∧ v'.valueIdx = v.valueIdx := by
    rw [RoundTrips, hread]
    simp
  have hsizes : readSize 0 v.writeXML = v.size ↔
      v.size = 0 ∨ v.size = 1 ∨ v.size = 2 ∨ v.size = 4 := by
    rw [readSize_writeXML]
    by_cases hsupported : v.size = 1 ∨ v.size = 2 ∨ v.size = 4
    · rw [if_pos hsupported]
      exact iff_of_true rfl (.inr hsupported)
    · rw [if_neg hsupported, or_iff_left hsupported, eq_comm]
  rw [htrips, hsize, hitems, hindex]
  constructor
  · rintro ⟨hitems, hsize, hindex⟩
    rw [hsize] at hitems hindex
    obtain ⟨hfits, hlabels⟩ := (itemsRestored_eq_iff localization v.size v.items).mp hitems
    rw [(kept_eq_iff v.size v.items).mpr hfits] at hindex
    exact ⟨hsizes.mp hsize, hfits, hlabels,
      (valueIdx_restored_iff v _ (List.length_map _)).mp hindex⟩
  · rintro ⟨hsize, hfits, hlabels, hindex⟩
    rw [hsizes.mpr hsize, (kept_eq_iff v.size v.items).mpr hfits]
    exact ⟨(itemsRestored_eq_iff localization v.size v.items).mpr ⟨hfits, hlabels⟩, rfl,
      (valueIdx_restored_iff v _ (List.length_map _)).mpr hindex⟩

end ListValue

/-! ## Lists as a whole -/

/-- A list has a selection when it is made with one, and keeps it in the runs whose documents
have all labels and whose reports have the index of the target exactly if they have its value.
What is written is read again when it is restorable. -/
theorem list_selection_iff (localization : Localization) (readOnly writeOnly : Bool)
    (items : List ListItem) (valueIdx : Int32) (size : UInt8) (v : ListValue)
    (ops : List ListOp) :
    ((ListValue.construct localization readOnly writeOnly items valueIdx size).Valid ↔
        (items ≠ [] → 0 ≤ valueIdx.toInt ∧ valueIdx.toInt < items.length)) ∧
      ListValue.fresh.Valid ∧
      (v.Valid →
        (Along ListValue.step ListValue.Keeps (some v) ops ↔
          Along ListValue.step ListValue.Meets (some v) ops)) ∧
      (v.RoundTrips localization ↔ v.Restorable localization) :=
  ⟨ListValue.valid_construct_iff localization readOnly writeOnly items valueIdx size,
    ListValue.valid_fresh, fun h => ListValue.along_keeps_iff h ops,
    ListValue.roundTrips_iff_restorable localization v⟩

/-- The list of a fan with the mode 6 alone, which `ThermostatFanMode` makes with the mode as the
index, and a list that waits for the value 7 of its second item. -/
def ListValue.fanMode : ListValue :=
  .construct ⟨[], none⟩ false false [⟨"Circulation".toList, 6⟩] 6 1

def ListValue.waiting : ListValue where
  value := { Value.created (0 : ℤ) (0 : ℤ) false with
    isSet := true, targetValueSet := true, targetValue := (7 : ℤ) }
  items := [⟨"Low".toList, 5⟩, ⟨"High".toList, 7⟩]
  size := 3
  readOnly := false

/-- No item is selected; the report of the target does not reach it; and the size 3 is not
read. -/
theorem index_taken_for_value :
    ListValue.fanMode.getItem = none ∧
      (ListValue.waiting.onValueRefreshed ⟨true, false⟩ 7).value.targetValueSet = true ∧
      ListValue.readSize 0 ListValue.waiting.writeXML = 0 :=
  ⟨by decide, by decide, by decide⟩

end OpenZWave

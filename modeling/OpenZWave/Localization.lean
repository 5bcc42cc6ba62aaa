import OpenZWave.Lib.BitField
import OpenZWave.Lib.FirstWins
import OpenZWave.Lib.Transition
import OpenZWave.ListValue
import OpenZWave.TinyXml

/-!
# Localised texts

Labels, helps and labels of items are read from the localisation file and from the files of
devices. `Localization` keeps those of one value in one entry, under a key that is packed from
the node, the command class, the index and the position of the value.
-/

namespace OpenZWave

open BitField FirstWins NumberText Transition

/-- What the key of a value is made from. -/
@[ext] structure LocalizedValue where
  node : UInt8
  commandClass : UInt8
  index : UInt16
  pos : UInt32

namespace LocalizedValue

/-- The identifiers of the classes with values of their own for each node. -/
def configuration : UInt8 := 0x70
def thermostatSetpoint : UInt8 := 0x43
def meter : UInt8 := 0x32
def centralScene : UInt8 := 0x5B
def soundSwitch : UInt8 := 0x79

variable (v : LocalizedValue)

/-- The key with the node and the one without it. -/
def nodeKey : UInt64 :=
  v.node.toUInt64 <<< 56 ||| v.commandClass.toUInt64 <<< 48 ||| v.index.toUInt64 <<< 32 |||
    v.pos.toUInt64

def sharedKey : UInt64 :=
  v.commandClass.toUInt64 <<< 48 ||| v.index.toUInt64 <<< 32 ||| v.pos.toUInt64

/-- `GetValueKey`. -/
def getValueKey (unique : Bool) : UInt64 :=
  if unique then v.nodeKey
  else if v.commandClass = configuration then v.nodeKey
  else if v.commandClass = thermostatSetpoint ∧ v.index ≥ 100 then v.nodeKey
  else if v.commandClass = meter then v.nodeKey
  else if v.commandClass = centralScene ∧ v.index < 256 then v.nodeKey
  else v.sharedKey

/-- The values for whose items `GetValueItemLabel` takes a key with the node. -/
def hasOwnItems : Bool :=
  v.commandClass = soundSwitch ∧ (v.index = 1 ∨ v.index = 3) ∨
    v.commandClass = centralScene ∧ v.index < 256

/-- The values of the classes that are kept for each node. -/
def PerNode : Prop :=
  v.commandClass = configuration ∨ v.commandClass = thermostatSetpoint ∧ v.index ≥ 100 ∨
    v.commandClass = meter ∨ v.commandClass = centralScene ∧ v.index < 256

instance : Decidable v.PerNode := by
  unfold PerNode
  infer_instance

end LocalizedValue

/-- The texts of a value itself. -/
inductive LocalizedText
  | label
  | help
  deriving DecidableEq

/-- `ValueLocalizationEntry`: `m_LabelText` and `m_HelpText`, their defaults, and the labels of
items. -/
structure ValueLocalizationEntry extends ItemLabels where
  text : LocalizedText → List Char → Option (List Char)
  defaultText : LocalizedText → List Char

namespace ValueLocalizationEntry

/-- The constructor. -/
def new : ValueLocalizationEntry where
  toItemLabels := .empty
  text := fun _ _ => none
  defaultText := fun _ => []

variable (entry : ValueLocalizationEntry)

def hasText (kind : LocalizedText) (lang : List Char) : Bool := (entry.text kind lang).isSome

def addText (kind : LocalizedText) (text lang : List Char) : ValueLocalizationEntry :=
  if lang = [] then { entry with defaultText := Function.update entry.defaultText kind text }
  else
    { entry with
      text := Function.update entry.text kind
        (Function.update (entry.text kind) lang (some text)) }

def getText (kind : LocalizedText) (lang : List Char) : List Char :=
  if lang = [] then entry.defaultText kind
  else (entry.text kind lang).getD (entry.defaultText kind)

/-- `HasItemLabel`. -/
def hasItemLabel (itemIndex : Int32) (lang : List Char) : Bool :=
  (entry.inLanguage lang itemIndex).isSome

/-- `AddItemLabel`. -/
def addItemLabel (label : List Char) (itemIndex : Int32) (lang : List Char) :
    ValueLocalizationEntry :=
  { entry with toItemLabels := entry.toItemLabels.addItemLabel label itemIndex lang }

end ValueLocalizationEntry

/-- `m_valueLocalizationMap`. -/
abbrev LocalizationMap : Type := UInt64 → Option ValueLocalizationEntry

/-- The language of an element. -/
def XmlElement.language (element : TiXmlElement) : List Char :=
  (element.getAttribute "lang").getD []

namespace LocalizationMap

variable (s : LocalizationMap)

/-- The readers of the texts of a value: one kind is looked for, and one added. -/
def readText (checked added : LocalizedText) (v : LocalizedValue) (element : TiXmlElement) :
    LocalizationMap :=
  match element.getText with
  | none => s
  | some text =>
      let key := v.getValueKey false
      match s key with
      | none =>
          Function.update s key
            (some (ValueLocalizationEntry.new.addText added text element.language))
      | some entry =>
          if entry.hasText checked element.language then s
          else Function.update s key (some (entry.addText added text element.language))

/-- `ReadXMLVIDLabel`. -/
def readXMLVIDLabel (v : LocalizedValue) (element : TiXmlElement) : LocalizationMap :=
  s.readText .label .label v element

/-- `ReadXMLVIDHelp`, which looks for a label. -/
def readXMLVIDHelp (v : LocalizedValue) (element : TiXmlElement) : LocalizationMap :=
  s.readText .label .help v element

/-- `ReadXMLVIDItemLabel`. -/
def readXMLVIDItemLabel (v : LocalizedValue) (element : TiXmlElement) : LocalizationMap :=
  match element.getText, element.queryIntAttribute "itemIndex" with
  | some text, some itemIndex =>
      let key := v.getValueKey false
      match s key with
      | none => s
      | some entry =>
          if entry.hasItemLabel itemIndex element.language then s
          else Function.update s key (some (entry.addItemLabel text itemIndex element.language))
  | _, _ => s

/-- `GetValueLabel` and `GetValueHelp`, with the selected language. -/
def getValueText (kind : LocalizedText) (lang : List Char) (v : LocalizedValue) : List Char :=
  match s (v.getValueKey false) with
  | none => []
  | some entry => entry.getText kind lang

/-- `GetValueLabel`. -/
def getValueLabel (lang : List Char) (v : LocalizedValue) : List Char :=
  s.getValueText .label lang v

/-- `GetValueHelp`. -/
def getValueHelp (lang : List Char) (v : LocalizedValue) : List Char :=
  s.getValueText .help lang v

/-- `GetValueItemLabel`. -/
def getValueItemLabel (lang : List Char) (v : LocalizedValue) (itemIndex : Int32) : List Char :=
  match s (v.getValueKey v.hasOwnItems) with
  | none => []
  | some entry => entry.getItemLabel lang itemIndex

/-! ## Documents -/

/-- The body of the loop of `ReadXMLValue`. -/
def readElement (v : LocalizedValue) (element : TiXmlElement) : LocalizationMap :=
  if element.value = "Label" then s.readXMLVIDLabel v element
  else if element.value = "Help" then s.readXMLVIDHelp v element
  else if element.value = "ItemLabel" then s.readXMLVIDItemLabel v element
  else s

/-- The value that an element with an index is about. -/
def valueOf (node ccID : UInt8) (valueElement : TiXmlElement) : Option LocalizedValue :=
  (valueElement.getAttribute "index").map fun index =>
    { node := node
      commandClass := ccID
      index := UInt16.ofInt (strtol 10 index).1
      pos := ((valueElement.getAttribute "pos").map fun pos => UInt32.ofInt (strtol 10 pos).1).getD
        0xFFFFFFFF }

/-- `ReadXMLValue`. -/
def readXMLValue (node ccID : UInt8) (valueElement : TiXmlElement) : LocalizationMap :=
  match valueOf node ccID valueElement with
  | none => s
  | some v => valueElement.childElements.foldl (fun s element => s.readElement v element) s

/-- The body of the loop of `ReadXML`, for the values. -/
def readCommandClass (ccElement : TiXmlElement) : LocalizationMap :=
  if ccElement.value = "CommandClass" then
    match ccElement.getAttribute "id" with
    | none => s
    | some id =>
        let ccID := UInt8.ofInt (strtol 10 id).1
        ccElement.childElements.foldl
          (fun s element => if element.value = "Value" then s.readXMLValue 0 ccID element else s) s
  else s

/-- `ReadXML`, of a document with a root or of none. -/
def readXML (root : Option TiXmlElement) : LocalizationMap × Bool :=
  match root with
  | none => (s, false)
  | some root =>
      if root.value = "Localization" ∧ root.getAttribute "Revision" = none then (s, false)
      else (root.childElements.foldl readCommandClass s, true)

end LocalizationMap

/-! ## What is expected of a sequence of elements -/

/-- An element that is read for a value. -/
inductive LocalizedElement
  | text (kind : LocalizedText) (v : LocalizedValue) (element : TiXmlElement)
  | itemLabel (v : LocalizedValue) (element : TiXmlElement)

/-- What a text is for. -/
inductive LocalizedSlot
  | text (kind : LocalizedText) (key : UInt64) (lang : List Char)
  | itemLabel (key : UInt64) (lang : List Char) (itemIndex : Int32)
  deriving DecidableEq

/-- A text with a language: its place keeps the first one. -/
def LocalizedSlot.Named : LocalizedSlot → Prop
  | .text _ _ lang => lang ≠ []
  | .itemLabel _ lang _ => lang ≠ []

instance : DecidablePred LocalizedSlot.Named
  | .text _ _ lang => inferInstanceAs (Decidable (lang ≠ []))
  | .itemLabel _ lang _ => inferInstanceAs (Decidable (lang ≠ []))

/-- What an element has to say, if nothing is missing from it. -/
def LocalizedElement.target : LocalizedElement → Option (LocalizedSlot × List Char)
  | .text kind v element => element.getText.map fun text =>
      (.text kind (v.getValueKey false) element.language, text)
  | .itemLabel v element => element.getText.bind fun text =>
      (element.queryIntAttribute "itemIndex").map fun itemIndex =>
        (.itemLabel (v.getValueKey false) element.language itemIndex, text)

/-- The texts of some elements for a slot. -/
def textsRead (elements : List LocalizedElement) (slot : LocalizedSlot) : List (List Char) :=
  valuesOf (elements.filterMap LocalizedElement.target) slot

namespace LocalizationMap

def empty : LocalizationMap := fun _ => none

def step (s : LocalizationMap) : LocalizedElement → LocalizationMap
  | .text .label v element => s.readXMLVIDLabel v element
  | .text .help v element => s.readXMLVIDHelp v element
  | .itemLabel v element => s.readXMLVIDItemLabel v element

/-- What an entry, if there is one, has for a language. There always is a default text. -/
def storedText (entry : Option ValueLocalizationEntry) (kind : LocalizedText) (lang : List Char) :
    Option (List Char) :=
  if lang = [] then some (entry.elim [] fun entry => entry.defaultText kind)
  else entry.bind fun entry => entry.text kind lang

def storedItemLabel (entry : Option ValueLocalizationEntry) (lang : List Char)
    (itemIndex : Int32) : Option (List Char) :=
  entry.bind fun entry =>
    if lang = [] then entry.defaultItemLabelText itemIndex else entry.itemLabelText lang itemIndex

/-- What is stored in a slot. -/
def stored (s : LocalizationMap) : LocalizedSlot → Option (List Char)
  | .text kind key lang => storedText (s key) kind lang
  | .itemLabel key lang itemIndex => storedItemLabel (s key) lang itemIndex

/-- The first text with the language, or else the default. -/
def firstOrDefault (elements : List LocalizedElement) (slot default : LocalizedSlot) :
    Option (List Char) :=
  (textsRead elements slot).head?.or (textsRead elements default).getLast?

/-- What stands in a slot before anything is read. -/
def initial : LocalizedSlot → Option (List Char)
  | .text _ _ _ => some []
  | .itemLabel _ _ _ => none

/-- After some elements labels, helps and labels of items are independent stores: every slot of
a language has the first text that was read for it and every other the default, which is the
last one, and every query returns the first text of its kind, key and language, or else the
default. -/
structure Independent (elements : List LocalizedElement) (s : LocalizationMap) : Prop where
  first : ∀ slot : LocalizedSlot, slot.Named → s.stored slot = (textsRead elements slot).head?
  default : ∀ slot : LocalizedSlot, ¬ slot.Named →
    s.stored slot = (textsRead elements slot).getLast?.or (initial slot)
  text : ∀ kind lang (v : LocalizedValue), lang ≠ [] → s.getValueText kind lang v =
    (firstOrDefault elements (.text kind (v.getValueKey false) lang)
      (.text kind (v.getValueKey false) [])).getD []
  itemLabel : ∀ lang (v : LocalizedValue) itemIndex text, lang ≠ [] →
    firstOrDefault elements (.itemLabel (v.getValueKey v.hasOwnItems) lang itemIndex)
      (.itemLabel (v.getValueKey v.hasOwnItems) [] itemIndex) = some text →
    s.getValueItemLabel lang v itemIndex = text

/-- Two values share a key only if they agree in class, index and position and, if they are of
a class that is kept for each node, in the node. -/
def KeysDistinct : Prop :=
  ∀ (v w : LocalizedValue) (unique unique' : Bool),
    v.getValueKey unique = w.getValueKey unique' →
      v.commandClass = w.commandClass ∧ v.index = w.index ∧ v.pos = w.pos ∧
        (v.PerNode → v.node = w.node)

/-- A help finds either the label and the help of its language or none of them, or else a help
of the same text. The label of an item finds an entry of its value. -/
def Fits (s : LocalizationMap) : LocalizedElement → Prop
  | .text .label _ _ => True
  | .text .help v element => ∀ text, element.getText = some text → element.language ≠ [] →
      let key := v.getValueKey false
      if s.stored (.text .label key element.language) = none then
        s.stored (.text .help key element.language) = none ∨
          s.stored (.text .help key element.language) = some text
      else s.stored (.text .help key element.language) ≠ none
  | .itemLabel v element => (LocalizedElement.itemLabel v element).target ≠ none →
      s (v.getValueKey false) ≠ none

/-! ## The stores -/

/-- The empty language is not among those that have a text of their own. -/
def Unnamed (s : LocalizationMap) : Prop :=
  ∀ key entry, s key = some entry → ∀ kind, entry.text kind [] = none

/-- The slots have what was read for them. -/
structure Stores (elements : List LocalizedElement) (s : LocalizationMap) : Prop where
  slots : s.stored =
    content LocalizedSlot.Named initial (elements.filterMap LocalizedElement.target)
  unnamed : s.Unnamed

variable {s : LocalizationMap} {elements : List LocalizedElement}

theorem stores_empty : Stores [] empty where
  slots := by
    funext slot
    rw [List.filterMap_nil, content_nil]
    cases slot with
    | text kind key lang =>
        by_cases hlang : lang = [] <;>
          simp [LocalizationMap.stored, storedText, empty, hlang, LocalizedSlot.Named, initial]
    | itemLabel key lang itemIndex =>
        by_cases hlang : lang = [] <;>
          simp [LocalizationMap.stored, storedItemLabel, empty, hlang, LocalizedSlot.Named, initial]
  unnamed := by
    rintro key entry ⟨⟩

variable (entry : Option ValueLocalizationEntry) (kind kind' : LocalizedText)
  (text lang lang' : List Char) (itemIndex itemIndex' : Int32)

theorem storedText_addText :
    storedText (some ((entry.getD .new).addText kind text lang)) kind' lang' =
      if kind' = kind ∧ lang' = lang then some text else storedText entry kind' lang' := by
  have hnew : storedText (some (entry.getD .new)) kind' lang' = storedText entry kind' lang' := by
    cases entry <;> rfl
  rw [← hnew, ValueLocalizationEntry.addText]
  by_cases hlang : lang = []
  · subst hlang
    by_cases hlang' : lang' = []
    · by_cases hkind : kind' = kind <;> simp [storedText, hlang', hkind]
    · simp [storedText, hlang']
  · by_cases hlang' : lang' = []
    · simp [storedText, hlang, hlang', Ne.symm hlang]
    · by_cases hkind : kind' = kind
      · simp [storedText, hlang, hlang', hkind, Function.update_apply]
      · simp [storedText, hlang, hlang', hkind]

theorem storedItemLabel_addText :
    storedItemLabel (some ((entry.getD .new).addText kind text lang)) lang' itemIndex =
      storedItemLabel entry lang' itemIndex := by
  have hnew : storedItemLabel (some (entry.getD .new)) lang' itemIndex =
      storedItemLabel entry lang' itemIndex := by
    cases entry with
    | none => exact ite_self none
    | some entry => rfl
  rw [← hnew, ValueLocalizationEntry.addText]
  split <;> rfl

theorem storedItemLabel_addItemLabel (entry : ValueLocalizationEntry) :
    storedItemLabel (some (entry.addItemLabel text itemIndex lang)) lang' itemIndex' =
      if lang' = lang ∧ itemIndex' = itemIndex then some text
      else storedItemLabel (some entry) lang' itemIndex' := by
  rw [ValueLocalizationEntry.addItemLabel, ItemLabels.addItemLabel]
  by_cases hlang : lang = []
  · subst hlang
    by_cases hlang' : lang' = []
    · simp [storedItemLabel, hlang', Function.update_apply]
    · simp [storedItemLabel, hlang']
  · by_cases hlang' : lang' = []
    · simp [storedItemLabel, hlang, hlang', Ne.symm hlang]
    · by_cases hsame : lang' = lang
      · simp [storedItemLabel, hlang, hsame, Function.update_apply]
      · simp [storedItemLabel, hlang, hlang', hsame]

theorem storedText_addItemLabel (entry : ValueLocalizationEntry) :
    storedText (some (entry.addItemLabel text itemIndex lang)) kind lang' =
      storedText (some entry) kind lang' := rfl

/-- A text is added to the entry of a key, or to a new one. -/
theorem stored_addText (s : LocalizationMap) (key : UInt64) :
    stored (Function.update s key (some (((s key).getD .new).addText kind text lang))) =
      Function.update s.stored (.text kind key lang) (some text) := by
  funext slot
  rw [Function.update_apply]
  cases slot with
  | text kind' key' lang' =>
      rw [stored, stored]
      by_cases hkey : key' = key
      · subst hkey
        rw [Function.update_self, storedText_addText]
        simp only [LocalizedSlot.text.injEq, true_and]
      · rw [Function.update_of_ne hkey, if_neg]
        rintro ⟨⟩
        exact hkey rfl
  | itemLabel key' lang' itemIndex =>
      rw [if_neg (by rintro ⟨⟩), stored, stored]
      by_cases hkey : key' = key
      · subst hkey
        rw [Function.update_self, storedItemLabel_addText]
      · rw [Function.update_of_ne hkey]

theorem stored_addItemLabel {s : LocalizationMap} {key : UInt64} {entry : ValueLocalizationEntry}
    (hentry : s key = some entry) :
    stored (Function.update s key (some (entry.addItemLabel text itemIndex lang))) =
      Function.update s.stored (.itemLabel key lang itemIndex) (some text) := by
  funext slot
  rw [Function.update_apply]
  cases slot with
  | text kind' key' lang' =>
      rw [if_neg (by rintro ⟨⟩), stored, stored]
      by_cases hkey : key' = key
      · subst hkey
        rw [Function.update_self, storedText_addItemLabel, hentry]
      · rw [Function.update_of_ne hkey]
  | itemLabel key' lang' itemIndex' =>
      rw [stored, stored]
      by_cases hkey : key' = key
      · subst hkey
        rw [Function.update_self, storedItemLabel_addItemLabel, hentry]
        simp only [LocalizedSlot.itemLabel.injEq, true_and]
      · rw [Function.update_of_ne hkey, if_neg]
        rintro ⟨⟩
        exact hkey rfl

/-! ## One element -/

section

variable {s : LocalizationMap} {elements : List LocalizedElement} {v : LocalizedValue}
  {element : TiXmlElement} {text : List Char} {itemIndex : Int32} {checked added : LocalizedText}

/-- A text is added unless one of the kind that is looked for has its language. -/
theorem readText_eq (htext : element.getText = some text) :
    s.readText checked added v element =
      if ((s (v.getValueKey false)).bind fun entry => entry.text checked element.language) = none
      then Function.update s (v.getValueKey false)
        (some (((s (v.getValueKey false)).getD .new).addText added text element.language))
      else s := by
  simp only [readText, htext]
  cases s (v.getValueKey false) with
  | none => rfl
  | some entry =>
      cases hchecked : entry.text checked element.language with
      | none => simp [ValueLocalizationEntry.hasText, hchecked]
      | some old => simp [ValueLocalizationEntry.hasText, hchecked]

theorem Stores.bind_text_eq_none_iff (h : Stores elements s) (key : UInt64)
    (kind : LocalizedText) (lang : List Char) :
    ((s key).bind fun entry => entry.text kind lang) = none ↔
      (lang ≠ [] → s.stored (.text kind key lang) = none) := by
  change _ ↔ (_ → storedText (s key) kind lang = none)
  rw [storedText]
  by_cases hlang : lang = []
  · subst hlang
    simp only [ne_eq, not_true, false_imp_iff, iff_true]
    cases hentry : s key with
    | none => rfl
    | some entry => exact h.unnamed key entry hentry kind
  · simp only [ne_eq, hlang, not_false_iff, true_imp_iff, if_neg]

theorem Stores.stored_readText (h : Stores elements s) (htext : element.getText = some text) :
    stored (s.readText checked added v element) =
      if element.language ≠ [] →
          s.stored (.text checked (v.getValueKey false) element.language) = none then
        Function.update s.stored (.text added (v.getValueKey false) element.language) (some text)
      else s.stored := by
  rw [readText_eq htext, apply_ite stored, stored_addText]
  exact if_congr (h.bind_text_eq_none_iff _ _ _) rfl rfl

theorem unnamed_addText (entry : ValueLocalizationEntry)
    (h : ∀ kind, entry.text kind [] = none) (kind : LocalizedText) (text lang : List Char) :
    ∀ kind', (entry.addText kind text lang).text kind' [] = none := by
  intro kind'
  rw [ValueLocalizationEntry.addText]
  split
  · exact h kind'
  · rename_i hlang
    dsimp only
    by_cases hkind : kind' = kind
    · rw [hkind, Function.update_self, Function.update_of_ne (Ne.symm hlang), h]
    · rw [Function.update_of_ne hkind, h]

theorem readXMLVIDItemLabel_eq (htext : element.getText = some text)
    (hitem : element.queryIntAttribute "itemIndex" = some itemIndex) :
    s.readXMLVIDItemLabel v element =
      match s (v.getValueKey false) with
      | none => s
      | some entry =>
          if entry.hasItemLabel itemIndex element.language then s
          else
            Function.update s (v.getValueKey false)
              (some (entry.addItemLabel text itemIndex element.language)) := by
  simp only [readXMLVIDItemLabel, htext, hitem]

/-- No step gives a text to the empty language. -/
theorem Unnamed.step (h : s.Unnamed) (e : LocalizedElement) : (s.step e).Unnamed := by
  intro key entry hentry kind
  have htexts : ∀ checked added v element,
      s.readText checked added v element key = some entry → entry.text kind [] = none := by
    intro checked added v element hread
    cases htext : element.getText with
    | none =>
        simp only [readText, htext] at hread
        exact h key entry hread kind
    | some text =>
        rw [readText_eq htext] at hread
        split at hread
        · by_cases hkey : key = v.getValueKey false
          · subst hkey
            rw [Function.update_self] at hread
            cases hread
            refine unnamed_addText _ ?_ _ _ _ kind
            cases hold : s (v.getValueKey false) with
            | none => exact fun _ => rfl
            | some old => exact h _ old hold
          · rw [Function.update_of_ne hkey] at hread
            exact h key entry hread kind
        · exact h key entry hread kind
  match e with
  | .text .label v element => exact htexts _ _ _ _ hentry
  | .text .help v element => exact htexts _ _ _ _ hentry
  | .itemLabel v element =>
      have hkept := fun hread => h key entry hread kind
      cases htext : element.getText with
      | none =>
          simp only [LocalizationMap.step, readXMLVIDItemLabel, htext] at hentry
          exact hkept hentry
      | some text =>
          cases hitem : element.queryIntAttribute "itemIndex" with
          | none =>
              simp only [LocalizationMap.step, readXMLVIDItemLabel, htext, hitem] at hentry
              exact hkept hentry
          | some itemIndex =>
              rw [LocalizationMap.step, readXMLVIDItemLabel_eq htext hitem] at hentry
              cases hold : s (v.getValueKey false) with
              | none =>
                  simp only [hold] at hentry
                  exact hkept hentry
              | some old =>
                  simp only [hold] at hentry
                  split at hentry
                  · exact hkept hentry
                  · by_cases hkey : key = v.getValueKey false
                    · subst hkey
                      rw [Function.update_self] at hentry
                      cases hentry
                      exact h _ old hold kind
                    · rw [Function.update_of_ne hkey] at hentry
                      exact hkept hentry

/-- The log of the slots after one more element that has something to say. -/
theorem filterMap_concat {e : LocalizedElement} {slot : LocalizedSlot}
    (htarget : e.target = some (slot, text)) :
    (elements ++ [e]).filterMap LocalizedElement.target =
      elements.filterMap LocalizedElement.target ++ [(slot, text)] := by
  rw [List.filterMap_append, List.filterMap_cons_some htarget, List.filterMap_nil]

theorem Stores.concat_iff (h : Stores elements s) (e : LocalizedElement) {slot : LocalizedSlot}
    (htarget : e.target = some (slot, text)) (put : Prop) [Decidable put]
    (hput : stored (s.step e) =
      if put then Function.update s.stored slot (some text) else s.stored) :
    Stores (elements ++ [e]) (s.step e) ↔ Due LocalizedSlot.Named s.stored slot text put := by
  rw [← put_eq_content_iff h.slots, ← filterMap_concat htarget, ← hput]
  exact ⟨fun hnext => hnext.slots, fun hslots => ⟨hslots, h.unnamed.step e⟩⟩

/-- An element from which something is missing changes nothing. -/
theorem Stores.concat_of_none (h : Stores elements s) {e : LocalizedElement}
    (htarget : e.target = none) (hstep : s.step e = s) :
    Stores (elements ++ [e]) (s.step e) where
  slots := by
    rw [hstep, List.filterMap_append, List.filterMap_cons_none htarget, List.filterMap_nil,
      List.append_nil]
    exact h.slots
  unnamed := h.unnamed.step e

theorem Stores.step_label (h : Stores elements s) (v : LocalizedValue) (element : TiXmlElement) :
    Stores (elements ++ [.text .label v element]) (s.step (.text .label v element)) := by
  cases htext : element.getText with
  | none =>
      refine h.concat_of_none (by rw [LocalizedElement.target, htext]; rfl) ?_
      simp only [step, readXMLVIDLabel, readText, htext]
  | some text =>
      have htarget : (LocalizedElement.text .label v element).target = some
          (.text .label (v.getValueKey false) element.language, text) := by
        rw [LocalizedElement.target, htext, Option.map_some]
      refine (h.concat_iff _ htarget _ (h.stored_readText htext)).mpr ⟨?_, ?_⟩
      · intro hput hnamed
        exact .inl (hput hnamed)
      · intro hdrop
        obtain ⟨hnamed, hsome⟩ := Classical.not_imp.mp hdrop
        exact (if_pos (show LocalizedSlot.Named (.text .label _ _) from hnamed)).mpr hsome

theorem Stores.step_help_iff (h : Stores elements s) (v : LocalizedValue)
    (element : TiXmlElement) :
    Stores (elements ++ [.text .help v element]) (s.step (.text .help v element)) ↔
      s.Fits (.text .help v element) := by
  cases htext : element.getText with
  | none =>
      refine iff_of_true (h.concat_of_none (by rw [LocalizedElement.target, htext]; rfl) ?_) ?_
      · simp only [step, readXMLVIDHelp, readText, htext]
      · intro text hsome
        rw [htext] at hsome
        cases hsome
  | some text =>
      have htarget : (LocalizedElement.text .help v element).target = some
          (.text .help (v.getValueKey false) element.language, text) := by
        rw [LocalizedElement.target, htext, Option.map_some]
      refine (h.concat_iff _ htarget _ (h.stored_readText htext)).trans ?_
      simp only [Fits, htext, Option.some.injEq, forall_eq']
      by_cases hlang : element.language = []
      · simp [Due, hlang, LocalizedSlot.Named]
      · by_cases hlabel :
          s.stored (.text .label (v.getValueKey false) element.language) = none
        · simp [Due, hlang, hlabel, LocalizedSlot.Named]
        · simp [Due, hlang, hlabel, LocalizedSlot.Named]

theorem Stores.step_itemLabel_iff (h : Stores elements s) (v : LocalizedValue)
    (element : TiXmlElement) :
    Stores (elements ++ [.itemLabel v element]) (s.step (.itemLabel v element)) ↔
      s.Fits (.itemLabel v element) := by
  cases htext : element.getText with
  | none =>
      have htarget : (LocalizedElement.itemLabel v element).target = none := by
        rw [LocalizedElement.target, htext, Option.bind_none]
      refine iff_of_true (h.concat_of_none htarget ?_) fun hsome => absurd htarget hsome
      simp only [step, readXMLVIDItemLabel, htext]
  | some text =>
      cases hitem : element.queryIntAttribute "itemIndex" with
      | none =>
          have htarget : (LocalizedElement.itemLabel v element).target = none := by
            rw [LocalizedElement.target, htext, Option.bind_some, hitem, Option.map_none]
          refine iff_of_true (h.concat_of_none htarget ?_) fun hsome => absurd htarget hsome
          simp only [step, readXMLVIDItemLabel, htext, hitem]
      | some itemIndex =>
          have htarget : (LocalizedElement.itemLabel v element).target = some
              (.itemLabel (v.getValueKey false) element.language itemIndex, text) := by
            rw [LocalizedElement.target, htext, Option.bind_some, hitem, Option.map_some]
          have hstep := @readXMLVIDItemLabel_eq s v element text itemIndex htext hitem
          have hfits : s.Fits (.itemLabel v element) ↔ s (v.getValueKey false) ≠ none :=
            forall_prop_of_true (by rw [htarget]; exact Option.some_ne_none _)
          rw [hfits]
          cases hentry : s (v.getValueKey false) with
          | none =>
              -- the label is dropped, and there was none for the item before
              rw [hentry] at hstep
              have hstored : s.stored
                  (.itemLabel (v.getValueKey false) element.language itemIndex) = none := by
                rw [stored, hentry]
                rfl
              rw [h.concat_iff _ htarget False (congrArg stored hstep), Due, hstored]
              simp
          | some entry =>
              rw [hentry] at hstep
              have hput : stored (s.step (.itemLabel v element)) =
                  if ¬ entry.hasItemLabel itemIndex element.language = true then
                    Function.update s.stored
                      (.itemLabel (v.getValueKey false) element.language itemIndex) (some text)
                  else s.stored := by
                rw [ite_not, ← stored_addItemLabel text element.language itemIndex hentry,
                  ← apply_ite stored]
                exact congrArg stored hstep
              have hstored : s.stored
                  (.itemLabel (v.getValueKey false) element.language itemIndex) =
                    storedItemLabel (some entry) element.language itemIndex := by
                rw [stored, hentry]
              rw [h.concat_iff _ htarget _ hput, Due, hstored]
              by_cases hlang : element.language = []
              · simp [LocalizedSlot.Named, hlang, ValueLocalizationEntry.hasItemLabel,
                  ItemLabels.inLanguage]
              · cases hold : entry.itemLabelText element.language itemIndex with
                | none =>
                    simp [LocalizedSlot.Named, hlang, ValueLocalizationEntry.hasItemLabel,
                      ItemLabels.inLanguage, storedItemLabel, hold]
                | some old =>
                    simp [LocalizedSlot.Named, hlang, ValueLocalizationEntry.hasItemLabel,
                      ItemLabels.inLanguage, storedItemLabel, hold]

theorem Stores.step_iff (h : Stores elements s) (e : LocalizedElement) :
    Stores (elements ++ [e]) (s.step e) ↔ s.Fits e :=
  match e with
  | .text .label v element => iff_of_true (h.step_label v element) trivial
  | .text .help v element => h.step_help_iff v element
  | .itemLabel v element => h.step_itemLabel_iff v element

/-! ## Queries -/

theorem Stores.stored_named (h : Stores elements s) {slot : LocalizedSlot} (hnamed : slot.Named) :
    s.stored slot = (textsRead elements slot).head? := by
  rw [h.slots, content, if_pos hnamed, textsRead]

theorem Stores.stored_default (h : Stores elements s) {slot : LocalizedSlot}
    (hdefault : ¬ slot.Named) :
    s.stored slot = (textsRead elements slot).getLast?.or (initial slot) := by
  rw [h.slots, content, if_neg hdefault, textsRead]

/-- A query returns what is stored for the language, or else by default. -/
theorem getValueText_eq (s : LocalizationMap) (kind : LocalizedText) {lang : List Char}
    (hlang : lang ≠ []) (v : LocalizedValue) :
    s.getValueText kind lang v =
      ((s.stored (.text kind (v.getValueKey false) lang)).or
        (s.stored (.text kind (v.getValueKey false) []))).getD [] := by
  rw [getValueText, stored, stored]
  cases s (v.getValueKey false) with
  | none => simp [storedText, hlang]
  | some entry =>
      simp only [ValueLocalizationEntry.getText, if_neg hlang, storedText, if_true,
        Option.bind_some, Option.elim_some]
      cases entry.text kind lang <;> rfl

theorem getValueItemLabel_eq (s : LocalizationMap) {lang : List Char} (hlang : lang ≠ [])
    (v : LocalizedValue) (itemIndex : Int32) {text : List Char}
    (htext : (s.stored (.itemLabel (v.getValueKey v.hasOwnItems) lang itemIndex)).or
      (s.stored (.itemLabel (v.getValueKey v.hasOwnItems) [] itemIndex)) = some text) :
    s.getValueItemLabel lang v itemIndex = text := by
  rw [stored, stored] at htext
  rw [getValueItemLabel]
  cases hentry : s (v.getValueKey v.hasOwnItems) with
  | none =>
      rw [hentry] at htext
      cases htext
  | some entry =>
      rw [hentry] at htext
      simp only [storedItemLabel, Option.bind_some, if_neg hlang, if_true] at htext
      simp only [ItemLabels.getItemLabel, ItemLabels.inLanguage, if_neg hlang]
      cases hold : entry.itemLabelText lang itemIndex with
      | none =>
          rw [hold, Option.none_or] at htext
          rw [Option.getD_none, htext, Option.getD_some]
      | some old =>
          rw [hold, Option.some_or] at htext
          exact Option.some.inj htext

theorem Stores.independent (h : Stores elements s) : Independent elements s where
  first := fun _ hnamed => h.stored_named hnamed
  default := fun _ hdefault => h.stored_default hdefault
  text := by
    intro kind lang v hlang
    have hnamed := @Stores.stored_named s elements h (.text kind (v.getValueKey false) lang) hlang
    have hdefault := @Stores.stored_default s elements h (.text kind (v.getValueKey false) [])
      fun hne => hne rfl
    rw [getValueText_eq s kind hlang v, hnamed, hdefault, firstOrDefault, initial,
      ← Option.or_assoc]
    cases (textsRead elements (.text kind (v.getValueKey false) lang)).head?.or
      (textsRead elements (.text kind (v.getValueKey false) [])).getLast? <;> rfl
  itemLabel := by
    intro lang v itemIndex text hlang hfirst
    have hnamed := @Stores.stored_named s elements h
      (.itemLabel (v.getValueKey v.hasOwnItems) lang itemIndex) hlang
    have hdefault := @Stores.stored_default s elements h
      (.itemLabel (v.getValueKey v.hasOwnItems) [] itemIndex) fun hne => hne rfl
    apply getValueItemLabel_eq s hlang v itemIndex
    rw [hnamed, hdefault, initial, Option.or_none]
    exact hfirst

end

theorem Stores.of_independent (h : Independent elements s) (hunnamed : s.Unnamed) :
    Stores elements s where
  slots := by
    funext slot
    rw [content]
    split
    · rename_i hnamed
      exact h.first slot hnamed
    · rename_i hdefault
      exact h.default slot hdefault
  unnamed := hunnamed

/-! ## Keys -/

theorem toBitVec_nodeKey (v : LocalizedValue) :
    v.nodeKey.toBitVec = put 64 56 v.node.toBitVec ||| put 64 48 v.commandClass.toBitVec
      ||| put 64 32 v.index.toBitVec ||| put 64 0 v.pos.toBitVec := by
  have hput : put 64 0 v.pos.toBitVec = v.pos.toBitVec.setWidth 64 := BitVec.shiftLeft_zero _
  rw [hput]
  rfl

/-- The four components have places of their own in a key. -/
theorem nodeKey_injective : Function.Injective LocalizedValue.nodeKey := by
  intro v w h
  have hword := congrArg UInt64.toBitVec h
  rw [toBitVec_nodeKey, toBitVec_nodeKey] at hword
  refine LocalizedValue.ext (UInt8.toBitVec_inj.mp ?_) (UInt8.toBitVec_inj.mp ?_)
    (UInt16.toBitVec_inj.mp ?_) (UInt32.toBitVec_inj.mp ?_)
  · simpa [get_put, get_put_beside] using congrArg (get 56 8) hword
  · simpa [get_put, get_put_beside] using congrArg (get 48 8) hword
  · simpa [get_put, get_put_beside] using congrArg (get 32 16) hword
  · simpa [get_put, get_put_beside] using congrArg (get 0 32) hword

/-- The key without a node is that of node 0. -/
theorem sharedKey_eq (v : LocalizedValue) : v.sharedKey = { v with node := 0 }.nodeKey := by
  simp [LocalizedValue.sharedKey, LocalizedValue.nodeKey]

theorem getValueKey_of_perNode {v : LocalizedValue} (h : v.PerNode) (unique : Bool) :
    v.getValueKey unique = v.nodeKey := by
  rw [LocalizedValue.getValueKey]
  rcases h with h | h | h | h <;> simp [h]

/-- Every key is that of the value with some node. -/
theorem exists_getValueKey_eq (v : LocalizedValue) (unique : Bool) :
    ∃ node, v.getValueKey unique = { v with node := node }.nodeKey := by
  have hown : ∃ node, v.nodeKey = { v with node := node }.nodeKey := ⟨v.node, rfl⟩
  rw [LocalizedValue.getValueKey]
  split
  · exact hown
  split
  · exact hown
  split
  · exact hown
  split
  · exact hown
  split
  · exact hown
  · exact ⟨0, sharedKey_eq v⟩

theorem keysDistinct : KeysDistinct := by
  intro v w unique unique' h
  obtain ⟨node, hv⟩ := exists_getValueKey_eq v unique
  obtain ⟨node', hw⟩ := exists_getValueKey_eq w unique'
  have hsame := nodeKey_injective (hv.symm.trans (h.trans hw))
  have hclass : v.commandClass = w.commandClass := congrArg (·.commandClass) hsame
  have hindex : v.index = w.index := congrArg (·.index) hsame
  refine ⟨hclass, hindex, congrArg (·.pos) hsame, ?_⟩
  intro hper
  have hper' : w.PerNode := by
    rw [LocalizedValue.PerNode, ← hclass, ← hindex]
    exact hper
  rw [getValueKey_of_perNode hper, getValueKey_of_perNode hper'] at h
  exact congrArg (·.node) (nodeKey_injective h)

/-! ## Sequences of elements -/

/-- Labels, helps and labels of items are independent at every moment of a sequence exactly if
no help meets a label without its help and no label of an item is read before its value. -/
theorem independent_iff (elements : List LocalizedElement) :
    ((∀ past, past <+: elements → Independent past (run step empty past)) ∧ KeysDistinct) ↔
      Along step Fits empty elements := by
  have hunnamed : ∀ past, (run step empty past).Unnamed :=
    run_invariant step (fun _ e h => h.step e) stores_empty.unnamed
  have hstores : ∀ past, Independent past (run step empty past) ↔
      Stores past (run step empty past) :=
    fun past => ⟨fun h => .of_independent h (hunnamed past), Stores.independent⟩
  rw [and_iff_left keysDistinct]
  simp only [hstores]
  exact @always_history_iff_along _ _ step Fits Stores (fun _ _ e h => h.step_iff e) []
    empty stores_empty elements

/-- The label and the help of a value in one language. -/
def labelAndHelp : List LocalizedElement :=
  [.text .label ⟨0, 0x25, 0, 0⟩
      { value := "Label", attributeSet := [("lang", ['d', 'e'])], children := [.text ['S']] },
    .text .help ⟨0, 0x25, 0, 0⟩
      { value := "Help", attributeSet := [("lang", ['d', 'e'])], children := [.text ['H']] }]

/-- The help is dropped, since the value has a label. -/
theorem help_after_label_dropped :
    ¬ ((∀ past, past <+: labelAndHelp → Independent past (run step empty past)) ∧
      KeysDistinct) := by
  rintro ⟨hall, -⟩
  have hkept := (hall labelAndHelp (List.prefix_refl _)).first
    (.text .help (LocalizedValue.getValueKey ⟨0, 0x25, 0, 0⟩ false) ['d', 'e']) (by decide)
  exact absurd hkept (by decide)

/-! ## Documents -/

/-- The element that a child of a value is read as. -/
def elementOf (v : LocalizedValue) (element : TiXmlElement) : List LocalizedElement :=
  if element.value = "Label" then [.text .label v element]
  else if element.value = "Help" then [.text .help v element]
  else if element.value = "ItemLabel" then [.itemLabel v element]
  else []

def valueElements (node ccID : UInt8) (valueElement : TiXmlElement) : List LocalizedElement :=
  ((valueOf node ccID valueElement).map fun v =>
    valueElement.childElements.flatMap (elementOf v)).getD []

def commandClassElements (ccElement : TiXmlElement) : List LocalizedElement :=
  if ccElement.value = "CommandClass" then
    ((ccElement.getAttribute "id").map fun id => ccElement.childElements.flatMap fun element =>
      if element.value = "Value" then valueElements 0 (UInt8.ofInt (strtol 10 id).1) element
      else []).getD []
  else []

theorem readElement_eq_run (s : LocalizationMap) (v : LocalizedValue) (element : TiXmlElement) :
    s.readElement v element = run step s (elementOf v element) := by
  rw [readElement, elementOf]
  split
  · rfl
  split
  · rfl
  split <;> rfl

theorem readXMLValue_eq_run (s : LocalizationMap) (node ccID : UInt8) (valueElement : TiXmlElement) :
    s.readXMLValue node ccID valueElement =
      run step s (valueElements node ccID valueElement) := by
  rw [readXMLValue, valueElements]
  cases valueOf node ccID valueElement with
  | none => rfl
  | some v => exact foldl_eq_run step (fun s element => readElement_eq_run s v element) s _

theorem readCommandClass_eq_run (s : LocalizationMap) (ccElement : TiXmlElement) :
    s.readCommandClass ccElement = run step s (commandClassElements ccElement) := by
  rw [readCommandClass, commandClassElements]
  split
  · cases ccElement.getAttribute "id" with
    | none => rfl
    | some id =>
        apply foldl_eq_run
        intro s element
        split
        · exact readXMLValue_eq_run s _ _ element
        · rfl
  · rfl

/-- The document is read element by element. -/
theorem readXML_eq_run (s : LocalizationMap) (root : TiXmlElement)
    (hok : (s.readXML (some root)).2 = true) :
    (s.readXML (some root)).1 = run step s (root.childElements.flatMap commandClassElements) := by
  simp only [readXML] at hok ⊢
  split at hok
  · cases hok
  · rename_i hrevision
    rw [if_neg hrevision]
    exact foldl_eq_run step readCommandClass_eq_run s _

end LocalizationMap

end OpenZWave

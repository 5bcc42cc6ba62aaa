import Mathlib.Data.List.Basic
import Mathlib.Data.List.Chain
import Mathlib.Data.List.TakeWhile
import OpenZWave.Lib.NumberText

/-!
# Documents

Configuration is kept in XML. An element has a name, attributes and children; the
functions that read an element give nothing where the code gets a null pointer.
-/

namespace OpenZWave

open NumberText

/-- An element with its children. -/
structure XmlElement (Node : Type) where
  value : String
  attributeSet : List (String × List Char)
  children : List Node

/-- A node of a document. Comments, declarations and unknown nodes, which have a value, are
not told apart. -/
inductive TiXmlNode
  | element (value : XmlElement TiXmlNode)
  | text (value : List Char)
  | other (value : List Char)

abbrev TiXmlElement : Type := XmlElement TiXmlNode

/-- `ToElement`. -/
def TiXmlNode.toElement : TiXmlNode → Option TiXmlElement
  | .element value => some value
  | .text _ => none
  | .other _ => none

/-- `Value`. -/
def TiXmlNode.getValue : TiXmlNode → List Char
  | .element value => value.value.toList
  | .text value => value
  | .other value => value

namespace XmlElement

/-- A new element. -/
def create (value : String) : TiXmlElement := { value := value, attributeSet := [], children := [] }

/-- `LinkEndChild`. -/
def linkEndChild (element : TiXmlElement) (node : TiXmlNode) : TiXmlElement :=
  { element with children := element.children ++ [node] }

/-- `Attribute`. -/
def getAttribute (element : TiXmlElement) (name : String) : Option (List Char) :=
  (element.attributeSet.find? (·.1 = name)).map fun entry => cStr entry.2

/-- `SetAttribute`: an attribute that is there gets the new value. -/
def setAttribute (element : TiXmlElement) (name : String) (value : List Char) : TiXmlElement :=
  { element with
    attributeSet :=
      if element.attributeSet.any (·.1 = name) then
        element.attributeSet.map fun entry => if entry.1 = name then (name, value) else entry
      else element.attributeSet ++ [(name, value)] }

/-- `SetAttribute` of a number. -/
def setIntAttribute (element : TiXmlElement) (name : String) (value : Int32) : TiXmlElement :=
  element.setAttribute name (printInt value.toInt)

/-- `QueryIntAttribute`, as `sscanf` reads a number. -/
def queryIntAttribute (element : TiXmlElement) (name : String) : Option Int32 :=
  (element.getAttribute name).bind fun text =>
    let read := strtol 10 text
    if read.2 = text then none else some (Int32.ofInt read.1)

/-- The elements that `FirstChildElement` and `NextSiblingElement` go through. -/
def childElements (element : TiXmlElement) : List TiXmlElement :=
  element.children.filterMap TiXmlNode.toElement

/-- `FirstChildElement` with a name. -/
def firstChildElement (element : TiXmlElement) (name : String) : Option TiXmlElement :=
  element.childElements.find? (·.value = name)

/-- `GetText`. -/
def getText (element : TiXmlElement) : Option (List Char) :=
  match element.children with
  | .text value :: _ => some (cStr value)
  | _ => none

end XmlElement

namespace XmlElement

/-! ## Attributes -/

theorem getAttribute_setAttribute (element : TiXmlElement) (name name' : String)
    (value : List Char) :
    (element.setAttribute name value).getAttribute name' =
      if name' = name then some (cStr value) else element.getAttribute name' := by
  have hkey : ((fun entry : String × List Char => decide (entry.1 = name')) ∘ fun entry =>
      if entry.1 = name then (name, value) else entry) = fun entry => decide (entry.1 = name') := by
    funext entry
    by_cases h : entry.1 = name <;> simp [h]
  simp only [getAttribute, setAttribute]
  by_cases hany : element.attributeSet.any (fun entry => decide (entry.1 = name)) = true
  · rw [if_pos hany, List.find?_map, hkey, Option.map_map]
    cases hfind : element.attributeSet.find? fun entry => decide (entry.1 = name') with
    | none =>
        have hne : name' ≠ name := by
          rintro rfl
          obtain ⟨entry, hmem, hentry⟩ := List.any_eq_true.mp hany
          exact List.find?_eq_none.mp hfind entry hmem hentry
        simp [hne]
    | some entry =>
        have hentry : entry.1 = name' := by simpa using List.find?_some hfind
        by_cases hname : name' = name <;> simp [hentry, hname]
  · rw [if_neg hany, List.find?_append]
    by_cases hname : name' = name
    · subst hname
      have hnone : element.attributeSet.find? (fun entry => decide (entry.1 = name')) = none :=
        List.find?_eq_none.mpr fun entry hmem hentry =>
          hany (List.any_eq_true.mpr ⟨entry, hmem, hentry⟩)
      simp [hnone]
    · simp [hname, Ne.symm hname]

@[simp] theorem getAttribute_create (name name' : String) :
    (create name).getAttribute name' = none := rfl

@[simp] theorem getAttribute_linkEndChild (element : TiXmlElement) (node : TiXmlNode)
    (name : String) : (element.linkEndChild node).getAttribute name = element.getAttribute name :=
  rfl

theorem childElements_map {α : Type} (element : α → TiXmlElement) (parent : TiXmlElement)
    (items : List α) (h : parent.children = items.map fun item => .element (element item)) :
    parent.childElements = items.map element := by
  simp [childElements, h, List.filterMap_map, Function.comp_def, TiXmlNode.toElement]

/-- A number that is written with `%d` is read. -/
theorem queryIntAttribute_printInt {element : TiXmlElement} {name : String} {i : ℤ}
    (hlow : -2 ^ 63 ≤ i) (hhigh : i < 2 ^ 63)
    (h : element.getAttribute name = some (cStr (printInt i))) :
    element.queryIntAttribute name = some (Int32.ofInt i) := by
  have hnumeral := numeral_printInt hlow hhigh
  have hrest : ([] : List Char) ≠ printInt i := hnumeral.1.symm
  rw [hnumeral.cStr (Or.inl rfl)] at h
  simp [queryIntAttribute, h, hnumeral.2, hrest]

theorem queryIntAttribute_setIntAttribute (element : TiXmlElement) (name : String) (i : Int32) :
    (element.setIntAttribute name i).queryIntAttribute name = some i := by
  have hlow := i.le_toInt
  have hhigh := i.toInt_lt
  have hwritten : (element.setIntAttribute name i).getAttribute name =
      some (cStr (printInt i.toInt)) := by
    rw [setIntAttribute, getAttribute_setAttribute, if_pos rfl]
  have hread := queryIntAttribute_printInt (by omega) (by omega) hwritten
  rwa [Int32.ofInt_toInt] at hread

/-- Another attribute is read as before. -/
theorem queryIntAttribute_setIntAttribute_of_ne (element : TiXmlElement) {name name' : String}
    (h : name' ≠ name) (i : Int32) :
    (element.setIntAttribute name i).queryIntAttribute name' = element.queryIntAttribute name' := by
  rw [queryIntAttribute, setIntAttribute, getAttribute_setAttribute, if_neg h, queryIntAttribute]

theorem queryIntAttribute_eq_none {element : TiXmlElement} {name : String}
    (h : element.getAttribute name = none) : element.queryIntAttribute name = none := by
  simp [queryIntAttribute, h]

end XmlElement

/-! ## Texts in a file -/

/-- What is skipped in front of a text: blanks and byte order marks. -/
def isSkipped (c : Char) : Bool :=
  c == ' ' || c == Char.ofNat 0xFEFF || c == Char.ofNat 0xFFFE || c == Char.ofNat 0xFFFF

/-- The loop of `ReadText`. Of the blanks between two characters one is kept. -/
def condense : Bool → List Char → List Char
  | _, [] => []
  | whitespace, c :: cs =>
      if c = ' ' then condense true cs
      else if whitespace then ' ' :: c :: condense false cs
      else c :: condense false cs

/-- The children of an element that was saved with a text. Control characters are written
as references, so that blanks are the only white space that is condensed; a text without
another character is dropped. -/
def loadedText (text : List Char) : List TiXmlNode :=
  let value := condense false ((cStr text).dropWhile isSkipped)
  if value.all isSpace then [] else [.text value]

/-- A text that comes back from a file as it was. -/
structure Lasting (text : List Char) : Prop where
  unterminated : Char.ofNat 0 ∉ text
  visible : ∃ c ∈ text, isSpace c = false
  first : ∀ c ∈ text.head?, isSkipped c = false
  last : text.getLast? ≠ some ' '
  single : text.IsChain fun c d => ¬ (c = ' ' ∧ d = ' ')

/-- `EncodeString` copies what follows these characters. -/
def HasReference (text : List Char) : Prop := ['&', '#', 'x'] <:+: text

theorem length_condense_le (whitespace : Bool) (text : List Char) :
    (condense whitespace text).length ≤ text.length + if whitespace then 1 else 0 := by
  induction text generalizing whitespace with
  | nil => simp [condense]
  | cons c cs ih =>
      have htrue := ih true
      have hfalse := ih false
      cases whitespace <;> by_cases hblank : c = ' ' <;>
        simp [condense, hblank] at htrue hfalse ⊢ <;> omega

/-- A text that does not start with a blank is condensed if it does not end with one, and
no two stand side by side. -/
theorem condense_eq_iff : ∀ text : List Char, text.head? ≠ some ' ' →
    (condense false text = text ↔
      text.getLast? ≠ some ' ' ∧ text.IsChain fun c d => ¬ (c = ' ' ∧ d = ' '))
  | [], _ => by simp [condense]
  | [c], hfirst => by
      have hc : c ≠ ' ' := fun heq => hfirst (congrArg some heq)
      simp [condense, hc]
  | c :: d :: ds, hfirst => by
      have hc : c ≠ ' ' := fun heq => hfirst (congrArg some heq)
      by_cases hd : d = ' '
      · subst hd
        cases ds with
        | nil => simp [condense, hc]
        | cons e es =>
            by_cases he : e = ' '
            · have hlength := length_condense_le true es
              have hshort : condense true es ≠ ' ' :: ' ' :: es := fun heq => by
                have hsame := congrArg List.length heq
                simp at hsame hlength
                omega
              simp [condense, hc, he, hshort]
            · have hrest := condense_eq_iff (e :: es) (by simpa using he)
              simp only [condense, if_neg he, Bool.false_eq_true, if_false, List.cons.injEq,
                true_and] at hrest
              simp [condense, hc, he, hrest]
      · have hrest := condense_eq_iff (d :: ds) (by simpa using hd)
        simp only [condense, if_neg hd, Bool.false_eq_true, if_false, List.cons.injEq,
          true_and] at hrest
        simp [condense, hc, hd, hrest]

theorem cStr_eq_iff {text : List Char} : cStr text = text ↔ Char.ofNat 0 ∉ text := by
  rw [cStr, List.takeWhile_eq_self_iff]
  constructor
  · intro h hmem
    simpa using h _ hmem
  · intro h c hc
    exact decide_eq_true fun heq => h (heq ▸ hc)

theorem cStr_cStr (text : List Char) : cStr (cStr text) = cStr text :=
  cStr_eq_iff.mpr fun hmem => by simpa using List.mem_takeWhile_imp hmem

theorem dropWhile_isSkipped_eq_iff {text : List Char} :
    text.dropWhile isSkipped = text ↔ ∀ c ∈ text.head?, isSkipped c = false := by
  rw [List.dropWhile_eq_self_iff]
  cases text <;> simp

theorem mem_condense {whitespace : Bool} {text : List Char} {c : Char}
    (h : c ∈ condense whitespace text) : c ∈ text ∨ c = ' ' := by
  induction text generalizing whitespace with
  | nil => cases h
  | cons d ds ih =>
      by_cases hd : d = ' '
      · rw [condense, if_pos hd] at h
        exact (ih h).imp (List.mem_cons_of_mem d) id
      · have hrest : c ∈ d :: condense false ds → c ∈ d :: ds ∨ c = ' ' := by
          rintro (_ | ⟨_, h⟩)
          · exact Or.inl List.mem_cons_self
          · exact (ih h).imp (List.mem_cons_of_mem d) id
        rw [condense, if_neg hd] at h
        split at h
        · exact (List.mem_cons.mp h).elim Or.inr hrest
        · exact hrest h

/-- What a file makes of a text is nothing or a C string. -/
theorem loadedText_cases (text : List Char) :
    loadedText text = [] ∨ ∃ value, loadedText text = [.text value] ∧ cStr value = value := by
  rw [loadedText]
  split
  · exact Or.inl rfl
  · refine Or.inr ⟨_, rfl, cStr_eq_iff.mpr fun hmem => ?_⟩
    rcases mem_condense hmem with htext | hblank
    · have hstr := (List.dropWhile_suffix isSkipped).mem htext
      simpa using List.mem_takeWhile_imp hstr
    · exact absurd hblank (by decide)

/-- The texts that a file keeps. -/
theorem loadedText_eq_iff (text : List Char) : loadedText text = [.text text] ↔ Lasting text := by
  constructor
  · intro h
    rw [loadedText] at h
    split at h
    · cases h
    · rename_i hvisible
      simp only [List.cons.injEq, TiXmlNode.text.injEq, and_true] at h
      have hcondense := length_condense_le false ((cStr text).dropWhile isSkipped)
      have hskip := List.dropWhile_suffix (l := cStr text) isSkipped
      have hprefix : cStr text <+: text := List.takeWhile_prefix _
      have hstr : cStr text = text := hprefix.eq_of_length (by
        have := hskip.length_le
        have := hprefix.length_le
        rw [h] at hcondense
        simp at hcondense
        omega)
      rw [hstr] at h hskip
      have hdrop : text.dropWhile isSkipped = text := hskip.eq_of_length (by
        have := hskip.length_le
        have hless := length_condense_le false (text.dropWhile isSkipped)
        rw [h] at hless
        simp at hless
        omega)
      rw [hdrop] at h
      have hfirst := dropWhile_isSkipped_eq_iff.mp hdrop
      have hhead : text.head? ≠ some ' ' := fun heq => by
        cases hfirst _ heq
      obtain ⟨hlast, hsingle⟩ := (condense_eq_iff text hhead).mp h
      rw [hstr, hdrop, h, List.all_eq_true] at hvisible
      refine ⟨cStr_eq_iff.mp hstr, ?_, hfirst, hlast, hsingle⟩
      simpa using hvisible
  · rintro ⟨hzero, ⟨c, hc, hvisible⟩, hfirst, hlast, hsingle⟩
    have hhead : text.head? ≠ some ' ' := fun heq => by
      cases hfirst _ heq
    have hvalue : condense false ((cStr text).dropWhile isSkipped) = text := by
      rw [cStr_eq_iff.mpr hzero, dropWhile_isSkipped_eq_iff.mpr hfirst]
      exact (condense_eq_iff text hhead).mpr ⟨hlast, hsingle⟩
    have hall : text.all isSpace = false := by
      rw [List.all_eq_false]
      exact ⟨c, hc, by simp [hvisible]⟩
    simp [loadedText, hvalue, hall]

end OpenZWave

import OpenZWave.Lib.Multimap
import OpenZWave.TinyXml

/-!
# Refreshes that a value triggers

`m_RefreshClassValues` has the values that are to be requested when a value of an index
changes. `WriteXML` starts an element when the index differs from the one before, which is
zero at first.
-/

namespace OpenZWave

open NumberText

structure RefreshValue where
  cc : UInt8
  requestflags : UInt8
  index : UInt16
  deriving DecidableEq

/-- The number by which the entries of `m_RefreshClassValues` are ordered. -/
def triggerKey (entry : UInt16 × RefreshValue) : ℕ := entry.1.toNat

/-- `m_RefreshClassValues`. -/
structure RefreshClassValues where
  entries : List (UInt16 × RefreshValue)
  sorted : Multimap.Sorted triggerKey entries
  nodup : entries.Nodup

/-- `RequestValue` of a class, for the queue of requests. -/
structure ValueRequest where
  cc : UInt8
  requestflags : UInt8
  index : UInt16
  inst : UInt8
  deriving DecidableEq

namespace RefreshClassValues

/-- A new command class has none. -/
def empty : RefreshClassValues where
  entries := []
  sorted := List.Pairwise.nil
  nodup := List.nodup_nil

/-- A target that is not there is inserted. -/
def add (values : RefreshClassValues) (sourceIdx : UInt16) (arcc : RefreshValue) :
    RefreshClassValues :=
  if h : (sourceIdx, arcc) ∈ values.entries then values
  else
    { entries := Multimap.insert triggerKey (sourceIdx, arcc) values.entries
      sorted := Multimap.sorted_insert _ values.sorted
      nodup := Multimap.nodup_insert values.nodup h }

/-! ## Reading -/

/-- The target of an element: its attributes are looked up one after the other. -/
def readTarget (child : TiXmlElement) : Option RefreshValue :=
  (child.queryIntAttribute "CommandClass").bind fun cc =>
    (child.queryIntAttribute "RequestFlags").bind fun requestflags =>
      (child.queryIntAttribute "Index").map fun index =>
        { cc := cc.toUInt32.toUInt8
          requestflags := requestflags.toUInt32.toUInt8
          index := index.toUInt32.toUInt16 }

/-- The body of the loop of `ReadValueRefreshXML`. -/
def readChild (sourceIdx : UInt16) (values : RefreshClassValues) (child : TiXmlElement) :
    RefreshClassValues :=
  if child.value = "RefreshClassValue" then
    match readTarget child with
    | none => values
    | some arcc => values.add sourceIdx arcc
  else values

/-- `CommandClass::ReadValueRefreshXML`. Without an index a number is read that was not set. -/
def readValueRefreshXML (values : RefreshClassValues) (ccElement : TiXmlElement) :
    Option RefreshClassValues :=
  (ccElement.queryIntAttribute "Index").map fun temp =>
    let sourceIdx := temp.toUInt32.toUInt16
    if values.entries.any fun entry => entry.1 == sourceIdx then values
    else ccElement.childElements.foldl (readChild sourceIdx) values

/-! ## Writing -/

/-- The loop of `WriteXML`: the elements that are done, and the one that gets targets. -/
structure Writing where
  elements : List TiXmlElement
  refreshElement : Option TiXmlElement
  sourceidx : UInt16

def classElement (rcc : RefreshValue) : TiXmlElement :=
  let element := (XmlElement.create "RefreshClassValue").setIntAttribute "CommandClass"
    (Int32.ofInt rcc.cc.toNat)
  let element := element.setIntAttribute "RequestFlags" (Int32.ofInt rcc.requestflags.toNat)
  element.setIntAttribute "Index" (Int32.ofInt rcc.index.toNat)

/-- A new element for the targets of an index. -/
def triggerElement (sourceidx : UInt16) : TiXmlElement :=
  (XmlElement.create "TriggerRefreshValue").setIntAttribute "Index" (Int32.ofInt sourceidx.toNat)

/-- The element of an entry: that of the one before, if the index is the same. -/
def Writing.turn (writing : Writing) (sourceidx : UInt16) : Writing :=
  if writing.sourceidx ≠ sourceidx then
    { elements := writing.elements ++ writing.refreshElement.toList
      refreshElement := some (triggerElement sourceidx)
      sourceidx := sourceidx }
  else writing

/-- The body of the loop of `WriteXML`. -/
def writeEntry (writing : Writing) (entry : UInt16 × RefreshValue) : Writing :=
  let writing := writing.turn entry.1
  { writing with
    refreshElement :=
      writing.refreshElement.map (·.linkEndChild (.element (classElement entry.2))) }

/-- All elements that are written. -/
def Writing.done (writing : Writing) : List TiXmlElement :=
  writing.elements ++ writing.refreshElement.toList

/-- The elements that `WriteXML` adds to that of its class. -/
def writeXML (values : RefreshClassValues) : List TiXmlElement :=
  (values.entries.foldl writeEntry { elements := [], refreshElement := none, sourceidx := 0 }).done

/-! ## Triggers -/

/-- The loop of `CheckForRefreshValues`, with the classes that the node has. -/
def requestTargets (classes : UInt8 → Bool) (index : UInt16) (inst : UInt8) :
    List (UInt16 × RefreshValue) → Bool × List ValueRequest
  | [] => (true, [])
  | (sourceIdx, rcc) :: entries =>
      if sourceIdx ≠ index then (false, [])
      else
        let rest := requestTargets classes index inst entries
        (rest.1,
          (if classes rcc.cc then [⟨rcc.cc, rcc.requestflags, rcc.index, inst⟩] else []) ++ rest.2)

/-- `CommandClass::CheckForRefreshValues`, for a value of an index and an instance. The search
gives the first entry of the index. -/
def checkForRefreshValues (node : Option (UInt8 → Bool)) (values : RefreshClassValues)
    (index : UInt16) (inst : UInt8) : Bool × List ValueRequest :=
  let entries := Multimap.find triggerKey index.toNat values.entries
  if entries.isEmpty then (false, [])
  else
    match node with
    | none => (true, [])
    | some classes => requestTargets classes index inst entries

/-! ## Entries that are added -/

@[ext] theorem ext {values values' : RefreshClassValues} (h : values.entries = values'.entries) :
    values = values' := by
  cases values
  cases values'
  simp_all

variable {values : RefreshClassValues} {sourceIdx : UInt16} {arcc : RefreshValue}

/-- A new target of the last index goes to the end. -/
theorem entries_add_of_le (hnew : (sourceIdx, arcc) ∉ values.entries)
    (hle : ∀ entry ∈ values.entries, entry.1 ≤ sourceIdx) :
    (values.add sourceIdx arcc).entries = values.entries ++ [(sourceIdx, arcc)] := by
  rw [add, dif_neg hnew]
  exact Multimap.insert_of_le fun entry hentry => UInt16.le_iff_toNat_le.mp (hle entry hentry)

theorem readTarget_classElement (rcc : RefreshValue) :
    readTarget (classElement rcc) = some rcc := by
  have hcc : (classElement rcc).queryIntAttribute "CommandClass" =
      some (Int32.ofInt rcc.cc.toNat) := by
    rw [classElement, XmlElement.queryIntAttribute_setIntAttribute_of_ne _ (by decide),
      XmlElement.queryIntAttribute_setIntAttribute_of_ne _ (by decide),
      XmlElement.queryIntAttribute_setIntAttribute]
  have hflags : (classElement rcc).queryIntAttribute "RequestFlags" =
      some (Int32.ofInt rcc.requestflags.toNat) := by
    rw [classElement, XmlElement.queryIntAttribute_setIntAttribute_of_ne _ (by decide),
      XmlElement.queryIntAttribute_setIntAttribute]
  have hindex : (classElement rcc).queryIntAttribute "Index" =
      some (Int32.ofInt rcc.index.toNat) :=
    XmlElement.queryIntAttribute_setIntAttribute _ _ _
  rw [readTarget, hcc, hflags, hindex]
  simp only [Option.bind_some, Option.map_some, toUInt8_ofInt, toUInt16_ofInt, UInt8.ofNat_toNat,
    UInt16.ofNat_toNat]

theorem readChild_classElement (sourceIdx : UInt16) (values : RefreshClassValues)
    (rcc : RefreshValue) :
    readChild sourceIdx values (classElement rcc) = values.add sourceIdx rcc := by
  have hname : (classElement rcc).value = "RefreshClassValue" := rfl
  rw [readChild, if_pos hname, readTarget_classElement]

/-- An element is read when no entry has its index yet. -/
theorem readValueRefreshXML_eq {ccElement : TiXmlElement}
    (hindex : ccElement.queryIntAttribute "Index" = some (Int32.ofInt sourceIdx.toNat))
    (hnew : ∀ entry ∈ values.entries, entry.1 ≠ sourceIdx) :
    values.readValueRefreshXML ccElement =
      some (ccElement.childElements.foldl (readChild sourceIdx) values) := by
  have hnone : (values.entries.any fun entry => entry.1 == sourceIdx) = false := by
    rw [List.any_eq_false]
    exact fun entry hentry => by simpa using hnew entry hentry
  rw [readValueRefreshXML, hindex, Option.map_some, toUInt16_ofInt, UInt16.ofNat_toNat]
  exact congrArg some (if_neg (by simp [hnone]))

/-! ## What is written is read -/

/-- The entries that are restored. -/
def restored (entries : List (UInt16 × RefreshValue)) : List (UInt16 × RefreshValue) :=
  entries.filter fun entry => entry.1 ≠ 0

/-- What has been written of some entries: nothing as long as their index is zero, and then
elements of which the last one has the targets of the last index. -/
inductive Writes : List (UInt16 × RefreshValue) → Writing → Prop
  | lost {past} (hzero : ∀ entry ∈ past, entry.1 = 0) : Writes past ⟨[], none, 0⟩
  | begun {past elements element sourceidx} {before : RefreshClassValues}
      (hread : elements.foldlM readValueRefreshXML empty = some before)
      (hbefore : ∀ entry ∈ before.entries, entry.1 < sourceidx)
      (hindex : element.queryIntAttribute "Index" = some (Int32.ofInt sourceidx.toNat))
      (hchildren : (element.childElements.foldl (readChild sourceidx) before).entries =
        restored past)
      (hle : ∀ entry ∈ past, entry.1 ≤ sourceidx) (hlast : ∃ entry ∈ past, entry.1 = sourceidx)
      (hne : sourceidx ≠ 0) :
      Writes past ⟨elements, some element, sourceidx⟩

theorem mem_restored {entry : UInt16 × RefreshValue} {past : List (UInt16 × RefreshValue)}
    (h : entry ∈ restored past) : entry ∈ past := (List.mem_filter.mp h).1

theorem restored_append (past : List (UInt16 × RefreshValue)) {entry : UInt16 × RefreshValue}
    (h : entry.1 ≠ 0) : restored (past ++ [entry]) = restored past ++ [entry] := by
  rw [restored, List.filter_append, restored, List.filter_cons_of_pos (by simpa using h),
    List.filter_nil]

theorem childElements_linkEndChild (element child : TiXmlElement) :
    (element.linkEndChild (.element child)).childElements = element.childElements ++ [child] := by
  simp [XmlElement.childElements, XmlElement.linkEndChild, TiXmlNode.toElement]

/-- A new element with the target of an entry behind all others. -/
theorem writes_trigger {past : List (UInt16 × RefreshValue)} {entry : UInt16 × RefreshValue}
    {elements : List TiXmlElement} {before : RefreshClassValues}
    (hread : elements.foldlM readValueRefreshXML empty = some before)
    (hrestored : before.entries = restored past) (hlt : ∀ entry' ∈ past, entry'.1 ≤ entry.1)
    (hbefore : ∀ entry' ∈ before.entries, entry'.1 < entry.1) (hne : entry.1 ≠ 0) :
    Writes (past ++ [entry])
      ⟨elements, some ((triggerElement entry.1).linkEndChild (.element (classElement entry.2))),
        entry.1⟩ := by
  have hindex : (triggerElement entry.1).queryIntAttribute "Index" =
      some (Int32.ofInt entry.1.toNat) := XmlElement.queryIntAttribute_setIntAttribute _ _ _
  refine .begun hread hbefore hindex ?_ ?_ ⟨entry, by simp, rfl⟩ hne
  · have hchildren : (triggerElement entry.1).childElements = [] := rfl
    have hnew : (entry.1, entry.2) ∉ before.entries := fun hmem =>
      UInt16.lt_irrefl _ (hbefore _ hmem)
    rw [childElements_linkEndChild, hchildren, List.nil_append, List.foldl_cons, List.foldl_nil,
      readChild_classElement,
      entries_add_of_le hnew fun entry' hentry => UInt16.le_of_lt (hbefore entry' hentry),
      hrestored, restored_append past hne]
  · intro entry' hentry
    cases List.mem_append.mp hentry with
    | inl hpast => exact hlt entry' hpast
    | inr hlast =>
        rw [List.mem_singleton.mp hlast]
        exact UInt16.le_refl _

/-- One entry more, behind the others. -/
theorem writes_writeEntry {past : List (UInt16 × RefreshValue)} {writing : Writing}
    (h : Writes past writing) {entry : UInt16 × RefreshValue}
    (hle : ∀ entry' ∈ past, entry'.1 ≤ entry.1) (hnew : entry ∉ past) :
    Writes (past ++ [entry]) (writeEntry writing entry) := by
  cases h with
  | lost hzero =>
      by_cases hfirst : entry.1 = 0
      · have hsame : writeEntry ⟨[], none, 0⟩ entry = ⟨[], none, 0⟩ := by
          rw [writeEntry, Writing.turn, hfirst]
          rfl
        rw [hsame]
        refine .lost fun entry' hentry => ?_
        cases List.mem_append.mp hentry with
        | inl hpast => exact hzero entry' hpast
        | inr hlast => exact List.mem_singleton.mp hlast ▸ hfirst
      · have hturn : writeEntry ⟨[], none, 0⟩ entry =
            ⟨[], some ((triggerElement entry.1).linkEndChild (.element (classElement entry.2))),
              entry.1⟩ := by
          rw [writeEntry, Writing.turn, if_pos (Ne.symm hfirst)]
          rfl
        have hnone : restored past = [] := by
          rw [restored, List.filter_eq_nil_iff]
          exact fun entry' hentry => by simp [hzero entry' hentry]
        rw [hturn]
        exact writes_trigger rfl hnone.symm hle (fun entry' hentry => nomatch hentry) hfirst
  | @begun elements element sourceidx before hread hbefore hindex hchildren hpast hlast hne =>
      obtain ⟨last, hmem, hlast⟩ := hlast
      have hbehind : sourceidx ≤ entry.1 := hlast ▸ hle last hmem
      by_cases hsame : sourceidx = entry.1
      · -- the element gets one target more
        subst hsame
        have hturn : writeEntry ⟨elements, some element, entry.1⟩ entry =
            ⟨elements, some (element.linkEndChild (.element (classElement entry.2))),
              entry.1⟩ := by
          rw [writeEntry, Writing.turn, if_neg (not_not_intro rfl)]
          rfl
        rw [hturn]
        refine .begun hread hbefore hindex ?_ ?_ ⟨entry, by simp, rfl⟩ hne
        · rw [childElements_linkEndChild, List.foldl_append, List.foldl_cons, List.foldl_nil,
            readChild_classElement, entries_add_of_le, hchildren, restored_append past hne]
          · rw [hchildren]
            exact fun hrestored => hnew (mem_restored hrestored)
          · rw [hchildren]
            exact fun entry' hentry => hpast entry' (mem_restored hentry)
        · intro entry' hentry
          cases List.mem_append.mp hentry with
          | inl hmem => exact hpast entry' hmem
          | inr hmem =>
              rw [List.mem_singleton.mp hmem]
              exact UInt16.le_refl _
      · -- the element is done, and a new one begins
        have hturn : writeEntry ⟨elements, some element, sourceidx⟩ entry =
            ⟨elements ++ [element],
              some ((triggerElement entry.1).linkEndChild (.element (classElement entry.2))),
              entry.1⟩ := by
          rw [writeEntry, Writing.turn, if_pos hsame]
          rfl
        have habove : sourceidx < entry.1 := UInt16.lt_of_le_of_ne hbehind hsame
        have hdone : (elements ++ [element]).foldlM readValueRefreshXML empty =
            some (element.childElements.foldl (readChild sourceidx) before) := by
          rw [List.foldlM_append, hread]
          change List.foldlM readValueRefreshXML before [element] = _
          rw [List.foldlM_cons, readValueRefreshXML_eq hindex fun entry' hentry =>
            UInt16.ne_of_lt (hbefore entry' hentry)]
          rfl
        rw [hturn]
        refine writes_trigger hdone hchildren hle ?_ ?_
        · rw [hchildren]
          exact fun entry' hentry =>
            UInt16.lt_of_le_of_lt (hpast entry' (mem_restored hentry)) habove
        · exact fun hzero => UInt16.not_lt_zero (hzero ▸ habove)

theorem writes_foldl (entries : List (UInt16 × RefreshValue))
    (hsorted : Multimap.Sorted triggerKey entries) (hnodup : entries.Nodup) :
    Writes entries (entries.foldl writeEntry ⟨[], none, 0⟩) := by
  induction entries using List.reverseRecOn with
  | nil => exact .lost fun entry hentry => nomatch hentry
  | append_singleton past entry ih =>
      obtain ⟨hsortedPast, -, hle⟩ := List.pairwise_append.mp hsorted
      obtain ⟨hnodupPast, -, hdisjoint⟩ := List.nodup_append.mp hnodup
      rw [List.foldl_append, List.foldl_cons, List.foldl_nil]
      apply writes_writeEntry (ih hsortedPast hnodupPast)
      · intro entry' hentry
        exact UInt16.le_iff_toNat_le.mpr (hle entry' hentry entry (List.mem_singleton_self entry))
      · intro hmem
        exact hdisjoint entry hmem entry (List.mem_singleton_self entry) rfl

/-- What is written restores all targets but those of the index zero. -/
theorem read_writeXML (values : RefreshClassValues) :
    ∃ values', values.writeXML.foldlM readValueRefreshXML empty = some values' ∧
      values'.entries = restored values.entries := by
  have hwrites := writes_foldl values.entries values.sorted values.nodup
  rw [writeXML]
  generalize values.entries.foldl writeEntry ⟨[], none, 0⟩ = writing at hwrites ⊢
  cases hwrites with
  | lost hzero =>
      refine ⟨empty, rfl, (List.filter_eq_nil_iff.mpr fun entry hentry => ?_).symm⟩
      simp [hzero entry hentry]
  | @begun elements element sourceidx before hread hbefore hindex hchildren hle hlast hne =>
      refine ⟨_, ?_, hchildren⟩
      rw [Writing.done, List.foldlM_append, hread]
      change List.foldlM readValueRefreshXML before [element] = _
      rw [List.foldlM_cons, readValueRefreshXML_eq hindex fun entry' hentry =>
        UInt16.ne_of_lt (hbefore entry' hentry)]
      rfl

theorem restored_iff (values : RefreshClassValues) :
    values.writeXML.foldlM readValueRefreshXML empty = some values ↔
      ∀ target, (0, target) ∉ values.entries := by
  obtain ⟨values', hread, hrestored⟩ := read_writeXML values
  have hsame : values' = values ↔ restored values.entries = values.entries := by
    rw [← hrestored]
    exact ⟨congrArg entries, fun h => ext h⟩
  rw [hread, Option.some.injEq, hsame, restored, List.filter_eq_self]
  constructor
  · intro h target hmem
    have hne := h _ hmem
    simp at hne
  · rintro h ⟨index, target⟩ hmem
    have hne : index ≠ 0 := by
      rintro rfl
      exact h target hmem
    simpa using hne

/-! ## What is requested -/

/-- The targets of an index. -/
def targets (values : RefreshClassValues) (index : UInt16) : List RefreshValue :=
  (values.entries.filter fun entry => entry.1 = index).map Prod.snd

theorem nodup_targets (values : RefreshClassValues) (index : UInt16) :
    (values.targets index).Nodup := by
  apply List.Nodup.map_on _ (values.nodup.filter _)
  intro entry hentry entry' hentry' hsame
  have hindex : entry.1 = index := by simpa using (List.mem_filter.mp hentry).2
  have hindex' : entry'.1 = index := by simpa using (List.mem_filter.mp hentry').2
  exact Prod.ext (hindex.trans hindex'.symm) hsame

/-- The requests of some targets, for the classes of a node. -/
def requests (classes : UInt8 → Bool) (inst : UInt8) (targets : List RefreshValue) :
    List ValueRequest :=
  (targets.filter fun rcc => classes rcc.cc).map fun rcc =>
    ⟨rcc.cc, rcc.requestflags, rcc.index, inst⟩

/-- The loop ends behind the entries with the index. -/
theorem requestTargets_eq (classes : UInt8 → Bool) (index : UInt16) (inst : UInt8)
    (entries : List (UInt16 × RefreshValue)) :
    (requestTargets classes index inst entries).2 =
      requests classes inst ((entries.takeWhile fun entry => entry.1 = index).map Prod.snd) := by
  induction entries with
  | nil => rfl
  | cons entry entries ih =>
      obtain ⟨sourceIdx, rcc⟩ := entry
      by_cases hsame : sourceIdx = index
      · cases hclass : classes rcc.cc <;> simp [requestTargets, requests, hsame, hclass, ih]
      · simp [requestTargets, requests, hsame]

theorem checkForRefreshValues_eq (classes : UInt8 → Bool) (values : RefreshClassValues)
    (index : UInt16) (inst : UInt8) :
    (values.checkForRefreshValues (some classes) index inst).2 =
      requests classes inst (values.targets index) := by
  have hkey : (fun entry : UInt16 × RefreshValue => decide (triggerKey entry = index.toNat)) =
      fun entry => decide (entry.1 = index) := by
    funext entry
    simp [triggerKey, UInt16.toNat_inj]
  have hfind := Multimap.takeWhile_find (k := index.toNat) values.sorted
  rw [hkey] at hfind
  have hloop := requestTargets_eq classes index inst
    (Multimap.find triggerKey index.toNat values.entries)
  rw [hfind] at hloop
  rw [targets, ← hloop, checkForRefreshValues]
  cases Multimap.find triggerKey index.toNat values.entries with
  | nil => rfl
  | cons entry entries => rfl

end RefreshClassValues

/-- Triggers come back from the cache when none is of the index zero, and each target of an
index is requested once if the node has its class. -/
theorem refresh_triggers_restored_iff (values : RefreshClassValues) (classes : UInt8 → Bool)
    (index : UInt16) (inst : UInt8) :
    (values.writeXML.foldlM RefreshClassValues.readValueRefreshXML .empty = some values ↔
        ∀ target, (0, target) ∉ values.entries) ∧
      (values.checkForRefreshValues (some classes) index inst).2 =
        RefreshClassValues.requests classes inst (values.targets index) ∧
      (values.targets index).Nodup :=
  ⟨values.restored_iff, values.checkForRefreshValues_eq classes index inst,
    values.nodup_targets index⟩

/-- The trigger of the index zero in the configuration of a dimmer: the class 51 with the index
255 is lost. -/
theorem index_zero_lost :
    let values := RefreshClassValues.empty.add 0 ⟨51, 0, 255⟩
    values.entries = [(0, ⟨51, 0, 255⟩)] ∧ values.writeXML = [] := ⟨rfl, rfl⟩

end OpenZWave

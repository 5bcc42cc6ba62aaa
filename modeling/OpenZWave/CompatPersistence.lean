import OpenZWave.CompatOptions
import OpenZWave.Lib.Sweep

/-!
# Keeping the options

The options of a manager are written to the cache and read into a new one that has the same
flags enabled. Of the elements of a flag the reader takes the first, so what is written of
an array with two values that are not the default comes back with one of them.
-/

namespace OpenZWave

open NumberText Sweep

/-! ## The text of a value -/

namespace FlagKind

/-- The number that a value is written as. -/
theorem numeral_byte (value : UInt8) : Numeral 10 (print .byte value) value.toNat := by
  have hless : value.toNat < 2 ^ 8 := value.toNat_lt
  exact numeral_printInt (i := value.toNat) (by omega) (by omega)

theorem numeral_short (value : UInt16) : Numeral 10 (print .short value) value.toNat := by
  have hless : value.toNat < 2 ^ 16 := value.toNat_lt
  exact numeral_printInt (i := value.toNat) (by omega) (by omega)

theorem numeral_int (value : UInt32) : Numeral 10 (print .int value) value.toInt32.toInt := by
  have hlow := value.toInt32.le_toInt
  have hhigh := value.toInt32.toInt_lt
  exact numeral_printInt (by omega) (by omega)

theorem cStr_print {kind : FlagKind} (value : kind.Carrier) :
    cStr (kind.print value) = kind.print value := by
  cases kind with
  | bool => cases value <;> rfl
  | byte => exact (numeral_byte value).cStr (Or.inl rfl)
  | short => exact (numeral_short value).cStr (Or.inl rfl)
  | int => exact (numeral_int value).cStr (Or.inl rfl)

theorem parse_print_byte (value : UInt8) : parse .byte (print .byte value) = value := by
  have hless : value.toNat < 2 ^ 8 := value.toNat_lt
  have hread : UInt32.ofInt (strtol 10 (print .byte value)).1 = value.toUInt32 := by
    rw [(numeral_byte value).2, ofInt_natCast (by omega), UInt32.ofNat_uInt8ToNat]
  have hfits : ¬ value.toUInt32 > 0xFF := by
    simp [UInt32.lt_iff_toNat_lt]
    omega
  simp only [parse, hread, if_neg hfits]
  exact UInt8.toUInt8_toUInt32 value

theorem parse_print_short (value : UInt16) : parse .short (print .short value) = value := by
  have hless : value.toNat < 2 ^ 16 := value.toNat_lt
  have hread : UInt32.ofInt (strtol 10 (print .short value)).1 = value.toUInt32 := by
    rw [(numeral_short value).2, ofInt_natCast (by omega), UInt32.ofNat_uInt16ToNat]
  have hfits : ¬ value.toUInt32 > 0xFFFF := by
    simp [UInt32.lt_iff_toNat_lt]
    omega
  simp only [parse, hread, if_neg hfits]
  exact UInt16.toUInt16_toUInt32 value

/-- A value is read as it was written. -/
theorem parse_print {kind : FlagKind} (value : kind.Carrier) :
    kind.parse (kind.print value) = value := by
  cases kind with
  | bool => cases value <;> rfl
  | byte => exact parse_print_byte value
  | short => exact parse_print_short value
  | int =>
      change UInt32.ofInt (strtol 10 (print .int value)).1 = value
      rw [(numeral_int value).2]
      exact ofInt_toInt_toInt32 value

end FlagKind

/-! ## One flag -/

namespace CompatOptionFlagStorage

/-- The storage of a flag that has just been enabled. -/
structure Plain (s : CompatOptionFlagStorage) : Prop where
  unchanged : s.changed = false
  empty : ∀ kind, s.valArray kind = ∅

/-- What the setters and the reader leave as it was when the flag was enabled. -/
structure Derived (s₀ s : CompatOptionFlagStorage) : Prop where
  type : s.type = s₀.type
  unchanged : s.changed = false → s = s₀
  default : s₀.type.isArray = true → s.val s₀.type.kind = s₀.val s₀.type.kind

/-- An index with a value that is not the default. -/
def Differs (s : CompatOptionFlagStorage) (index : UInt32) : Prop :=
  ∃ value, (s.valArray s.type.kind)[index]? = some value ∧ value ≠ s.val s.type.kind

/-- At most one index that can be asked for has a value that is not the default. -/
def AtMostOne (s : CompatOptionFlagStorage) : Prop :=
  s.type.isArray = true → ∀ i j, i ≠ -1 → j ≠ -1 → s.Differs i → s.Differs j → i = j

/-- The answers are the same. -/
def SameValues (s s' : CompatOptionFlagStorage) : Prop :=
  s'.type = s.type ∧ ∀ index, s'.valueAt s.type.kind index = s.valueAt s.type.kind index

variable {s₀ s : CompatOptionFlagStorage} {name : String}

theorem Derived.refl (s : CompatOptionFlagStorage) : Derived s s :=
  ⟨rfl, fun _ => rfl, fun _ => rfl⟩

/-- Reading a value of its own stores it, if it is not there already. -/
theorem read_single (hsingle : s.type.isArray = false) (value : List Char)
    (valElement : TiXmlElement) :
    ∃ s', s.read value valElement = some s' ∧ s'.type = s.type ∧
      s'.val s.type.kind = s.type.kind.parse value := by
  by_cases hsame : s.val s.type.kind = s.type.kind.parse value
  · exact ⟨s, by simp [read, hsame], rfl, hsame⟩
  · refine ⟨{ s with
      val := Function.update s.val s.type.kind (s.type.kind.parse value)
      changed := true }, by simp [read, hsame, hsingle], rfl, ?_⟩
    exact Function.update_self _ _ _

/-- A value of its own comes back. -/
theorem restored_single (hderived : Derived s₀ s) (hsingle : s.type.isArray = false) :
    ∃ s', s₀.readEntry (s.writeEntry name).head? = some s' ∧ SameValues s s' := by
  have htype := hderived.type
  by_cases hchanged : s.changed = false
  · have hsame := hderived.unchanged hchanged
    refine ⟨s₀, ?_, ?_⟩
    · simp [writeEntry, hchanged, readEntry]
    · simp [SameValues, hsame]
  · obtain ⟨s', hread, htype', hval⟩ := read_single (htype ▸ hsingle : s₀.type.isArray = false)
      (s.type.kind.print (s.val s.type.kind))
      ((XmlElement.create name).linkEndChild (.text (s.type.kind.print (s.val s.type.kind))))
    rw [← htype, FlagKind.parse_print] at hval
    refine ⟨s', ?_, htype'.trans htype.symm, fun index => ?_⟩
    · simpa [writeEntry, hchanged, hsingle, readEntry, XmlElement.getText, XmlElement.linkEndChild,
        XmlElement.create, FlagKind.cStr_print] using hread
    · simp [valueAt, htype', ← htype, hsingle, hval]

/-- The values of an array that are written, in the order of their indexes. -/
def written (s : CompatOptionFlagStorage) : List (UInt32 × s.type.kind.Carrier) :=
  (s.valArray s.type.kind).toList.filter fun entry => entry.2 ≠ s.val s.type.kind

theorem mem_written {entry : UInt32 × s.type.kind.Carrier} :
    entry ∈ s.written ↔ (s.valArray s.type.kind)[entry.1]? = some entry.2 ∧
      entry.2 ≠ s.val s.type.kind := by
  rw [written, List.mem_filter, decide_eq_true_iff, Std.TreeMap.mem_toList_iff_getElem?_eq_some]

/-- The indexes are written in their order. -/
theorem first_le {entry entry' : UInt32 × s.type.kind.Carrier} {entries : List _}
    (hwritten : s.written = entry :: entries) (h : entry' ∈ s.written) :
    entry.1.toNat ≤ entry'.1.toNat := by
  have hsorted : s.written.Pairwise fun a b => compare a.1 b.1 = .lt :=
    Std.TreeMap.ordered_keys_toList.filter _
  rw [hwritten] at hsorted h
  rcases List.mem_cons.mp h with rfl | hmem
  · exact Nat.le_refl _
  · have hless := Std.compare_eq_lt.mp ((List.pairwise_cons.mp hsorted).1 entry' hmem)
    exact (UInt32.lt_iff_toNat_lt.mp hless).le

theorem differs_iff {index : UInt32} : s.Differs index ↔ ∃ value, (index, value) ∈ s.written := by
  simp only [Differs, mem_written]

/-- The value at an index that is not the default is the one stored there. -/
theorem valueAt_of_mem_written (harray : s.type.isArray = true)
    {entry : UInt32 × s.type.kind.Carrier} (hentry : entry ∈ s.written) (hindex : entry.1 ≠ -1) :
    s.valueAt s.type.kind entry.1 = entry.2 := by
  simp [valueAt, harray, hindex, (mem_written.mp hentry).1]

theorem valueAt_eq_default (harray : s.type.isArray = true) {index : UInt32}
    (h : index = -1 ∨ ¬ s.Differs index) : s.valueAt s.type.kind index = s.val s.type.kind := by
  rw [valueAt, if_pos harray]
  split
  · rfl
  · rename_i hindex
    have hsame := h.resolve_left hindex
    cases hvalue : (s.valArray s.type.kind)[index]? with
    | none => rfl
    | some value =>
        by_contra hne
        exact hsame ⟨value, hvalue, hne⟩

/-- What comes back of an array: the first of the values that are not the default. -/
def restoredAt (s : CompatOptionFlagStorage) (index : UInt32) : s.type.kind.Carrier :=
  match s.written with
  | [] => s.val s.type.kind
  | entry :: _ => if index ≠ -1 ∧ index = entry.1 then entry.2 else s.val s.type.kind

theorem readEntry_array (hplain : Plain s₀) (hderived : Derived s₀ s)
    (harray : s.type.isArray = true) :
    ∃ s', s₀.readEntry (s.writeEntry name).head? = some s' ∧ s'.type = s.type ∧
      ∀ index, s'.valueAt s.type.kind index = s.restoredAt index := by
  obtain ⟨type, changed, val, valArray⟩ := s
  obtain ⟨type₀, changed₀, val₀, valArray₀⟩ := s₀
  obtain rfl : type = type₀ := hderived.type
  have hdefault : val type.kind = val₀ type.kind := hderived.default harray
  have hempty : valArray₀ type.kind = ∅ := hplain.empty type.kind
  have hwrite : (writeEntry name ⟨type, changed, val, valArray⟩).head? =
      (written ⟨type, changed, val, valArray⟩).head?.map fun entry =>
        ((XmlElement.create name).setIntAttribute "index" entry.1.toInt32).linkEndChild
          (.text (type.kind.print entry.2)) := by
    by_cases hchanged : changed = false
    · have hsame := hderived.unchanged hchanged
      injection hsame with _ _ _ harrays
      simp [writeEntry, written, hchanged, harrays, hempty]
    · simp [writeEntry, written, hchanged, harray]
  rw [hwrite]
  cases hwritten : written ⟨type, changed, val, valArray⟩ with
  | nil =>
      refine ⟨⟨type, changed₀, val₀, valArray₀⟩, rfl, rfl, fun index => ?_⟩
      simp [restoredAt, hwritten, valueAt, harray, hempty, hdefault]
  | cons entry entries =>
      have hentry : val₀ type.kind ≠ entry.2 := by
        have hmem := mem_written.mp (hwritten ▸ List.mem_cons_self :
          entry ∈ written ⟨type, changed, val, valArray⟩)
        exact hdefault ▸ hmem.2.symm
      have hindex :
          UInt32.ofInt (strtol 10 (cStr (printInt entry.1.toInt32.toInt))).1 = entry.1 := by
        have hnumeral := FlagKind.numeral_int entry.1
        rw [FlagKind.print] at hnumeral
        rw [hnumeral.cStr (Or.inl rfl), hnumeral.2]
        exact ofInt_toInt_toInt32 entry.1
      refine ⟨⟨type, true, val₀, Function.update valArray₀ type.kind
        ((valArray₀ type.kind).insertIfNew entry.1 entry.2)⟩, ?_, rfl, fun index => ?_⟩
      · simp [readEntry, XmlElement.getText, XmlElement.linkEndChild, XmlElement.setIntAttribute,
          XmlElement.setAttribute, XmlElement.create, FlagKind.cStr_print, read, hentry,
          FlagKind.parse_print, harray, XmlElement.getAttribute, hindex]
      · have hlookup : ((∅ : Std.TreeMap UInt32 type.kind.Carrier).insertIfNew entry.1
            entry.2)[index]? = if index = entry.1 then some entry.2 else none := by
          simp [Std.TreeMap.getElem?_insertIfNew, eq_comm (a := index)]
        by_cases hlast : index = -1
        · simp [restoredAt, hwritten, valueAt, harray, hdefault, hlast]
        · simp only [restoredAt, hwritten, valueAt, harray, hempty, hdefault, hlast, hlookup,
            Function.update_self, if_true, if_false, ne_eq, not_false_eq_true, true_and]
          split <;> rfl

/-- All of an array comes back if only one index has a value that is not the default. An
index that cannot be asked for is written last. -/
theorem restoredAt_eq_iff (harray : s.type.isArray = true) :
    (∀ index, s.restoredAt index = s.valueAt s.type.kind index) ↔ AtMostOne s := by
  constructor
  · intro hsame _ i j hi hj hdi hdj
    have hfirst : ∀ index, index ≠ -1 → s.Differs index →
        ∃ entry, s.written.head? = some entry ∧ index = entry.1 := by
      intro index hindex hdiffers
      obtain ⟨value, hmem⟩ := differs_iff.mp hdiffers
      have hvalue : s.restoredAt index = value :=
        (hsame index).trans (valueAt_of_mem_written harray hmem hindex)
      have hne : value ≠ s.val s.type.kind := (mem_written.mp hmem).2
      rw [restoredAt] at hvalue
      split at hvalue
      · exact absurd hvalue.symm hne
      · rename_i entry entries hwritten
        split at hvalue
        · rename_i hboth
          exact ⟨entry, by rw [hwritten]; rfl, hboth.2⟩
        · exact absurd hvalue.symm hne
    obtain ⟨entry, hentry, rfl⟩ := hfirst i hi hdi
    obtain ⟨entry', hentry', rfl⟩ := hfirst j hj hdj
    cases hentry.symm.trans hentry'
    rfl
  · intro hone index
    rw [restoredAt]
    split
    · rename_i hwritten
      apply (valueAt_eq_default harray (Or.inr fun hdiffers => ?_)).symm
      obtain ⟨value, hmem⟩ := differs_iff.mp hdiffers
      rw [hwritten] at hmem
      cases hmem
    · rename_i entry entries hwritten
      have hmem : entry ∈ s.written := hwritten ▸ List.mem_cons_self
      split
      · rename_i hboth
        rw [hboth.2, valueAt_of_mem_written harray hmem (hboth.2 ▸ hboth.1)]
      · rename_i hneither
        apply (valueAt_eq_default harray ?_).symm
        by_contra hasked
        obtain ⟨hindex, hdiffers⟩ := not_or.mp hasked
        have hdiffers := not_not.mp hdiffers
        have hne : index ≠ entry.1 := fun heq => hneither ⟨hindex, heq⟩
        by_cases hlast : entry.1 = -1
        · obtain ⟨value, hother⟩ := differs_iff.mp hdiffers
          have hless : entry.1.toNat ≤ index.toNat := first_le hwritten hother
          have hbound : index.toNat < 2 ^ 32 := index.toNat_lt
          have htop : (-1 : UInt32).toNat = 2 ^ 32 - 1 := rfl
          rw [hlast] at hless
          exact hindex (UInt32.toNat_inj.mp (by omega))
        · exact hne (hone harray index entry.1 hindex hlast hdiffers (differs_iff.mpr ⟨_, hmem⟩))

/-- A flag comes back from the first of its elements, if not more than one of its values
had to. -/
theorem restored (hplain : Plain s₀) (hderived : Derived s₀ s) (name : String) :
    ∃ s', s₀.readEntry (s.writeEntry name).head? = some s' ∧ s'.type = s.type ∧
      (SameValues s s' ↔ AtMostOne s) := by
  cases harray : s.type.isArray with
  | false =>
      obtain ⟨s', hread, hsame⟩ := restored_single hderived harray
      refine ⟨s', hread, hsame.1, iff_of_true hsame fun h => ?_⟩
      rw [harray] at h
      cases h
  | true =>
      obtain ⟨s', hread, htype, hvalue⟩ := readEntry_array hplain hderived harray
      refine ⟨s', hread, htype, ?_⟩
      rw [← restoredAt_eq_iff harray, SameValues]
      simp [htype, hvalue]

/-- A setter keeps what `Derived` says. -/
theorem Derived.set {kind : FlagKind} (hderived : Derived s₀ s) (value : kind.Carrier)
    (hsingle : s.type.isArray = false) :
    Derived s₀ { s with changed := true, val := Function.update s.val kind value } where
  type := hderived.type
  unchanged := nofun
  default harray := by
    rw [← hderived.type, hsingle] at harray
    cases harray

theorem Derived.setArray (hderived : Derived s₀ s)
    (valArray : (kind : FlagKind) → Std.TreeMap UInt32 kind.Carrier) :
    Derived s₀ { s with changed := true, valArray := valArray } where
  type := hderived.type
  unchanged := nofun
  default := hderived.default

theorem Derived.readEntry {s' : CompatOptionFlagStorage} {valElement : Option TiXmlElement}
    (hderived : Derived s₀ s) (h : s.readEntry valElement = some s') : Derived s₀ s' := by
  cases valElement with
  | none =>
      cases h
      exact hderived
  | some valElement =>
      obtain ⟨value, -, hread⟩ := Option.bind_eq_some_iff.mp h
      rw [read] at hread
      split at hread
      · cases hread
        exact hderived
      · split at hread
        · obtain ⟨indexVal, -, rfl⟩ := Option.map_eq_some_iff.mp hread
          exact hderived.setArray _
        · rename_i hsingle
          cases hread
          exact hderived.set _ (Bool.eq_false_of_not_eq_true hsingle)

end CompatOptionFlagStorage

/-! ## A manager -/

namespace CompatOptionManager

/-- A manager whose flags have been enabled. -/
structure Enabled (m : CompatOptionManager) : Prop where
  listed : ∀ (name : String) flag, m.enabledCompatFlags[name]? = some flag →
    ∃ available ∈ m.availableFlags.flags, available.name = name ∧ available.flag = flag
  stored : ∀ (name : String) flag, m.enabledCompatFlags[name]? = some flag →
    ∃ s, m.compatVals flag = some s
  named : ∀ flag s, m.compatVals flag = some s →
    ∃ name : String, m.enabledCompatFlags[name]? = some flag
  plain : ∀ flag s, m.compatVals flag = some s → s.Plain

theorem enabled_ofTable (table : FlagTable) (comtype : CompatOptionType) :
    Enabled (ofTable table comtype) := by
  constructor <;> simp [ofTable]

/-- Enabling a flag that the table has. -/
theorem Enabled.enable {m : CompatOptionManager} (h : Enabled m)
    {available : CompatOptionFlagDefintions} (hmem : available ∈ m.availableFlags.flags)
    {s : CompatOptionFlagStorage} (hplain : s.Plain) :
    Enabled { m with
      enabledCompatFlags := m.enabledCompatFlags.insert available.name available.flag
      compatVals := Function.update m.compatVals available.flag (some s) } where
  listed name flag hname := by
    rw [Std.TreeMap.getElem?_insert] at hname
    split at hname
    · rename_i heq
      cases hname
      exact ⟨available, hmem, Std.LawfulEqCmp.eq_of_compare heq, rfl⟩
    · exact h.listed name flag hname
  stored name flag hname := by
    by_cases heq : flag = available.flag
    · subst heq
      exact ⟨s, Function.update_self _ _ _⟩
    · rw [Std.TreeMap.getElem?_insert] at hname
      split at hname
      · cases hname
        exact absurd rfl heq
      · obtain ⟨s', hs'⟩ := h.stored name flag hname
        exact ⟨s', (Function.update_of_ne heq _ _).trans hs'⟩
  named flag s' hs' := by
    by_cases heq : flag = available.flag
    · subst heq
      exact ⟨available.name, Std.TreeMap.getElem?_insert_self⟩
    · obtain ⟨name, hname⟩ := h.named flag s' ((Function.update_of_ne heq _ _).symm.trans hs')
      obtain ⟨available', hmem', rfl, rfl⟩ := h.listed name flag hname
      have hne : ¬ compare available.name available'.name = .eq := fun hcompare =>
        heq (congrArg (·.flag) (List.inj_on_of_nodup_map m.availableFlags.names_nodup hmem' hmem
          (Std.LawfulEqCmp.eq_of_compare hcompare).symm))
      refine ⟨available'.name, ?_⟩
      rw [Std.TreeMap.getElem?_insert, if_neg hne, hname]
  plain flag s' hs' := by
    by_cases heq : flag = available.flag
    · subst heq
      cases (Function.update_self _ _ _).symm.trans hs'
      exact hplain
    · exact h.plain flag s' ((Function.update_of_ne heq _ _).symm.trans hs')

theorem Enabled.plain_storageAt {m : CompatOptionManager} (h : Enabled m)
    (flag : CompatOptionFlags) : (storageAt (m.compatVals flag)).Plain := by
  cases hs : m.compatVals flag with
  | none => exact ⟨rfl, fun _ => rfl⟩
  | some s => exact h.plain flag s hs

theorem Enabled.enableFlag {m : CompatOptionManager} (h : Enabled m) (flag : CompatOptionFlags)
    (defaultval : UInt32) : Enabled (m.enableFlag flag defaultval) := by
  refine (List.foldlRecOn (motive := fun m' =>
    Enabled m' ∧ m'.availableFlags = m.availableFlags) _ _ ⟨h, rfl⟩ ?_).1
  rintro m' ⟨hm', htable⟩ available hmem
  split
  · rename_i hflag
    subst hflag
    have hplain := hm'.plain_storageAt available.flag
    exact ⟨hm'.enable (htable ▸ hmem) ⟨rfl, hplain.empty⟩, htable⟩
  · exact ⟨hm', htable⟩

theorem enabled_enableFlags (table : FlagTable) (comtype : CompatOptionType)
    (enabled : List (CompatOptionFlags × UInt32)) :
    Enabled ((ofTable table comtype).enableFlags enabled) := by
  refine List.foldlRecOn _ _ (enabled_ofTable table comtype) ?_
  intro m hm flag _
  exact hm.enableFlag flag.1 flag.2

/-- A manager that has come about from another one with enabled flags. -/
structure Follows (fresh m : CompatOptionManager) : Prop where
  comtype : m.comtype = fresh.comtype
  enabledCompatFlags : m.enabledCompatFlags = fresh.enabledCompatFlags
  absent : ∀ flag, fresh.compatVals flag = none → m.compatVals flag = none
  present : ∀ flag s₀, fresh.compatVals flag = some s₀ →
    ∃ s, m.compatVals flag = some s ∧ CompatOptionFlagStorage.Derived s₀ s

variable {fresh m : CompatOptionManager}

theorem Follows.refl (m : CompatOptionManager) : Follows m m where
  comtype := rfl
  enabledCompatFlags := rfl
  absent _ h := h
  present _ s₀ h := ⟨s₀, h, .refl s₀⟩

theorem Follows.derived (h : Follows fresh m) {flag : CompatOptionFlags}
    {s : CompatOptionFlagStorage} (hs : m.compatVals flag = some s) :
    ∃ s₀, fresh.compatVals flag = some s₀ ∧ s₀.Derived s := by
  cases hs₀ : fresh.compatVals flag with
  | none => cases (h.absent flag hs₀).symm.trans hs
  | some s₀ =>
      obtain ⟨s', hs', hderived⟩ := h.present flag s₀ hs₀
      cases hs'.symm.trans hs
      exact ⟨s₀, rfl, hderived⟩

/-- A change of one flag that is kept by what `Derived` says. -/
theorem Follows.update (h : Follows fresh m) {flag : CompatOptionFlags}
    {s s' : CompatOptionFlagStorage} (hs : m.compatVals flag = some s)
    (hkeeps : ∀ s₀ : CompatOptionFlagStorage, s₀.Derived s → s₀.Derived s') :
    Follows fresh { m with compatVals := Function.update m.compatVals flag (some s') } where
  comtype := h.comtype
  enabledCompatFlags := h.enabledCompatFlags
  absent flag' hnone := by
    have hne : flag' ≠ flag := by
      rintro rfl
      cases (h.absent flag' hnone).symm.trans hs
    exact (Function.update_of_ne hne _ _).trans (h.absent flag' hnone)
  present flag' s₀ hs₀ := by
    by_cases heq : flag' = flag
    · subst heq
      obtain ⟨s'', hs'', hderived⟩ := h.present flag' s₀ hs₀
      cases hs''.symm.trans hs
      exact ⟨s', Function.update_self _ _ _, hkeeps s₀ hderived⟩
    · obtain ⟨s'', hs'', hderived⟩ := h.present flag' s₀ hs₀
      exact ⟨s'', (Function.update_of_ne heq _ _).trans hs'', hderived⟩

theorem Follows.setFlag (h : Follows fresh m) (kind : FlagKind) (flag : CompatOptionFlags)
    (value : kind.Carrier) (index : UInt32) :
    Follows fresh (m.setFlag kind flag value index).2 := by
  rw [CompatOptionManager.setFlag]
  split
  · exact h
  · rename_i s hs
    split
    · split
      · split
        · exact h
        · exact h.update hs fun _ hderived => hderived.setArray _
      · rename_i hsingle
        exact h.update hs fun _ hderived =>
          hderived.set value (Bool.eq_false_of_not_eq_true hsingle)
    · exact h

theorem Follows.readXML {m' : CompatOptionManager} (hfresh : Enabled fresh) (h : Follows fresh m)
    {ccElement : TiXmlElement} (hread : m.readXML ccElement = some m') : Follows fresh m' := by
  rw [CompatOptionManager.readXML] at hread
  split at hread
  · cases hread
    exact h
  · rename_i compatElement _
    obtain ⟨compatVals, hfold, rfl⟩ := Option.map_eq_some_iff.mp hread
    refine foldlM_inv (fun compatVals =>
      Follows fresh { m with compatVals := compatVals }) ?_ h hfold
    rintro ⟨name, flag⟩ hmem vals vals' hvals hstep
    obtain ⟨s', hentry, rfl⟩ := Option.map_eq_some_iff.mp hstep
    have hname : fresh.enabledCompatFlags[name]? = some flag := by
      rw [← h.enabledCompatFlags]
      exact Std.TreeMap.mem_toList_iff_getElem?_eq_some.mp hmem
    obtain ⟨s₀, hs₀⟩ := hfresh.stored name flag hname
    obtain ⟨s, hs, -⟩ := hvals.present flag s₀ hs₀
    have hstored : storageAt (vals flag) = s := by
      rw [storageAt, show vals flag = some s from hs]
      rfl
    rw [hstored] at hentry
    exact hvals.update hs fun _ hderived => hderived.readEntry hentry

theorem Reachable.follows (hfresh : Enabled fresh) (h : Reachable fresh m) : Follows fresh m := by
  induction h with
  | start => exact .refl fresh
  | change change before applied ih =>
      cases change with
      | setFlagBool flag value index =>
          cases applied
          exact ih.setFlag .bool flag value index
      | setFlagByte flag value index =>
          cases applied
          exact ih.setFlag .byte flag value index
      | setFlagShort flag value index =>
          cases applied
          exact ih.setFlag .short flag value index
      | setFlagInt flag value index =>
          cases applied
          exact ih.setFlag .int flag value index
      | readXML ccElement => exact ih.readXML hfresh applied

/-! ## Writing and reading -/

theorem firstChildElement_writeXML {ccElement : TiXmlElement}
    (hcc : ccElement.firstChildElement m.comtype.xmlTagName = none) :
    (m.writeXML ccElement).firstChildElement m.comtype.xmlTagName = some m.compatElement := by
  have hchildren : (m.writeXML ccElement).childElements =
      ccElement.childElements ++ [m.compatElement] := by
    simp [writeXML, XmlElement.linkEndChild, XmlElement.childElements, TiXmlNode.toElement]
  rw [XmlElement.firstChildElement] at hcc
  rw [XmlElement.firstChildElement, hchildren, List.find?_append, hcc]
  simp [compatElement, XmlElement.create]

theorem nodup_enabledCompatFlags (m : CompatOptionManager) :
    m.enabledCompatFlags.toList.Nodup := by
  apply Std.TreeMap.distinct_keys_toList.imp
  rintro entry _ hne rfl
  exact hne Std.ReflCmp.compare_self

/-- The element of a flag carries its name. -/
theorem value_of_mem_writeEntry {name : String} {s : CompatOptionFlagStorage} {e : TiXmlElement}
    (h : e ∈ s.writeEntry name) : e.value = name := by
  rw [CompatOptionFlagStorage.writeEntry] at h
  split at h
  · cases h
  · split at h
    · obtain ⟨entry, -, rfl⟩ := List.mem_map.mp h
      rfl
    · cases List.mem_singleton.mp h
      rfl

/-- The reader finds the first of the elements of a flag. -/
theorem firstChildElement_compatElement {name : String} {flag : CompatOptionFlags}
    (hname : m.enabledCompatFlags[name]? = some flag) :
    m.compatElement.firstChildElement name =
      ((storageAt (m.compatVals flag)).writeEntry name).head? := by
  have hchildren : m.compatElement.childElements = m.enabledCompatFlags.toList.flatMap fun entry =>
      (storageAt (m.compatVals entry.2)).writeEntry entry.1 := by
    simp [compatElement, XmlElement.childElements, List.filterMap_flatMap, List.filterMap_map,
      Function.comp_def, TiXmlNode.toElement]
  rw [XmlElement.firstChildElement, hchildren]
  refine find?_flatMap (nodup_enabledCompatFlags m) (k := (name, flag))
    (Std.TreeMap.mem_toList_iff_getElem?_eq_some.mpr hname) ?_ ?_
  · intro e he
    exact decide_eq_true (value_of_mem_writeEntry he)
  · rintro ⟨name', flag'⟩ hmem hne e he
    apply decide_eq_false
    rintro rfl
    have hname' := Std.TreeMap.mem_toList_iff_getElem?_eq_some.mp hmem
    have hvalue : e.value = name' := value_of_mem_writeEntry he
    rw [← hvalue, hname] at hname'
    cases hname'
    exact hne (by rw [hvalue])

theorem Enabled.nodup_flags (h : Enabled m) :
    (m.enabledCompatFlags.toList.map fun entry => entry.2).Nodup := by
  apply List.Nodup.map_on _ (nodup_enabledCompatFlags m)
  rintro ⟨name, flag⟩ hmem ⟨name', flag'⟩ hmem' rfl
  obtain ⟨available, havailable, hname, hflag⟩ :=
    h.listed name flag (Std.TreeMap.mem_toList_iff_getElem?_eq_some.mp hmem)
  obtain ⟨available', havailable', hname', hflag'⟩ :=
    h.listed name' flag (Std.TreeMap.mem_toList_iff_getElem?_eq_some.mp hmem')
  have hsame := List.inj_on_of_nodup_map m.availableFlags.flags_nodup havailable havailable'
    (hflag.trans hflag'.symm)
  rw [← hname, ← hname', hsame]

/-- Every flag comes back on its own. -/
theorem exists_readXML_writeXML (hfresh : Enabled fresh) (h : Follows fresh m)
    {ccElement : TiXmlElement} (hcc : ccElement.firstChildElement m.comtype.xmlTagName = none) :
    ∃ m', fresh.readXML (m.writeXML ccElement) = some m' ∧
      (∀ flag, m.compatVals flag = none → m'.compatVals flag = none) ∧
      ∀ flag s, m.compatVals flag = some s → ∃ s', m'.compatVals flag = some s' ∧
        s'.type = s.type ∧ (CompatOptionFlagStorage.SameValues s s' ↔ s.AtMostOne) := by
  have hentries : ∀ entry ∈ fresh.enabledCompatFlags.toList, ∃ s', ∃ s,
      m.compatVals entry.2 = some s ∧
      (storageAt (fresh.compatVals entry.2)).readEntry
        (m.compatElement.firstChildElement entry.1) = some s' ∧
      s'.type = s.type ∧ (CompatOptionFlagStorage.SameValues s s' ↔ s.AtMostOne) := by
    rintro ⟨name, flag⟩ hmem
    have hname := Std.TreeMap.mem_toList_iff_getElem?_eq_some.mp hmem
    obtain ⟨s₀, hs₀⟩ := hfresh.stored name flag hname
    obtain ⟨s, hs, hderived⟩ := h.present flag s₀ hs₀
    obtain ⟨s', hread, hrest⟩ :=
      CompatOptionFlagStorage.restored (hfresh.plain flag s₀ hs₀) hderived name
    refine ⟨s', s, hs, ?_, hrest⟩
    rw [firstChildElement_compatElement (h.enabledCompatFlags ▸ hname), hs, hs₀]
    exact hread
  have : Nonempty CompatOptionFlagStorage := ⟨.fresh⟩
  choose! result stored hstored hread htype hsame using hentries
  have hsteps : ∀ entry ∈ fresh.enabledCompatFlags.toList,
      ((storageAt (fresh.compatVals entry.2)).readEntry
        (m.compatElement.firstChildElement entry.1)).map Option.some =
          some (some (result entry)) := by
    intro entry hentry
    rw [hread entry hentry]
    rfl
  obtain ⟨compatVals, hfold, hown, hother⟩ := foldlM_update
    (fun entry : String × CompatOptionFlags => entry.2)
    (fun entry stored => ((storageAt stored).readEntry
      (m.compatElement.firstChildElement entry.1)).map Option.some)
    (fun compatVals entry => (Option.map_map _ _ _).symm) hfresh.nodup_flags hsteps
  refine ⟨{ fresh with compatVals := compatVals }, ?_, fun flag hnone => ?_, fun flag s hs => ?_⟩
  · have hflags : fresh.readFlags m.compatElement = some { fresh with compatVals := compatVals } :=
      congrArg (Option.map _) hfold
    have hfound := firstChildElement_writeXML hcc
    rw [h.comtype] at hfound
    rw [readXML, hfound]
    exact hflags
  · refine (hother flag fun hmem => ?_).trans ?_
    · obtain ⟨entry, hentry, rfl⟩ := List.mem_map.mp hmem
      cases hnone.symm.trans (hstored entry hentry)
    · cases hs₀ : fresh.compatVals flag with
      | none => rfl
      | some s₀ =>
          obtain ⟨s, hs, -⟩ := h.present flag s₀ hs₀
          cases hnone.symm.trans hs
  · obtain ⟨s₀, hs₀, -⟩ := h.derived hs
    obtain ⟨name, hname⟩ := hfresh.named flag s₀ hs₀
    have hmem := Std.TreeMap.mem_toList_iff_getElem?_eq_some.mpr hname
    cases hs.symm.trans (hstored _ hmem)
    exact ⟨result (name, flag), hown _ hmem, htype _ hmem, hsame _ hmem⟩

/-- The answers for a flag are those of its storage. -/
theorem getFlag_eq_iff {m' : CompatOptionManager} {flag : CompatOptionFlags}
    {s s' : CompatOptionFlagStorage} (hs : m.compatVals flag = some s)
    (hs' : m'.compatVals flag = some s') (htype : s'.type = s.type) :
    (∀ kind index, m'.getFlag kind flag index = m.getFlag kind flag index) ↔
      CompatOptionFlagStorage.SameValues s s' := by
  constructor
  · intro hsame
    refine ⟨htype, fun index => ?_⟩
    have hvalue := hsame s.type.kind index
    simpa [getFlag, hs, hs', htype] using hvalue
  · rintro ⟨-, hvalues⟩ kind index
    by_cases hkind : s.type.kind = kind
    · subst hkind
      simpa [getFlag, hs, hs', htype] using hvalues index
    · simp [getFlag, hs, hs', htype, hkind]

/-- Written and read by a new manager, every question gets the same answer. -/
def RoundTrips (fresh : CompatOptionManager) (ccElement : TiXmlElement) (m : CompatOptionManager) :
    Prop :=
  ∃ m', fresh.readXML (m.writeXML ccElement) = some m' ∧ ∀ flag index,
    m'.getFlagBool flag index = m.getFlagBool flag index ∧
    m'.getFlagByte flag index = m.getFlagByte flag index ∧
    m'.getFlagShort flag index = m.getFlagShort flag index ∧
    m'.getFlagInt flag index = m.getFlagInt flag index

/-- The options come back if and only if each array has at most one value that is not the
default, at the indexes that can be asked for. -/
theorem compatRoundTrips_iff (table : FlagTable) (comtype : CompatOptionType)
    (enabled : List (CompatOptionFlags × UInt32)) {m : CompatOptionManager}
    (h : Reachable ((ofTable table comtype).enableFlags enabled) m) (ccElement : TiXmlElement)
    (hcc : ccElement.firstChildElement m.comtype.xmlTagName = none) :
    RoundTrips ((ofTable table comtype).enableFlags enabled) ccElement m ↔
      ∀ flag s, m.compatVals flag = some s → s.AtMostOne := by
  have hfresh := enabled_enableFlags table comtype enabled
  obtain ⟨m', hread, hnone, hsome⟩ := exists_readXML_writeXML hfresh (h.follows hfresh) hcc
  constructor
  · rintro ⟨m'', hread', hsame⟩ flag s hs
    cases hread.symm.trans hread'
    obtain ⟨s', hs', htype, hiff⟩ := hsome flag s hs
    refine hiff.mp ((getFlag_eq_iff hs hs' htype).mp fun kind index => ?_)
    obtain ⟨hbool, hbyte, hshort, hint⟩ := hsame flag index
    cases kind with
    | bool => exact hbool
    | byte => exact hbyte
    | short => exact hshort
    | int => exact hint
  · intro hone
    have hsame : ∀ kind flag index, m'.getFlag kind flag index = m.getFlag kind flag index := by
      intro kind flag index
      cases hs : m.compatVals flag with
      | none => simp [getFlag, hs, hnone flag hs]
      | some s =>
          obtain ⟨s', hs', htype, hiff⟩ := hsome flag s hs
          exact (getFlag_eq_iff hs hs' htype).mpr (hiff.mpr (hone flag s hs)) kind index
    exact ⟨m', hread, fun flag index => ⟨hsame .bool flag index, hsame .byte flag index,
      hsame .short flag index, hsame .int flag index⟩⟩

/-- A new manager in which `VerifyChanged` is enabled. -/
def verifying : CompatOptionManager :=
  (create .compatibility).enableFlags [(.verifyChanged, 0)]

/-- Two of its indexes have been set. -/
def twoIndexes : CompatOptionManager :=
  ((verifying.setFlagBool .verifyChanged true 1).2.setFlagBool .verifyChanged true 2).2

theorem twoIndexes_lost :
    Reachable verifying twoIndexes ∧
      ¬ RoundTrips verifying (XmlElement.create "CommandClass") twoIndexes := by
  refine ⟨.change (.setFlagBool .verifyChanged true 2)
    (.change (.setFlagBool .verifyChanged true 1) .start rfl) rfl, ?_⟩
  rintro ⟨m', hread, hsame⟩
  have hlost : (verifying.readXML (twoIndexes.writeXML (XmlElement.create "CommandClass"))).map
      (fun m' => m'.getFlagBool .verifyChanged 2) = some false := by
    decide
  have hkept : twoIndexes.getFlagBool .verifyChanged 2 = true := by
    decide
  rw [hread] at hlost
  have hanswer := (hsame .verifyChanged 2).1
  rw [hkept] at hanswer
  cases hanswer.symm.trans (Option.some.inj hlost)

/-- One index has been set, which comes back. -/
theorem roundTrips_oneIndex :
    RoundTrips verifying (XmlElement.create "CommandClass")
        (verifying.setFlagBool .verifyChanged true 1).2 ↔
      ∀ flag s, (verifying.setFlagBool .verifyChanged true 1).2.compatVals flag = some s →
        s.AtMostOne :=
  compatRoundTrips_iff availableCompatFlags .compatibility [(.verifyChanged, 0)]
    (.change (.setFlagBool .verifyChanged true 1) .start rfl) (XmlElement.create "CommandClass") rfl

end CompatOptionManager

end OpenZWave

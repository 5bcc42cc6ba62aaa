import OpenZWave.Lib.Checked
import OpenZWave.Lib.SortedTable
import OpenZWave.TinyXml
import Mathlib.Data.Prod.Lex

/-!
# Schedules

The switch points of a day in an array of nine, sorted by their times. What the operations
do to the points in use is what those of a sorted table do.
-/

namespace OpenZWave

open Checked NumberText SortedTable

/-- `SwitchPoint`. -/
structure SwitchPoint where
  hours : UInt8
  minutes : UInt8
  setback : Int8
  deriving DecidableEq

/-- The members of the class. -/
structure ValueSchedule where
  switchPoints : Vector SwitchPoint 9
  numSwitchPoints : UInt8

namespace ValueSchedule

/-- An index behind the array. -/
inductive Fault
  | outside

/-- The constructor; the array has whatever the memory has. -/
def new (memory : Vector SwitchPoint 9) : ValueSchedule where
  switchPoints := memory
  numSwitchPoints := 0

variable (s : ValueSchedule)

/-- `m_switchPoints[i]`. -/
def readPoint (i : ℕ) : Except Fault SwitchPoint :=
  match s.switchPoints[i]? with
  | some point => .ok point
  | none => .error .outside

def writePoint (i : ℕ) (point : SwitchPoint) : Except Fault ValueSchedule :=
  if h : i < 9 then .ok { s with switchPoints := s.switchPoints.set i point h }
  else .error .outside

/-- Where a switch point is, or where it is to be inserted. -/
inductive Place
  | found (i : ℕ)
  | insertAt (i : ℕ)

/-- The loop of `SetSwitchPoint` and of `FindSwitchPoint`, from `i` on; `n` switch points are
left. -/
def search (hours minutes : UInt8) : ℕ → ℕ → Except Fault Place
  | 0, i => return .insertAt i
  | n + 1, i => do
      let point ← s.readPoint i
      if point.hours = hours then
        if point.minutes = minutes then return .found i
        else if point.minutes > minutes then return .insertAt i
        else search hours minutes n (i + 1)
      else if point.hours > hours then return .insertAt i
      else search hours minutes n (i + 1)

/-- Shuffle any later switch points out of the way. -/
def shuffleUp (insertAt : ℕ) : ℕ → ValueSchedule → Except Fault ValueSchedule
  | 0, s => return s
  | i + 1, s =>
      if i + 1 > insertAt then do
        let point ← s.readPoint i
        let s ← s.writePoint (i + 1) point
        shuffleUp insertAt i s
      else return s

/-- Shuffle any later switch points down to fill the gap; `n` of them are left. -/
def shuffleDown : ℕ → ℕ → ValueSchedule → Except Fault ValueSchedule
  | 0, _, s => return s
  | n + 1, i, s => do
      let point ← s.readPoint (i + 1)
      let s ← s.writePoint i point
      shuffleDown n (i + 1) s

def setSwitchPoint (hours minutes : UInt8) (setback : Int8) :
    Except Fault (Bool × ValueSchedule) := do
  match ← s.search hours minutes s.numSwitchPoints.toNat 0 with
  | .found i =>
      let point ← s.readPoint i
      let s ← s.writePoint i { point with setback := setback }
      return (true, s)
  | .insertAt i =>
      if s.numSwitchPoints ≥ 9 then return (false, s)
      else
        let s ← shuffleUp i s.numSwitchPoints.toNat s
        let s ← s.writePoint i ⟨hours, minutes, setback⟩
        return (true, { s with numSwitchPoints := s.numSwitchPoints + 1 })

def removeSwitchPoint (idx : UInt8) : Except Fault (Bool × ValueSchedule) :=
  if idx ≥ s.numSwitchPoints then return (false, s)
  else do
    let s ← shuffleDown (s.numSwitchPoints.toNat - 1 - idx.toNat) idx.toNat s
    return (true, { s with numSwitchPoints := s.numSwitchPoints - 1 })

def clearSwitchPoints : ValueSchedule := { s with numSwitchPoints := 0 }

def getSwitchPoint (idx : UInt8) : Except Fault (Option SwitchPoint) :=
  if idx ≥ s.numSwitchPoints then return none else some <$> s.readPoint idx.toNat

def findSwitchPoint (hours minutes : UInt8) : Except Fault (Option UInt8) := do
  match ← s.search hours minutes s.numSwitchPoints.toNat 0 with
  | .found i => return some (UInt8.ofNat i)
  | .insertAt _ => return none

/-! ## The file -/

/-- The text of a number in `str`, which has eight characters. -/
def numberText (n : ℤ) : List Char := (printInt n).take 7

def switchPointElement (point : SwitchPoint) : TiXmlElement :=
  (((XmlElement.create "SwitchPoint").setAttribute "hours" (numberText point.hours.toNat)).setAttribute
    "minutes" (numberText point.minutes.toNat)).setAttribute "setback"
      (numberText point.setback.toInt)

/-- `Value::WriteXML` sets attributes, and adds the text that explains the value, if there
is one. -/
def writeHelp (help : Option (List Char)) (element : TiXmlElement) : TiXmlElement :=
  match help with
  | none => element
  | some text =>
      element.linkEndChild
        (.element ((XmlElement.create "Help").linkEndChild (.text text)))

/-- A turn of the loop of `WriteXML`. -/
def writeSwitchPoint (element : TiXmlElement) (i : ℕ) : Except Fault TiXmlElement := do
  match ← s.getSwitchPoint (UInt8.ofNat i) with
  | some point => return element.linkEndChild (.element (switchPointElement point))
  | none => return element

def writeXML (help : Option (List Char)) (element : TiXmlElement) : Except Fault TiXmlElement :=
  (List.range s.numSwitchPoints.toNat).foldlM s.writeSwitchPoint (writeHelp help element)

/-- A number of a switch point; zero without the attribute. -/
def numberOf (child : TiXmlElement) (name : String) : Int32 :=
  (child.queryIntAttribute name).getD 0

def readSwitchPoint (s : ValueSchedule) (child : TiXmlElement) : Except Fault ValueSchedule :=
  if child.value = "SwitchPoint" then
    Prod.snd <$> s.setSwitchPoint (numberOf child "hours").toUInt32.toUInt8
      (numberOf child "minutes").toUInt32.toUInt8 (numberOf child "setback").toInt8
  else return s

def readXML (element : TiXmlElement) : Except Fault ValueSchedule :=
  element.childElements.foldlM readSwitchPoint s

/-! ## The points in use -/

/-- The switch points in use. -/
def points : List SwitchPoint := s.switchPoints.toList.take s.numSwitchPoints.toNat

/-- The time that a caller asks for. -/
def timeOf (hours minutes : UInt8) : ℕ ×ₗ ℕ := toLex (hours.toNat, minutes.toNat)

end ValueSchedule

/-- The time of a switch point. -/
def SwitchPoint.time (point : SwitchPoint) : ℕ ×ₗ ℕ :=
  ValueSchedule.timeOf point.hours point.minutes

namespace ValueSchedule

section Times

variable {hours minutes : UInt8} {point : SwitchPoint}

theorem time_eq_iff :
    point.time = timeOf hours minutes ↔ point.hours = hours ∧ point.minutes = minutes := by
  rw [SwitchPoint.time, timeOf, timeOf, toLex_inj, Prod.mk.injEq, UInt8.toNat_inj, UInt8.toNat_inj]

theorem time_lt_iff : point.time < timeOf hours minutes ↔
    point.hours < hours ∨ point.hours = hours ∧ point.minutes < minutes := by
  rw [SwitchPoint.time, timeOf, timeOf, Prod.Lex.toLex_lt_toLex, UInt8.toNat_inj,
    UInt8.lt_iff_toNat_lt, UInt8.lt_iff_toNat_lt]

end Times

section Points

variable {s : ValueSchedule}

theorem readPoint_bind {i : ℕ} (h : i < 9) {β : Type} (k : SwitchPoint → Except Fault β) :
    (s.readPoint i >>= k) = k s.switchPoints[i] := by
  rw [readPoint, Vector.getElem?_eq_getElem h]
  rfl

theorem writePoint_bind {i : ℕ} (h : i < 9) (point : SwitchPoint) {β : Type}
    (k : ValueSchedule → Except Fault β) :
    (s.writePoint i point >>= k) =
      k { s with switchPoints := s.switchPoints.set i point h } := by
  rw [writePoint, dif_pos h]
  rfl

theorem getElem?_points (j : ℕ) :
    s.points[j]? = if j < s.numSwitchPoints.toNat then s.switchPoints[j]? else none := by
  rw [points, List.getElem?_take, Vector.getElem?_toList]

theorem length_points (h : s.numSwitchPoints.toNat ≤ 9) :
    s.points.length = s.numSwitchPoints.toNat := by
  rw [points, List.length_take, Vector.length_toList, Nat.min_eq_left h]

/-- Where a table has a time. -/
def placeOf (time : ℕ ×ₗ ℕ) (i : ℕ) (l : List SwitchPoint) : Place :=
  if l[position SwitchPoint.time time l]?.any (fun a => decide (a.time = time)) = true then
    .found (i + position SwitchPoint.time time l)
  else .insertAt (i + position SwitchPoint.time time l)

theorem placeOf_cons_of_lt {time : ℕ ×ₗ ℕ} {a : SwitchPoint} (h : a.time < time) (i : ℕ)
    (l : List SwitchPoint) : placeOf time i (a :: l) = placeOf time (i + 1) l := by
  rw [placeOf, placeOf, position_cons_of_lt h, List.getElem?_cons_succ, Nat.add_right_comm,
    Nat.add_assoc]

theorem placeOf_cons_of_not_lt {time : ℕ ×ₗ ℕ} {a : SwitchPoint} (h : ¬ a.time < time) (i : ℕ)
    (l : List SwitchPoint) :
    placeOf time i (a :: l) = if a.time = time then .found i else .insertAt i := by
  rw [placeOf, position_cons_of_not_lt h, List.getElem?_cons_zero, Option.any_some]
  simp only [decide_eq_true_iff, Nat.add_zero]

theorem search_eq (hours minutes : UInt8) {n i : ℕ} (h : i + n ≤ 9) :
    s.search hours minutes n i =
      .ok (placeOf (timeOf hours minutes) i ((s.switchPoints.toList.drop i).take n)) := by
  induction n generalizing i with
  | zero => rfl
  | succ n ih =>
      have hi : i < s.switchPoints.toList.length := by
        rw [Vector.length_toList]
        omega
      rw [search, readPoint_bind (by omega), ih (by omega), List.drop_eq_getElem_cons hi,
        List.take_succ_cons, Vector.getElem_toList]
      by_cases hlt : (s.switchPoints[i]).time < timeOf hours minutes
      · rw [placeOf_cons_of_lt hlt]
        rcases time_lt_iff.mp hlt with hhours | ⟨hhours, hminutes⟩
        · rw [if_neg (by rintro rfl; exact absurd hhours (UInt8.lt_irrefl _)),
            if_neg (UInt8.lt_asymm hhours)]
        · rw [if_pos hhours, if_neg (by rintro rfl; exact absurd hminutes (UInt8.lt_irrefl _)),
            if_neg (UInt8.lt_asymm hminutes)]
      · rw [placeOf_cons_of_not_lt hlt]
        have hnot := mt time_lt_iff.mpr hlt
        rw [not_or, not_and, UInt8.not_lt] at hnot
        by_cases hhours : (s.switchPoints[i]).hours = hours
        · rw [if_pos hhours]
          by_cases hminutes : (s.switchPoints[i]).minutes = minutes
          · rw [if_pos hminutes, if_pos (time_eq_iff.mpr ⟨hhours, hminutes⟩)]
            rfl
          · have hgt : (s.switchPoints[i]).minutes > minutes :=
              UInt8.lt_of_le_of_ne (UInt8.not_lt.mp (hnot.2 hhours)) (Ne.symm hminutes)
            rw [if_neg hminutes, if_pos hgt, if_neg fun htime => hminutes (time_eq_iff.mp htime).2]
            rfl
        · have hgt : (s.switchPoints[i]).hours > hours :=
            UInt8.lt_of_le_of_ne hnot.1 (Ne.symm hhours)
          rw [if_neg hhours, if_pos hgt, if_neg fun htime => hhours (time_eq_iff.mp htime).1]
          rfl

theorem search_points (hours minutes : UInt8) (h : s.numSwitchPoints.toNat ≤ 9) :
    s.search hours minutes s.numSwitchPoints.toNat 0 =
      .ok (placeOf (timeOf hours minutes) 0 s.points) := by
  rw [search_eq hours minutes (by omega)]
  rfl

/-- What the loop before an insertion does. -/
theorem shuffleUp_yields {insertAt i : ℕ} (h : i < 9) (s : ValueSchedule) :
    Yields (shuffleUp insertAt i s) fun s' => s'.numSwitchPoints = s.numSwitchPoints ∧
      ∀ j, s'.switchPoints[j]? =
        if insertAt < j ∧ j ≤ i then s.switchPoints[j - 1]? else s.switchPoints[j]? := by
  induction i generalizing s with
  | zero => exact yields_pure.mpr ⟨rfl, fun j => (if_neg (by omega)).symm⟩
  | succ i ih =>
      rw [shuffleUp]
      split
      · rename_i hmore
        rw [readPoint_bind (by omega), writePoint_bind h]
        refine (ih (by omega) _).mono fun s' hs' => ⟨hs'.1, fun j => ?_⟩
        rw [hs'.2]
        dsimp only
        rw [Vector.getElem?_set, Vector.getElem?_set]
        by_cases hlast : j = i + 1
        · subst hlast
          have hlast : ¬ (insertAt < i + 1 ∧ i + 1 ≤ i) := by omega
          have hmoved : insertAt < i + 1 ∧ i + 1 ≤ i + 1 := ⟨hmore, Nat.le_refl _⟩
          rw [if_neg hlast, if_pos rfl, if_pos hmoved, Nat.add_sub_cancel,
            Vector.getElem?_eq_getElem (by omega)]
        · by_cases hin : insertAt < j ∧ j ≤ i
          · have hmoved : insertAt < j ∧ j ≤ i + 1 := by omega
            rw [if_pos hin, if_neg (by omega : ¬ i + 1 = j - 1), if_pos hmoved]
          · have hkept : ¬ (insertAt < j ∧ j ≤ i + 1) := by omega
            rw [if_neg hin, if_neg (Ne.symm hlast), if_neg hkept]
      · exact yields_pure.mpr ⟨rfl, fun j => (if_neg (by omega)).symm⟩

/-- What the loop behind a removal does. -/
theorem shuffleDown_yields {n i : ℕ} (h : i + n < 9) (s : ValueSchedule) :
    Yields (shuffleDown n i s) fun s' => s'.numSwitchPoints = s.numSwitchPoints ∧
      ∀ j, s'.switchPoints[j]? =
        if i ≤ j ∧ j < i + n then s.switchPoints[j + 1]? else s.switchPoints[j]? := by
  induction n generalizing i s with
  | zero => exact yields_pure.mpr ⟨rfl, fun j => (if_neg (by omega)).symm⟩
  | succ n ih =>
      rw [shuffleDown, readPoint_bind (by omega), writePoint_bind (by omega)]
      refine (ih (by omega) _).mono fun s' hs' => ⟨hs'.1, fun j => ?_⟩
      rw [hs'.2]
      dsimp only
      rw [Vector.getElem?_set, Vector.getElem?_set]
      by_cases hfirst : j = i
      · subst hfirst
        have hbelow : ¬ (j + 1 ≤ j ∧ j < j + 1 + n) := by omega
        have hmoved : j ≤ j ∧ j < j + (n + 1) := by omega
        rw [if_neg hbelow, if_pos rfl, if_pos hmoved, Vector.getElem?_eq_getElem (by omega)]
      · by_cases hin : i + 1 ≤ j ∧ j < i + 1 + n
        · have hmoved : i ≤ j ∧ j < i + (n + 1) := by omega
          rw [if_pos hin, if_neg (by omega : ¬ i = j + 1), if_pos hmoved]
        · have hkept : ¬ (i ≤ j ∧ j < i + (n + 1)) := by omega
          rw [if_neg hin, if_neg (Ne.symm hfirst), if_neg hkept]

/-- The points are few and sorted by their times. -/
structure Ordered (s : ValueSchedule) : Prop where
  few : s.numSwitchPoints.toNat ≤ 9
  sorted : Sorted SwitchPoint.time s.points

theorem lookup_eq_none_iff (h : Ordered s) (time : ℕ ×ₗ ℕ) :
    lookup SwitchPoint.time time s.points = none ↔
      ¬ s.points[position SwitchPoint.time time s.points]?.any
        (fun a => decide (a.time = time)) = true := by
  rw [lookup_eq_position h.sorted]
  cases s.points[position SwitchPoint.time time s.points]? with
  | none => simp
  | some a => by_cases ha : a.time = time <;> simp [Option.filter, ha]

/-- The switch point with the time gets the setback. -/
theorem points_update {i : ℕ} (hi : i < 9) (point : SwitchPoint) :
    ({ s with switchPoints := s.switchPoints.set i point hi } : ValueSchedule).points =
      s.points.set i point := by
  rw [points, points, Vector.toList_set, List.take_set]

/-- A switch point is inserted behind those that were moved. -/
theorem points_insert {s' : ValueSchedule} {i : ℕ} (hi : i ≤ s.numSwitchPoints.toNat)
    (hfew : s.numSwitchPoints.toNat < 9)
    (hmoved : ∀ j, s'.switchPoints[j]? =
      if i < j ∧ j ≤ s.numSwitchPoints.toNat then s.switchPoints[j - 1]? else s.switchPoints[j]?)
    (point : SwitchPoint) :
    ({ switchPoints := s'.switchPoints.set i point (by omega)
       numSwitchPoints := s.numSwitchPoints + 1 } : ValueSchedule).points =
      s.points.insertIdx i point := by
  have hnum : (s.numSwitchPoints + 1).toNat = s.numSwitchPoints.toNat + 1 := by
    rw [UInt8.toNat_add]
    exact Nat.mod_eq_of_lt (by change _ + 1 < _; omega)
  apply List.ext_getElem?
  intro j
  rw [getElem?_points, List.getElem?_insertIdx, length_points (by omega), getElem?_points,
    getElem?_points, hnum, Vector.getElem?_set, hmoved]
  rcases Nat.lt_trichotomy j i with hlt | rfl | hgt
  · rw [if_pos (by omega), if_neg hlt.ne', if_neg (by omega), if_pos hlt, if_pos (by omega)]
  · rw [if_pos (by omega), if_pos rfl, if_neg (Nat.lt_irrefl j), if_pos rfl, if_pos hi]
  · rw [if_neg hgt.ne, if_neg (by omega : ¬ j < i), if_neg hgt.ne']
    by_cases hin : j ≤ s.numSwitchPoints.toNat
    · rw [if_pos (by omega), if_pos ⟨hgt, hin⟩, if_pos (by omega)]
    · rw [if_neg (by omega), if_neg (by omega)]

/-- A switch point is set unless the map is full and the time is new. -/
theorem setSwitchPoint_yields (h : Ordered s) (hours minutes : UInt8) (setback : Int8) :
    Yields (s.setSwitchPoint hours minutes setback) fun r =>
      if s.points.length = 9 ∧
          lookup SwitchPoint.time (timeOf hours minutes) s.points = none then r = (false, s)
      else r.1 = true ∧ r.2.numSwitchPoints.toNat ≤ 9 ∧
        r.2.points = upsert SwitchPoint.time ⟨hours, minutes, setback⟩ s.points := by
  have hupsert := @upsert_eq _ _ _ SwitchPoint.time ⟨hours, minutes, setback⟩ s.points
  have hfew := h.few
  have hlength := length_points h.few
  have hposition := @position_le_length _ _ _ SwitchPoint.time (timeOf hours minutes) s.points
  have hnew := lookup_eq_none_iff h (timeOf hours minutes)
  rw [setSwitchPoint, search_points hours minutes h.few, ok_bind, placeOf]
  by_cases hfound : s.points[position SwitchPoint.time (timeOf hours minutes) s.points]?.any
      (fun a => decide (a.time = timeOf hours minutes)) = true
  · obtain ⟨point, hpoint, htime⟩ := Option.any_eq_true _ _ |>.mp hfound
    obtain ⟨hhours, hminutes⟩ := time_eq_iff.mp (of_decide_eq_true htime)
    obtain ⟨hi, -⟩ := List.getElem?_eq_some_iff.mp hpoint
    rw [getElem?_points, if_pos (hlength ▸ hi), Vector.getElem?_eq_getElem (by omega)] at hpoint
    have hold : ¬ (s.points.length = 9 ∧
        lookup SwitchPoint.time (timeOf hours minutes) s.points = none) :=
      fun hfull => hnew.mp hfull.2 hfound
    simp only [if_pos hfound, if_neg hold, Nat.zero_add]
    rw [readPoint_bind (by omega), writePoint_bind (by omega), Option.some_inj.mp hpoint, hupsert,
      SwitchPoint.time, if_pos hfound]
    refine yields_pure.mpr ⟨rfl, h.few, ?_⟩
    rw [points_update, hhours, hminutes]
  · simp only [if_neg hfound, hnew.mpr hfound, and_true, Nat.zero_add]
    have hfull : s.numSwitchPoints ≥ 9 ↔ s.points.length = 9 := by
      rw [ge_iff_le, UInt8.le_iff_toNat_le, hlength]
      change 9 ≤ _ ↔ _
      omega
    by_cases hnum : s.points.length = 9
    · simp only [if_pos (hfull.mpr hnum), if_pos hnum]
      exact yields_pure.mpr rfl
    · simp only [if_neg (mt hfull.mp hnum), if_neg hnum]
      have hroom : s.numSwitchPoints.toNat < 9 := by omega
      refine (shuffleUp_yields hroom s).bind fun s' hs' => ?_
      rw [writePoint_bind (by omega), hs'.1, hupsert, SwitchPoint.time, if_neg hfound]
      refine yields_pure.mpr ⟨rfl, ?_, points_insert (by omega) hroom hs'.2 _⟩
      dsimp only
      rw [UInt8.toNat_add]
      exact (Nat.mod_le _ _).trans hroom

theorem removeSwitchPoint_yields (h : Ordered s) (idx : UInt8) :
    Yields (s.removeSwitchPoint idx) fun r =>
      r.1 = decide (idx.toNat < s.points.length) ∧ r.2.numSwitchPoints.toNat ≤ 9 ∧
        r.2.points = s.points.eraseIdx idx.toNat := by
  have hfew := h.few
  have hlength := length_points hfew
  rw [removeSwitchPoint]
  by_cases hidx : idx ≥ s.numSwitchPoints
  · rw [if_pos hidx]
    rw [ge_iff_le, UInt8.le_iff_toNat_le] at hidx
    have hout : ¬ idx.toNat < s.points.length := by omega
    exact yields_pure.mpr ⟨(decide_eq_false hout).symm, hfew,
      (List.eraseIdx_of_length_le (Nat.not_lt.mp hout)).symm⟩
  · rw [if_neg hidx]
    rw [ge_iff_le, UInt8.le_iff_toNat_le, Nat.not_le] at hidx
    have hone : (1 : UInt8) ≤ s.numSwitchPoints := by
      rw [UInt8.le_iff_toNat_le]
      change 1 ≤ _
      omega
    have hnum : (s.numSwitchPoints - 1).toNat = s.numSwitchPoints.toNat - 1 :=
      UInt8.toNat_sub_of_le _ _ hone
    refine (shuffleDown_yields (by omega) s).bind fun s' hs' => ?_
    rw [hs'.1]
    refine yields_pure.mpr ⟨?_, ?_, ?_⟩
    · exact (decide_eq_true (by omega)).symm
    · dsimp only
      omega
    · apply List.ext_getElem?
      intro j
      rw [getElem?_points, List.getElem?_eraseIdx, getElem?_points, getElem?_points]
      dsimp only
      rw [hs'.2, hnum]
      rcases Nat.lt_or_ge j idx.toNat with hlt | hge
      · rw [if_pos (by omega), if_neg (by omega), if_pos hlt, if_pos (by omega)]
      · rw [if_neg (Nat.not_lt.mpr hge)]
        by_cases hin : j + 1 < s.numSwitchPoints.toNat
        · rw [if_pos (by omega), if_pos (by omega), if_pos hin]
        · rw [if_neg (by omega), if_neg hin]

/-- A time is found at its index. -/
theorem findSwitchPoint_yields (h : Ordered s) (hours minutes : UInt8) :
    Yields (s.findSwitchPoint hours minutes) fun r =>
      ∀ i, r = some i ↔ ∃ point, s.points[i.toNat]? = some point ∧
        point.time = timeOf hours minutes := by
  have hfew := h.few
  have hlength := length_points hfew
  have hnew := lookup_eq_none_iff h (timeOf hours minutes)
  rw [findSwitchPoint, search_points hours minutes hfew, ok_bind, placeOf]
  by_cases hfound : s.points[position SwitchPoint.time (timeOf hours minutes) s.points]?.any
      (fun a => decide (a.time = timeOf hours minutes)) = true
  · obtain ⟨point, hpoint, htime⟩ := (Option.any_eq_true _ _).mp hfound
    have htime := of_decide_eq_true htime
    obtain ⟨hi, hat⟩ := List.getElem?_eq_some_iff.mp hpoint
    have hbyte : (UInt8.ofNat (position SwitchPoint.time (timeOf hours minutes) s.points)).toNat =
        position SwitchPoint.time (timeOf hours minutes) s.points := by
      rw [UInt8.toNat_ofNat']
      exact Nat.mod_eq_of_lt (by omega)
    simp only [if_pos hfound, Nat.zero_add]
    refine yields_pure.mpr fun i => ?_
    rw [Option.some_inj]
    constructor
    · rintro rfl
      exact ⟨point, hbyte.symm ▸ hpoint, htime⟩
    · rintro ⟨other, hother, hsame⟩
      obtain ⟨hj, hato⟩ := List.getElem?_eq_some_iff.mp hother
      rw [← UInt8.toNat_inj, hbyte]
      rcases Nat.lt_trichotomy (position SwitchPoint.time (timeOf hours minutes) s.points) i.toNat
        with hlt | heq | hgt
      · have hless := List.pairwise_iff_getElem.mp h.sorted _ _ hi hj hlt
        rw [hat, hato, htime, hsame] at hless
        exact absurd hless (lt_irrefl _)
      · exact heq
      · have hless := List.pairwise_iff_getElem.mp h.sorted _ _ hj hi hgt
        rw [hat, hato, htime, hsame] at hless
        exact absurd hless (lt_irrefl _)
  · simp only [if_neg hfound]
    refine yields_pure.mpr fun i => ⟨nofun, ?_⟩
    rintro ⟨point, hpoint, htime⟩
    have hsome := (lookup_eq_some_iff h.sorted).mpr ⟨List.mem_of_getElem? hpoint, htime⟩
    rw [hnew.mpr hfound] at hsome
    cases hsome

end Points

/-! ## Saving and loading -/

section File

variable {s : ValueSchedule}

theorem numberText_eq {n : ℤ} (hlow : -1000 < n) (hhigh : n < 1000) :
    numberText n = printInt n := by
  apply List.take_of_length_le
  cases n with
  | ofNat n =>
      change (Nat.toDigits 10 n).length ≤ 7
      rw [Int.ofNat_eq_natCast] at hhigh
      rw [Nat.length_toDigits_le_iff (by decide) (by decide)]
      omega
  | negSucc n =>
      change (Nat.toDigits 10 (n + 1)).length + 1 ≤ 6 + 1
      rw [Nat.add_le_add_iff_right, Nat.length_toDigits_le_iff (by decide) (by decide)]
      omega

/-- A number that is written is read. -/
theorem numberOf_eq {child : TiXmlElement} {name : String} {n : ℤ} (hlow : -1000 < n)
    (hhigh : n < 1000) (h : child.getAttribute name = some (cStr (numberText n))) :
    numberOf child name = Int32.ofInt n := by
  rw [numberText_eq hlow hhigh] at h
  rw [numberOf, XmlElement.queryIntAttribute_printInt (by omega) (by omega) h]
  rfl

theorem toUInt8_ofInt (b : UInt8) : (Int32.ofInt b.toNat).toUInt32.toUInt8 = b := by
  rw [NumberText.toUInt8_ofInt]
  exact UInt8.ofNat_toNat

theorem toInt8_ofInt (b : Int8) : (Int32.ofInt b.toInt).toInt8 = b := by
  rw [Int32.toInt8_ofInt, Int8.ofInt_toInt]

theorem readSwitchPoint_element (s : ValueSchedule) (point : SwitchPoint) :
    readSwitchPoint s (switchPointElement point) =
      Prod.snd <$> s.setSwitchPoint point.hours point.minutes point.setback := by
  have hhours := point.hours.toNat_lt
  have hminutes := point.minutes.toNat_lt
  have hlow := Int8.le_toInt point.setback
  have hhigh := Int8.toInt_lt point.setback
  have hh : numberOf (switchPointElement point) "hours" = Int32.ofInt point.hours.toNat := by
    apply numberOf_eq (by omega) (by omega)
    simp [switchPointElement, XmlElement.getAttribute_setAttribute]
  have hm : numberOf (switchPointElement point) "minutes" = Int32.ofInt point.minutes.toNat := by
    apply numberOf_eq (by omega) (by omega)
    simp [switchPointElement, XmlElement.getAttribute_setAttribute]
  have hs : numberOf (switchPointElement point) "setback" = Int32.ofInt point.setback.toInt := by
    apply numberOf_eq (by omega) (by omega)
    simp [switchPointElement, XmlElement.getAttribute_setAttribute]
  have hname : (switchPointElement point).value = "SwitchPoint" := rfl
  rw [readSwitchPoint, if_pos hname, hh, hm, hs, toUInt8_ofInt, toUInt8_ofInt, toInt8_ofInt]

theorem getSwitchPoint_eq (hfew : s.numSwitchPoints.toNat ≤ 9) {i : ℕ}
    (hi : i < s.numSwitchPoints.toNat) :
    s.getSwitchPoint (UInt8.ofNat i) = .ok s.points[i]? := by
  have hbyte : (UInt8.ofNat i).toNat = i := by
    rw [UInt8.toNat_ofNat']
    exact Nat.mod_eq_of_lt (by omega)
  have hin : ¬ UInt8.ofNat i ≥ s.numSwitchPoints := by
    rw [ge_iff_le, UInt8.le_iff_toNat_le, hbyte]
    omega
  rw [getSwitchPoint, if_neg hin, hbyte, readPoint, getElem?_points, if_pos hi,
    Vector.getElem?_eq_getElem (by omega)]
  rfl

theorem writeLoop_yields (hfew : s.numSwitchPoints.toNat ≤ 9) {n : ℕ}
    (hn : n ≤ s.numSwitchPoints.toNat) (element : TiXmlElement) :
    Yields ((List.range n).foldlM s.writeSwitchPoint element) fun written =>
      written.childElements =
        element.childElements ++ (s.points.take n).map switchPointElement := by
  induction n with
  | zero => exact yields_pure.mpr (List.append_nil _).symm
  | succ n ih =>
      have hi : n < s.points.length := by
        rw [length_points hfew]
        omega
      rw [List.range_succ, List.foldlM_append]
      refine (ih (by omega)).bind fun written hwritten => ?_
      rw [List.foldlM_cons, writeSwitchPoint, getSwitchPoint_eq hfew (by omega), ok_bind,
        List.getElem?_eq_getElem hi, List.take_succ_eq_append_getElem hi, List.map_append,
        ← List.append_assoc, ← hwritten]
      refine yields_pure.mpr ?_
      rw [XmlElement.childElements, XmlElement.linkEndChild, List.filterMap_append]
      rfl

/-- The elements of the points are the last ones. -/
theorem writeXML_yields (hfew : s.numSwitchPoints.toNat ≤ 9) (help : Option (List Char))
    (element : TiXmlElement) :
    Yields (s.writeXML help element) fun written => written.childElements =
      (writeHelp help element).childElements ++ s.points.map switchPointElement := by
  refine (writeLoop_yields hfew (Nat.le_refl _) _).mono fun written hwritten => ?_
  rwa [← length_points hfew, List.take_length] at hwritten

theorem ordered_new (memory : Vector SwitchPoint 9) : Ordered (new memory) :=
  ⟨Nat.zero_le 9, List.Pairwise.nil⟩

/-- Points that are read in their order are appended. -/
theorem setSwitchPoint_append {point : SwitchPoint} {rest : List SwitchPoint} (h : Ordered s)
    (hsorted : Sorted SwitchPoint.time (s.points ++ point :: rest))
    (hroom : (s.points ++ point :: rest).length ≤ 9) :
    Yields (s.setSwitchPoint point.hours point.minutes point.setback) fun r =>
      Ordered r.2 ∧ r.2.points = s.points ++ [point] := by
  refine (setSwitchPoint_yields h _ _ _).mono fun r hr => ?_
  rw [List.length_append, List.length_cons] at hroom
  rw [if_neg fun hfull => absurd hfull.1 (by omega)] at hr
  have hpoints : r.2.points = s.points ++ [point] :=
    hr.2.2.trans (upsert_of_lt fun a ha =>
      (List.pairwise_append.mp hsorted).2.2 a ha point List.mem_cons_self)
  refine ⟨⟨hr.2.1, ?_⟩, hpoints⟩
  rw [hpoints]
  exact hsorted.sublist (by simp)

/-- Points in their order, read into an empty schedule. -/
theorem readPoints_yields {points : List SwitchPoint}
    (hsorted : Sorted SwitchPoint.time points) (hroom : points.length ≤ 9)
    (memory : Vector SwitchPoint 9) :
    Yields ((points.map switchPointElement).foldlM readSwitchPoint (new memory)) fun s' =>
      s'.points = points := by
  have hall : Yields (points.foldlM (fun s point => readSwitchPoint s (switchPointElement point))
      (new memory)) fun s' => Ordered s' ∧ s'.points ++ [] = points := by
    refine yields_foldlM_rest (I := fun rest s' => Ordered s' ∧ s'.points ++ rest = points)
      (fun s' point rest h => ?_) ⟨ordered_new memory, rfl⟩
    obtain ⟨hs', hpoints⟩ := h
    rw [readSwitchPoint_element]
    refine (setSwitchPoint_append hs' (hpoints ▸ hsorted) (hpoints ▸ hroom)).bind fun r hr =>
      yields_pure.mpr ⟨hr.1, ?_⟩
    rw [hr.2, List.append_assoc, ← hpoints]
    rfl
  rw [List.foldlM_map]
  exact hall.mono fun s' hs' => (List.append_nil _).symm.trans hs'.2

/-- What is saved is loaded into an empty schedule. -/
theorem readXML_writeXML (h : Ordered s) (help : Option (List Char))
    (memory : Vector SwitchPoint 9) :
    Yields (s.writeXML help (XmlElement.create "Value") >>= (new memory).readXML) fun s' =>
      s'.points = s.points := by
  refine (writeXML_yields h.few help _).bind fun written hwritten => ?_
  have hskip : ∀ rest, ((writeHelp help (XmlElement.create "Value")).childElements ++
      rest).foldlM readSwitchPoint (new memory) = rest.foldlM readSwitchPoint (new memory) := by
    intro rest
    cases help with
    | none => rfl
    | some text => rfl
  rw [readXML, hwritten, hskip]
  exact readPoints_yields h.sorted ((length_points h.few).trans_le h.few) memory

end File

/-! ## Every run -/

/-- What a caller does with a schedule. -/
inductive Call
  | set (hours minutes : UInt8) (setback : Int8)
  | remove (idx : UInt8)
  | clear

def call (s : ValueSchedule) : Call → Except Fault ValueSchedule
  | .set hours minutes setback => Prod.snd <$> s.setSwitchPoint hours minutes setback
  | .remove idx => Prod.snd <$> s.removeSwitchPoint idx
  | .clear => return s.clearSwitchPoints

section Calls

variable {s : ValueSchedule}

theorem ordered_set (h : Ordered s) (hours minutes : UInt8) (setback : Int8) :
    Yields (s.setSwitchPoint hours minutes setback) fun r => Ordered r.2 := by
  refine (setSwitchPoint_yields h hours minutes setback).mono fun r hr => ?_
  split at hr
  · rw [hr]
    exact h
  · refine ⟨hr.2.1, ?_⟩
    rw [hr.2.2]
    exact sorted_upsert _ h.sorted

theorem ordered_remove (h : Ordered s) (idx : UInt8) :
    Yields (s.removeSwitchPoint idx) fun r => Ordered r.2 := by
  refine (removeSwitchPoint_yields h idx).mono fun r hr => ⟨hr.2.1, ?_⟩
  rw [hr.2.2]
  exact h.sorted.eraseIdx idx.toNat

theorem ordered_call (h : Ordered s) (c : Call) : Yields (s.call c) Ordered := by
  cases c with
  | set hours minutes setback =>
      exact (ordered_set h hours minutes setback).bind fun r hr => yields_pure.mpr hr
  | remove idx => exact (ordered_remove h idx).bind fun r hr => yields_pure.mpr hr
  | clear => exact yields_pure.mpr ⟨Nat.zero_le 9, List.Pairwise.nil⟩

end Calls

/-- The setback at a time. -/
def setbackAt (s : ValueSchedule) (time : ℕ ×ₗ ℕ) : Option Int8 :=
  (lookup SwitchPoint.time time s.points).map SwitchPoint.setback

/-- A schedule is a map from times to setbacks with at most nine entries: what its
operations do to the map. No access leaves the array. -/
structure IsMap (s : ValueSchedule) : Prop where
  sorted : Sorted SwitchPoint.time s.points
  bounded : s.points.length = s.numSwitchPoints.toNat ∧ s.points.length ≤ 9
  set : ∀ hours minutes setback, Yields (s.setSwitchPoint hours minutes setback) fun r =>
    (r.1 = false ↔ s.points.length = 9 ∧ s.setbackAt (timeOf hours minutes) = none) ∧
      (r.1 = false → r.2 = s) ∧
      (r.1 = true → ∀ time, r.2.setbackAt time =
        if time = timeOf hours minutes then some setback else s.setbackAt time)
  find : ∀ hours minutes, Yields (s.findSwitchPoint hours minutes) fun r =>
    (r.isSome = true ↔ (s.setbackAt (timeOf hours minutes)).isSome = true) ∧
      ∀ i, r = some i → s.points[i.toNat]?.map SwitchPoint.time = some (timeOf hours minutes)
  remove : ∀ idx, Yields (s.removeSwitchPoint idx) fun r =>
    r.1 = decide (idx.toNat < s.points.length) ∧ r.2.points = s.points.eraseIdx idx.toNat
  restored : ∀ help memory,
    Yields (s.writeXML help (XmlElement.create "Value") >>= (new memory).readXML) fun s' =>
      s'.points = s.points

theorem Ordered.isMap {s : ValueSchedule} (h : Ordered s) : IsMap s where
  sorted := h.sorted
  bounded := ⟨length_points h.few, (length_points h.few).trans_le h.few⟩
  set := fun hours minutes setback => by
    refine (setSwitchPoint_yields h hours minutes setback).mono fun r hr => ?_
    rw [setbackAt, Option.map_eq_none_iff]
    split at hr
    · rename_i hfull
      rw [hr]
      exact ⟨iff_of_true rfl hfull, fun _ => rfl, fun hfalse => absurd hfalse Bool.false_ne_true⟩
    · rename_i hroom
      obtain ⟨htrue, -, hpoints⟩ := hr
      rw [htrue]
      refine ⟨iff_of_false (fun hfalse => Bool.false_ne_true hfalse.symm) hroom,
        fun hfalse => absurd hfalse.symm Bool.false_ne_true, fun _ time => ?_⟩
      rw [setbackAt, setbackAt, hpoints, lookup_upsert]
      change (if time = timeOf hours minutes then _ else _ : Option SwitchPoint).map _ = _
      split <;> rfl
  find := fun hours minutes => by
    refine (findSwitchPoint_yields h hours minutes).mono fun r hr => ⟨?_, fun i hi => ?_⟩
    · rw [setbackAt, Option.isSome_map, Option.isSome_iff_exists, Option.isSome_iff_exists]
      constructor
      · rintro ⟨i, hi⟩
        obtain ⟨point, hpoint, htime⟩ := (hr i).mp hi
        exact ⟨point, (lookup_eq_some_iff h.sorted).mpr ⟨List.mem_of_getElem? hpoint, htime⟩⟩
      · rintro ⟨point, hpoint⟩
        obtain ⟨hmem, htime⟩ := (lookup_eq_some_iff h.sorted).mp hpoint
        obtain ⟨i, hi, hat⟩ := List.mem_iff_getElem.mp hmem
        have hfew := h.few
        have hlength := length_points h.few
        have hbyte : (UInt8.ofNat i).toNat = i := by
          rw [UInt8.toNat_ofNat']
          exact Nat.mod_eq_of_lt (by omega)
        refine ⟨UInt8.ofNat i, (hr _).mpr ⟨point, ?_, htime⟩⟩
        rw [hbyte, List.getElem?_eq_getElem hi, hat]
    · obtain ⟨point, hpoint, htime⟩ := (hr i).mp hi
      rw [hpoint, Option.map_some, htime]
  remove := fun idx => (removeSwitchPoint_yields h idx).mono fun r hr => ⟨hr.1, hr.2.2⟩
  restored := fun help memory => readXML_writeXML h help memory

/-- After any calls the schedule is a map. -/
theorem calls_isMap (memory : Vector SwitchPoint 9) (calls : List Call) :
    Yields (calls.foldlM call (new memory)) IsMap :=
  (yields_foldlM (fun _ c _ h => ordered_call h c) (ordered_new memory)).mono fun _ h => h.isMap

end ValueSchedule

end OpenZWave

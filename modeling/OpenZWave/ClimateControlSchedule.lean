import OpenZWave.CommandFrame
import OpenZWave.SendDataRequests
import OpenZWave.ValueSchedule

/-!
# Climate control schedules

The schedules of the days, which are sent and reported in nine slots of three bytes, and the
override. What a handler does besides is a list of effects.
-/

namespace OpenZWave

open Checked SortedTable

/-- The values of the class by instance, the schedules also by index, and the counter of
changes. A list value has the value of its item, if it has an item. -/
structure ClimateControlSchedule where
  changeCounter : UInt8
  schedules : UInt8 → UInt16 → Option ValueSchedule
  overrideState : UInt8 → Option (Option Int32)
  overrideSetback : UInt8 → Option UInt8

namespace ClimateControlSchedule

def classId : UInt8 := 0x46
def cmdSet : UInt8 := 0x01
def cmdGet : UInt8 := 0x02
def cmdReport : UInt8 := 0x03
def cmdChangedReport : UInt8 := 0x05
def cmdOverrideSet : UInt8 := 0x06
def cmdOverrideGet : UInt8 := 0x07
def cmdOverrideReport : UInt8 := 0x08

/-- Calls of `OnValueRefreshed`, and of `SendMsg`. -/
inductive Effect
  | schedule (inst : UInt8) (day : UInt16)
  | state (inst : UInt8) (item : Int32)
  | setback (inst : UInt8) (value : UInt8)
  | send (request : SendData)

/-- An index behind the array of the switch points is one behind a table. -/
def inTable {α : Type} : Except ValueSchedule.Fault α → Except FrameFault α
  | .ok a => .ok a
  | .error _ => .error .table

/-! ## Reports -/

/-- The loop over the slots of a report, from byte `i` on; `n` slots are left. -/
def readSlots (f : CommandFrame) : ℕ → ℕ → ValueSchedule → Except FrameFault ValueSchedule
  | 0, _, value => return value
  | n + 1, i, value => do
      let setback ← f.read (i + 2)
      if setback = 0x7f then return value
      else
        let hours ← f.read i
        let minutes ← f.read (i + 1)
        let set ← inTable (value.setSwitchPoint (hours &&& 0x1f) (minutes &&& 0x3f) setback.toInt8)
        readSlots f n (i + 3) set.2

/-- The day of a report. -/
def dayOf (byte : UInt8) : UInt16 :=
  let day := byte &&& 0x07
  (if day > 7 then 0 else day).toUInt16

def setSchedule (c : ClimateControlSchedule) (inst : UInt8) (index : UInt16)
    (value : ValueSchedule) : ClimateControlSchedule :=
  { c with
    schedules :=
      Function.update c.schedules inst
        (Function.update (c.schedules inst) index (some value)) }

def handleReport (c : ClimateControlSchedule) (f : CommandFrame) (inst : UInt32) :
    Except FrameFault (ClimateControlSchedule × List Effect) := do
  let day ← f.read 1
  match c.schedules inst.toUInt8 (dayOf day) with
  | none => return (c, [])
  | some value =>
      let value ← readSlots f 9 2 value.clearSwitchPoints
      return (c.setSchedule inst.toUInt8 (dayOf day) value, [.schedule inst.toUInt8 (dayOf day)])

/-- The request for the schedule of a day, and for the override. -/
def scheduleGet (sender : Sender) (id : ℕ) (day : UInt8) : SendData :=
  sender.request (sender.get id classId) 3 [classId, cmdGet, day]

def overrideGet (sender : Sender) (id : ℕ) : SendData :=
  sender.request (sender.get id classId) 2 [classId, cmdOverrideGet]

def handleChangedReport (sender : Sender) (id : ℕ) (c : ClimateControlSchedule)
    (f : CommandFrame) : Except FrameFault (ClimateControlSchedule × List Effect) := do
  let counter ← f.read 1
  if counter ≠ 0 then
    if counter ≠ c.changeCounter then
      return ({ c with changeCounter := counter },
        [1, 2, 3, 4, 5, 6, 7].map fun day => .send (scheduleGet sender id day))
    else return (c, [])
  else return (c, [.send (overrideGet sender id)])

def overrideStateOf (byte : UInt8) : Int32 :=
  let overrideState := byte &&& 0x03
  (if overrideState > 3 then 3 else overrideState).toUInt32.toInt32

def handleOverrideReport (c : ClimateControlSchedule) (f : CommandFrame) (inst : UInt32) :
    Except FrameFault (ClimateControlSchedule × List Effect) := do
  let state ← f.read 1
  let setback ← f.read 2
  return (c, (if (c.overrideState inst.toUInt8).isSome then
      [Effect.state inst.toUInt8 (overrideStateOf state)] else []) ++
    (if (c.overrideSetback inst.toUInt8).isSome then
      [Effect.setback inst.toUInt8 setback] else []))

/-- `HandleMsg`; the answer is whether the command is known. -/
def handleMsg (sender : Sender) (id : ℕ) (c : ClimateControlSchedule) (f : CommandFrame)
    (inst : UInt32) : Except FrameFault (Bool × ClimateControlSchedule × List Effect) := do
  let cmd ← f.read 0
  if cmd = cmdReport then return (true, ← handleReport c f inst)
  else if cmd = cmdChangedReport then return (true, ← handleChangedReport sender id c f)
  else if cmd = cmdOverrideReport then return (true, ← handleOverrideReport c f inst)
  else return (false, c, [])

/-! ## Setting -/

/-- A slot of the set command. -/
def slot : Option SwitchPoint → List UInt8
  | some point => [point.hours, point.minutes, point.setback.toUInt8]
  | none => [0, 0, 0x7f]

/-- The command that sets the schedule of a day. -/
def scheduleCommand (idx : UInt8) (value : ValueSchedule) :
    Except ValueSchedule.Fault (List UInt8) :=
  (List.range 9).foldlM (fun command i => do
    return command ++ slot (← value.getSwitchPoint (UInt8.ofNat i))) [classId, cmdSet, idx]

def overrideSet (sender : Sender) (id : ℕ) (inst : UInt8) (item : Int32) (setback : UInt8) :
    SendData :=
  sender.request (sender.onInstance (sender.get id classId) inst) 4
    [classId, cmdOverrideSet, item.toUInt32.toUInt8, setback]

/-- `SetValue`, with the requests it sends; `value` is the value of a day. -/
def setValue (sender : Sender) (id : ℕ) (c : ClimateControlSchedule) (inst : UInt8)
    (index : UInt16) (value : ValueSchedule) :
    Except ValueSchedule.Fault (Bool × List SendData) := do
  let idx := (index &&& 0xFF).toUInt8
  if idx < 8 then
    let command ← scheduleCommand idx value
    return (true, [sender.request (sender.onInstance (sender.get id classId) inst) 30 command])
  else
    match c.overrideState inst with
    | some (some item) =>
        match c.overrideSetback inst with
        | some setback => return (true, [overrideSet sender id inst item setback])
        | none => return (true, [])
    | _ => return (true, [])

/-! ## What a report may read -/

section Reports

variable {c : ClimateControlSchedule} {f : CommandFrame}

/-- The third byte of each slot is there, up to the first slot that is not used. -/
def SlotsFit (f : CommandFrame) : Prop :=
  ∀ k < 9, (∀ j < k, f.data.getD (4 + 3 * j) 0 ≠ 0x7f) → 4 + 3 * k < f.data.length

/-- A message has a command and the bytes that its command needs. -/
structure Readable (c : ClimateControlSchedule) (f : CommandFrame) (inst : UInt32) : Prop where
  command : 1 ≤ f.data.length
  report : f.data.getD 0 0 = cmdReport → 2 ≤ f.data.length ∧
    ((c.schedules inst.toUInt8 (dayOf (f.data.getD 1 0))).isSome = true → SlotsFit f)
  changed : f.data.getD 0 0 = cmdChangedReport → 2 ≤ f.data.length
  override : f.data.getD 0 0 = cmdOverrideReport → 3 ≤ f.data.length

theorem inTable_yields {α : Type} {x : Except ValueSchedule.Fault α} {Q : α → Prop}
    (h : Yields x Q) : Yields (inTable x) Q := by
  obtain ⟨a, rfl, ha⟩ := h
  exact ⟨a, rfl, ha⟩

/-- The slots are read without a fault if those bytes are there. -/
theorem safe_readSlots_iff {n i : ℕ} {value : ValueSchedule} (h : value.Ordered) :
    Safe (readSlots f n i value) ↔
      ∀ k < n, (∀ j < k, f.data.getD (i + 2 + 3 * j) 0 ≠ 0x7f) → i + 2 + 3 * k < f.data.length := by
  induction n generalizing i value with
  | zero => exact iff_of_true ⟨value, rfl⟩ fun k hk => absurd hk (Nat.not_lt_zero k)
  | succ n ih =>
      rw [readSlots]
      by_cases hthird : i + 2 < f.data.length
      · rw [f.read_bind hthird]
        by_cases hunused : f.data.getD (i + 2) 0 = 0x7f
        · rw [if_pos hunused]
          refine iff_of_true ⟨value, rfl⟩ fun k hk hused => ?_
          cases k with
          | zero => exact hthird
          | succ k => exact absurd hunused (hused 0 (Nat.succ_pos k))
        · rw [if_neg hunused, f.read_bind (by omega), f.read_bind (by omega)]
          obtain ⟨r, hr, hordered⟩ := inTable_yields (ValueSchedule.ordered_set h
            (f.data.getD i 0 &&& 0x1f) (f.data.getD (i + 1) 0 &&& 0x3f)
            (f.data.getD (i + 2) 0).toInt8)
          rw [hr, ok_bind, ih hordered]
          constructor
          · intro hrest k hk hused
            cases k with
            | zero => exact hthird
            | succ k =>
                have hlast := hrest k (by omega) fun j hj => by
                  have hj := hused (j + 1) (by omega)
                  rwa [show i + 2 + 3 * (j + 1) = i + 3 + 2 + 3 * j by omega] at hj
                omega
          · intro hall k hk hused
            have hlast := hall (k + 1) (by omega) fun j hj => by
              cases j with
              | zero => exact hunused
              | succ j =>
                  have hj := hused j (by omega)
                  rwa [show i + 3 + 2 + 3 * j = i + 2 + 3 * (j + 1) by omega] at hj
            omega
      · refine iff_of_false ?_ fun hall => hthird (hall 0 (Nat.succ_pos n) fun j hj => nomatch hj)
        rintro ⟨r, hr⟩
        exact hthird (CommandFrame.read_bind_eq_ok.mp hr).1

/-- Only the schedule of the reported day changes. -/
def Elsewhere (c : ClimateControlSchedule) (f : CommandFrame) (inst : UInt32)
    (c' : ClimateControlSchedule) : Prop :=
  ∀ i index, ¬ (f.data.getD 0 0 = cmdReport ∧ i = inst.toUInt8 ∧
    index = dayOf (f.data.getD 1 0)) → c'.schedules i index = c.schedules i index

theorem elsewhere_setSchedule {inst : UInt32} (hreport : f.data.getD 0 0 = cmdReport)
    (value : ValueSchedule) :
    Elsewhere c f inst (c.setSchedule inst.toUInt8 (dayOf (f.data.getD 1 0)) value) := by
  intro i index hother
  rw [setSchedule]
  by_cases hinst : i = inst.toUInt8
  · subst hinst
    have hindex : index ≠ dayOf (f.data.getD 1 0) := fun heq => hother ⟨hreport, rfl, heq⟩
    dsimp only
    rw [Function.update_self, Function.update_of_ne hindex]
  · dsimp only
    rw [Function.update_of_ne hinst]

theorem ordered_clearSwitchPoints (value : ValueSchedule) : value.clearSwitchPoints.Ordered :=
  ⟨Nat.zero_le 9, List.Pairwise.nil⟩

theorem handleReport_yields_iff {inst : UInt32} (hreport : f.data.getD 0 0 = cmdReport) :
    Yields (handleReport c f inst) (fun r => Elsewhere c f inst r.1) ↔
      2 ≤ f.data.length ∧
        ((c.schedules inst.toUInt8 (dayOf (f.data.getD 1 0))).isSome = true → SlotsFit f) := by
  rw [handleReport, CommandFrame.yields_read_bind]
  refine and_congr_right fun _ => ?_
  cases hvalue : c.schedules inst.toUInt8 (dayOf (f.data.getD 1 0)) with
  | none => exact iff_of_true (yields_pure.mpr fun _ _ _ => rfl) nofun
  | some value =>
      have hslots := safe_readSlots_iff (f := f) (n := 9) (i := 2)
        (ordered_clearSwitchPoints value)
      constructor
      · rintro ⟨r, hr, -⟩ -
        obtain ⟨value', hvalue', -⟩ := bind_eq_ok.mp hr
        exact hslots.mp ⟨value', hvalue'⟩
      · intro hfits
        obtain ⟨value', hvalue'⟩ := hslots.mpr (hfits rfl)
        refine ⟨_, bind_eq_ok.mpr ⟨value', hvalue', rfl⟩, ?_⟩
        exact elsewhere_setSchedule hreport value'

theorem handleChangedReport_yields_iff (sender : Sender) (id : ℕ) (inst : UInt32) :
    Yields (handleChangedReport sender id c f) (fun r => Elsewhere c f inst r.1) ↔
      2 ≤ f.data.length := by
  rw [handleChangedReport, CommandFrame.yields_read_bind]
  refine and_iff_left ?_
  split
  · split
    · exact yields_pure.mpr fun _ _ _ => rfl
    · exact yields_pure.mpr fun _ _ _ => rfl
  · exact yields_pure.mpr fun _ _ _ => rfl

theorem handleOverrideReport_yields_iff (inst : UInt32) :
    Yields (handleOverrideReport c f inst) (fun r => Elsewhere c f inst r.1) ↔
      3 ≤ f.data.length := by
  rw [handleOverrideReport, CommandFrame.yields_read_bind, CommandFrame.yields_read_bind]
  constructor
  · rintro ⟨-, hlong, -⟩
    exact hlong
  · intro hlong
    exact ⟨by omega, hlong, yields_pure.mpr fun _ _ _ => rfl⟩

/-- A message is read inside of its bytes, and changes the schedule of its day only. -/
theorem handleMsg_yields_iff (sender : Sender) (id : ℕ) (inst : UInt32) :
    Yields (handleMsg sender id c f inst) (fun r => Elsewhere c f inst r.2.1) ↔
      Readable c f inst := by
  have hpair : ∀ x : Except FrameFault (ClimateControlSchedule × List Effect),
      (Yields (x >>= fun r => pure (true, r)) fun r => Elsewhere c f inst r.2.1) ↔
        Yields x fun r => Elsewhere c f inst r.1 := by
    intro x
    constructor
    · rintro ⟨r, hr, helse⟩
      obtain ⟨r', hr', hpure⟩ := bind_eq_ok.mp hr
      cases hpure
      exact ⟨r', hr', helse⟩
    · exact fun hx => hx.bind fun r hr => yields_pure.mpr hr
  have hfields : Readable c f inst ↔ 1 ≤ f.data.length ∧
      (f.data.getD 0 0 = cmdReport → 2 ≤ f.data.length ∧
        ((c.schedules inst.toUInt8 (dayOf (f.data.getD 1 0))).isSome = true → SlotsFit f)) ∧
      (f.data.getD 0 0 = cmdChangedReport → 2 ≤ f.data.length) ∧
      (f.data.getD 0 0 = cmdOverrideReport → 3 ≤ f.data.length) :=
    ⟨fun h => ⟨h.command, h.report, h.changed, h.override⟩,
      fun h => ⟨h.1, h.2.1, h.2.2.1, h.2.2.2⟩⟩
  rw [hfields, handleMsg, CommandFrame.yields_read_bind]
  refine and_congr_right fun _ => ?_
  by_cases hreport : f.data.getD 0 0 = cmdReport
  · have hchanged : cmdReport ≠ cmdChangedReport := by decide
    have hoverride : cmdReport ≠ cmdOverrideReport := by decide
    rw [if_pos hreport, hpair, handleReport_yields_iff hreport, hreport]
    exact ⟨fun h => ⟨fun _ => h, fun h' => absurd h' hchanged, fun h' => absurd h' hoverride⟩,
      fun h => h.1 rfl⟩
  · rw [if_neg hreport]
    by_cases hchanged : f.data.getD 0 0 = cmdChangedReport
    · have hoverride : cmdChangedReport ≠ cmdOverrideReport := by decide
      have hnot : cmdChangedReport ≠ cmdReport := by decide
      rw [if_pos hchanged, hpair, handleChangedReport_yields_iff, hchanged]
      exact ⟨fun h => ⟨fun h' => absurd h' hnot, fun _ => h, fun h' => absurd h' hoverride⟩,
        fun h => h.2.1 rfl⟩
    · rw [if_neg hchanged]
      by_cases hoverride : f.data.getD 0 0 = cmdOverrideReport
      · rw [if_pos hoverride, hpair, handleOverrideReport_yields_iff]
        exact ⟨fun h => ⟨fun h' => absurd h' hreport, fun h' => absurd h' hchanged, fun _ => h⟩,
          fun h => h.2.2 hoverride⟩
      · rw [if_neg hoverride]
        refine iff_of_true (yields_pure.mpr fun _ _ _ => rfl) ?_
        exact ⟨fun h => absurd h hreport, fun h => absurd h hchanged, fun h => absurd h hoverride⟩

end Reports

/-! ## What is set and reported -/

/-- The fields of the switch points fit into a slot, and no setback ends the schedule. -/
structure Sendable (value : ValueSchedule) : Prop where
  ordered : value.Ordered
  slots : ∀ point ∈ value.points, point.hours < 32 ∧ point.minutes < 64 ∧ point.setback ≠ 127

section RoundTrip

variable {value : ValueSchedule} {f : CommandFrame}

theorem length_slot (point : Option SwitchPoint) : (slot point).length = 3 := by
  cases point <;> rfl

/-- The slots are those of the points, and then unused ones. -/
theorem flatMap_slots (points : List SwitchPoint) (n : ℕ) :
    (List.range (points.length + n)).flatMap (fun i => slot points[i]?) =
      points.flatMap (fun point => slot (some point)) ++ (List.replicate n (slot none)).flatten := by
  induction points with
  | nil =>
      have hall : (List.range n).map (fun i => slot ([] : List SwitchPoint)[i]?) =
          List.replicate n (slot none) :=
        List.eq_replicate_iff.mpr ⟨by rw [List.length_map, List.length_range], fun bytes hbytes => by
          obtain ⟨i, -, rfl⟩ := List.mem_map.mp hbytes
          rw [List.getElem?_nil]⟩
      rw [List.length_nil, Nat.zero_add, List.flatMap_nil, List.nil_append, List.flatMap_def, hall]
  | cons point points ih =>
      rw [List.length_cons, Nat.add_right_comm, List.range_succ_eq_map, List.flatMap_cons,
        List.flatMap_map, List.flatMap_cons, List.append_assoc, ← ih]
      rfl

theorem getSwitchPoint_slot (h : value.Ordered) {i : ℕ} (hi : i < 9) :
    value.getSwitchPoint (UInt8.ofNat i) = .ok value.points[i]? := by
  have hlength := ValueSchedule.length_points h.few
  by_cases hin : i < value.numSwitchPoints.toNat
  · exact ValueSchedule.getSwitchPoint_eq h.few hin
  · have hbyte : (UInt8.ofNat i).toNat = i := by
      rw [UInt8.toNat_ofNat']
      exact Nat.mod_eq_of_lt (by omega)
    have hout : UInt8.ofNat i ≥ value.numSwitchPoints := by
      rw [ge_iff_le, UInt8.le_iff_toNat_le, hbyte]
      omega
    rw [ValueSchedule.getSwitchPoint, if_pos hout, List.getElem?_eq_none (by omega)]
    rfl

/-- The command has the slots of the points. -/
theorem scheduleCommand_eq (h : value.Ordered) (idx : UInt8) :
    scheduleCommand idx value = .ok ([classId, cmdSet, idx] ++
      (value.points.flatMap (fun point => slot (some point)) ++
        (List.replicate (9 - value.points.length) (slot none)).flatten)) := by
  have hlength : value.points.length ≤ 9 := (ValueSchedule.length_points h.few).trans_le h.few
  have hloop : ∀ l : List ℕ, (∀ i ∈ l, i < 9) → ∀ command : List UInt8,
      l.foldlM (fun command i => do
        return command ++ slot (← value.getSwitchPoint (UInt8.ofNat i))) command =
      .ok (command ++ l.flatMap fun i => slot value.points[i]?) := by
    intro l hl
    induction l with
    | nil => exact fun command => congrArg Except.ok (List.append_nil command).symm
    | cons i l ih =>
        intro command
        obtain ⟨hi, hl⟩ := List.forall_mem_cons.mp hl
        rw [List.foldlM_cons, getSwitchPoint_slot h hi, ok_bind, pure_bind, ih hl,
          List.flatMap_cons, List.append_assoc]
  rw [scheduleCommand, hloop _ fun i hi => List.mem_range.mp hi, ← flatMap_slots,
    Nat.add_sub_cancel' hlength]

/-- Every slot has three bytes. -/
theorem length_slots (points : List SwitchPoint) (n : ℕ) :
    (points.flatMap (fun point => slot (some point)) ++
      (List.replicate n (slot none)).flatten).length = 3 * (points.length + n) := by
  have hpoints : (points.flatMap fun point => slot (some point)).length = 3 * points.length := by
    rw [List.length_flatMap]
    simp only [length_slot, List.map_const', List.sum_replicate_nat]
    exact Nat.mul_comm _ _
  rw [List.length_append, hpoints, List.length_flatten, List.map_replicate,
    List.sum_replicate_nat, length_slot, Nat.mul_add, Nat.mul_comm n]

theorem hours_mask {hours : UInt8} (h : hours < 32) : hours &&& 0x1f = hours := by
  rw [← UInt8.toNat_inj, UInt8.toNat_and]
  exact (Nat.and_two_pow_sub_one_eq_mod _ 5).trans (Nat.mod_eq_of_lt (UInt8.lt_iff_toNat_lt.mp h))

theorem minutes_mask {minutes : UInt8} (h : minutes < 64) : minutes &&& 0x3f = minutes := by
  rw [← UInt8.toNat_inj, UInt8.toNat_and]
  exact (Nat.and_two_pow_sub_one_eq_mod _ 6).trans (Nat.mod_eq_of_lt (UInt8.lt_iff_toNat_lt.mp h))

theorem getD_drop (i j : ℕ) : (f.data.drop i).getD j 0 = f.data.getD (i + j) 0 := by
  rw [List.getD_eq_getElem?_getD, List.getD_eq_getElem?_getD, List.getElem?_drop]

/-- The points of a report are read behind those that are there. -/
theorem readSlots_points {points : List SwitchPoint} {n i : ℕ} (h : value.Ordered)
    (hslots : ∀ point ∈ points, point.hours < 32 ∧ point.minutes < 64 ∧ point.setback ≠ 127)
    (hsorted : Sorted SwitchPoint.time (value.points ++ points))
    (hroom : (value.points ++ points).length ≤ 9)
    (hdata : f.data.drop i = points.flatMap (fun point => slot (some point)) ++
      (List.replicate n (slot none)).flatten) :
    Yields (readSlots f (points.length + n) i value) fun value' =>
      value'.Ordered ∧ value'.points = value.points ++ points := by
  induction points generalizing value i with
  | nil =>
      rw [List.append_nil]
      cases n with
      | zero => exact yields_pure.mpr ⟨h, rfl⟩
      | succ n =>
          have hfit : i + 3 ≤ f.data.length := by
            have hlength := congrArg List.length hdata
            rw [length_slots, List.length_drop, List.length_nil] at hlength
            omega
          have hunused : f.data.getD (i + 2) 0 = 0x7f := by
            rw [← getD_drop, hdata]
            rfl
          rw [List.length_nil, Nat.zero_add, readSlots, f.read_bind (by omega), if_pos hunused]
          exact yields_pure.mpr ⟨h, rfl⟩
  | cons point points ih =>
      obtain ⟨⟨hhours, hminutes, hsetback⟩, hslots⟩ := List.forall_mem_cons.mp hslots
      have hfit : i + 3 ≤ f.data.length := by
        have hlength := congrArg List.length hdata
        rw [length_slots, List.length_drop, List.length_cons] at hlength
        omega
      have hfirst : f.data.getD i 0 = point.hours := by
        rw [← Nat.add_zero i, ← getD_drop, hdata]
        rfl
      have hsecond : f.data.getD (i + 1) 0 = point.minutes := by
        rw [← getD_drop, hdata]
        rfl
      have hthird : f.data.getD (i + 2) 0 = point.setback.toUInt8 := by
        rw [← getD_drop, hdata]
        rfl
      have hrest : f.data.drop (i + 3) = points.flatMap (fun point => slot (some point)) ++
          (List.replicate n (slot none)).flatten := by
        rw [← List.drop_drop, hdata]
        rfl
      have hused : ¬ point.setback.toUInt8 = 0x7f := fun heq =>
        hsetback (congrArg UInt8.toInt8 heq)
      rw [List.length_cons, Nat.add_right_comm, readSlots, f.read_bind (by omega), hthird,
        if_neg hused, f.read_bind (by omega), f.read_bind (by omega), hfirst, hsecond,
        hours_mask hhours, minutes_mask hminutes]
      refine (inTable_yields (ValueSchedule.setSwitchPoint_append h hsorted hroom)).bind
        fun r hr => ?_
      rw [List.append_cons, ← hr.2] at hsorted hroom ⊢
      exact ih hr.1 hslots hsorted hroom hrest

/-- What a report restores: on every instance that has a schedule for the day. -/
def Restores (value : ValueSchedule) (day : UInt16) (f : CommandFrame) : Prop :=
  ∀ (sender : Sender) (id : ℕ) (c : ClimateControlSchedule) (inst : UInt32),
    (c.schedules inst.toUInt8 day).isSome = true →
      Yields (handleMsg sender id c f inst) fun r =>
        ∃ value', r.2.1.schedules inst.toUInt8 day = some value' ∧ value'.points = value.points

theorem toNat_day {day : UInt16} (hlast : day ≤ 7) :
    ((day &&& 0xFF).toUInt8).toNat = day.toNat := by
  have hseven : day.toNat ≤ 7 := UInt16.le_iff_toNat_le.mp hlast
  have hmask : day.toNat &&& 255 = day.toNat % 2 ^ 8 := Nat.and_two_pow_sub_one_eq_mod _ 8
  rw [UInt16.toNat_toUInt8, UInt16.toNat_and]
  change (day.toNat &&& 255) % 256 = _
  omega

theorem dayOf_day {day : UInt16} (hlast : day ≤ 7) : dayOf (day &&& 0xFF).toUInt8 = day := by
  have hseven : day.toNat ≤ 7 := UInt16.le_iff_toNat_le.mp hlast
  have hday := toNat_day hlast
  have hmask : (day &&& 0xFF).toUInt8 &&& 0x07 = (day &&& 0xFF).toUInt8 := by
    rw [← UInt8.toNat_inj, UInt8.toNat_and]
    exact (Nat.and_two_pow_sub_one_eq_mod _ 3).trans (Nat.mod_eq_of_lt (by omega))
  have hsmall : ¬ (day &&& 0xFF).toUInt8 > 7 := by
    rw [gt_iff_lt, UInt8.lt_iff_toNat_lt, hday]
    exact Nat.not_lt.mpr hseven
  rw [dayOf, hmask, if_neg hsmall, ← UInt16.toNat_inj, UInt8.toNat_toUInt16, hday]

/-- A report with the day and the slots of a schedule. -/
theorem restores_slots (h : Sendable value) {day : UInt16} (hlast : day ≤ 7)
    (hdata : f.data = [cmdReport, (day &&& 0xFF).toUInt8] ++
      (value.points.flatMap (fun point => slot (some point)) ++
        (List.replicate (9 - value.points.length) (slot none)).flatten)) :
    Restores value day f := by
  intro sender id c inst hvalue
  have hlength : value.points.length ≤ 9 :=
    (ValueSchedule.length_points h.ordered.few).trans_le h.ordered.few
  obtain ⟨old, hold⟩ := Option.isSome_iff_exists.mp hvalue
  have hcmd : f.data.getD 0 0 = cmdReport := by rw [hdata]; rfl
  have hday : dayOf (f.data.getD 1 0) = day := by
    rw [hdata]
    exact dayOf_day hlast
  have hlong : 2 ≤ f.data.length := by
    rw [hdata, List.length_append]
    exact Nat.le_add_right 2 _
  have hslots : f.data.drop 2 = value.points.flatMap (fun point => slot (some point)) ++
      (List.replicate (9 - value.points.length) (slot none)).flatten := by
    rw [hdata]
    rfl
  have hread := readSlots_points (ordered_clearSwitchPoints old) h.slots
    (h.ordered.sorted : Sorted _ ([] ++ value.points)) hlength hslots
  rw [Nat.add_sub_cancel' hlength] at hread
  rw [handleMsg, f.read_bind (by omega), if_pos hcmd, handleReport, f.read_bind (by omega), hday,
    hold]
  obtain ⟨value', hvalue', -, hpoints⟩ := hread
  refine ⟨(true, c.setSchedule inst.toUInt8 day value', [.schedule inst.toUInt8 day]), ?_, value',
    ?_, hpoints⟩
  · dsimp only
    rw [hvalue']
    rfl
  · dsimp only [setSchedule]
    rw [Function.update_self, Function.update_self]

/-- The command for a day has 30 bytes, and a report with its day and slots restores the
schedule. -/
theorem setValue_yields (h : Sendable value) {day : UInt16} (hlast : day ≤ 7)
    (sender : Sender) (id : ℕ) (c : ClimateControlSchedule) (inst : UInt8) :
    Yields (setValue sender id c inst day value) fun r => ∃ request, r = (true, [request]) ∧
      request.declared.toNat = request.command.length ∧
      ∀ f : CommandFrame, f.data = cmdReport :: request.command.drop 2 →
        Restores value day f := by
  have hlength : value.points.length ≤ 9 :=
    (ValueSchedule.length_points h.ordered.few).trans_le h.ordered.few
  have hseven : day.toNat ≤ 7 := UInt16.le_iff_toNat_le.mp hlast
  have hidx : (day &&& 0xFF).toUInt8 < 8 := by
    rw [UInt8.lt_iff_toNat_lt, toNat_day hlast]
    exact Nat.lt_succ_of_le hseven
  rw [setValue]
  simp only [if_pos hidx, scheduleCommand_eq h.ordered, ok_bind]
  refine yields_pure.mpr ⟨_, rfl, ?_, fun f hdata => restores_slots h hlast hdata⟩
  change 30 = _
  rw [Sender.request, List.length_append, length_slots, Nat.add_sub_cancel' hlength]
  rfl

end RoundTrip

/-- Schedules that are set and reported come back, whatever the state, and a message is read
inside of its bytes, and changes the schedule of its day only, if it has the bytes of its
slots. -/
theorem schedules_restored_iff (sender : Sender) (id : ℕ) (c : ClimateControlSchedule)
    (f : CommandFrame) (inst : UInt32) :
    (∀ (value : ValueSchedule) (day : UInt16) (i : UInt8), Sendable value → 1 ≤ day → day ≤ 7 →
      Yields (setValue sender id c i day value) fun r => ∃ request, r = (true, [request]) ∧
        request.declared.toNat = request.command.length ∧
        ∀ report : CommandFrame, report.data = cmdReport :: request.command.drop 2 →
          Restores value day report) ∧
      ((Yields (handleMsg sender id c f inst) fun r => Elsewhere c f inst r.2.1) ↔
        Readable c f inst) :=
  ⟨fun _ _ i h _ hlast => setValue_yields h hlast sender id c i,
    handleMsg_yields_iff sender id inst⟩

/-- An empty schedule for Monday on the first instance. -/
def monday : ClimateControlSchedule where
  changeCounter := 0
  schedules := fun i index =>
    if i = 1 ∧ index = 1 then some (.new (Vector.replicate 9 ⟨0, 0, 0⟩)) else none
  overrideState := fun _ => none
  overrideSetback := fun _ => none

/-- A report without slots is left. -/
theorem schedules_not_restored :
    ¬ Yields (handleMsg ⟨5, 0x25, CommandClass.new, none⟩ 1 monday
        ⟨[0x03, 0x01], by decide⟩ 1) fun r =>
      Elsewhere monday ⟨[0x03, 0x01], by decide⟩ 1 r.2.1 := by
  rintro ⟨r, hr, -⟩
  cases hr

end ClimateControlSchedule

end OpenZWave

import OpenZWave.CommandFrame
import OpenZWave.Lib.NumberText
import Mathlib.Data.String.Basic

/-!
# Records of a door lock

`DoorLockLogging::HandleMsg` with its accesses to the report, to the table of labels and
to the buffers it writes its texts to.
-/

namespace OpenZWave

open Checked NumberText

namespace DoorLockLogging

def recordSupported_Report : UInt8 := 0x02
def record_Report : UInt8 := 0x04

def doorLockEventType_Max : UInt8 := 0x20

/-- `c_DoorLockEventType`. -/
def c_DoorLockEventType : List String :=
  [ "Locked via Access Code",
    "Unlocked via Access Code",
    "Locked via Lock Button",
    "Unlocked via UnLock Button",
    "Lock Attempt via Out of Schedule Access Code",
    "Unlock Attempt via Out of Schedule Access Code",
    "Illegal Access Code Entered",
    "Manually Locked",
    "Manually UnLocked",
    "Auto Locked",
    "Auto Unlocked",
    "Locked via Remote Out of Schedule Access Code",
    "Unlocked via Remote Out of Schedule Access Code",
    "Locked via Remote",
    "Unlocked via Remote",
    "Lock Attempt via Remote Out of Schedule Access Code",
    "Unlock Attempt via Remote Out of Schedule Access Code",
    "Illegal Remote Access Code",
    "Manually Locked (2)",
    "Manually Unlocked (2)",
    "Lock Secured",
    "Lock Unsecured",
    "User Code Added",
    "User Code Deleted",
    "All User Codes Deleted",
    "Master Code Changed",
    "User Code Changed",
    "Lock Reset",
    "Configuration Changed",
    "Low Battery",
    "New Battery Installed",
    "Unknown" ]

/-- `c_DoorLockEventType[i]`. -/
def label : ℤ → Except FrameFault String
  | .ofNat i => readAt c_DoorLockEventType i .table
  | .negSucc _ => .error .table

/-- The event that a record is taken for. -/
def eventType (event : UInt8) : UInt8 :=
  if event ≥ doorLockEventType_Max then doorLockEventType_Max else event

/-- The values that an instance of the class has. -/
structure Values where
  maxRecords : Bool
  getRecordNo : Bool
  logRecord : Bool

/-- What `HandleMsg` does with a record: the label it logs for the number of the record,
and the values it refreshes. -/
structure Record where
  logged : UInt8 × String
  getRecordNo : Option UInt8
  logRecord : Option (List Char)
  deriving DecidableEq

inductive Reaction
  | maxRecords (number : UInt8) (refreshed : Option UInt8)
  | record (r : Record)
  | ignored
  deriving DecidableEq

/-- `snprintf` into a buffer of `size` bytes. -/
def snprintf (size : ℕ) (text : List Char) : List Char := text.take (size - 1)

/-- `%02d/%02d/%02d %02d:%02d:%02d \tMessage: %s \tUserID: %d \t%s`. -/
def recordText (day month : UInt8) (year : UInt16) (hour minute second : UInt8) (label : String)
    (userid : UInt8) (usercode : List Char) : List Char :=
  printIntPadded 2 day.toNat ++ ['/'] ++ printIntPadded 2 month.toNat ++ ['/'] ++
    printIntPadded 2 year.toNat ++ [' '] ++ printIntPadded 2 hour.toNat ++ [':'] ++
    printIntPadded 2 minute.toNat ++ [':'] ++ printIntPadded 2 second.toNat ++
    " \tMessage: ".toList ++ label.toList ++ " \tUserID: ".toList ++ printInt userid.toNat ++
    " \t".toList ++ usercode

/-- The code of the user: its bytes in decimal, one after the other. -/
def readUserCode (f : CommandFrame) (usercodelength : UInt8) : Except FrameFault (List Char) :=
  (List.range usercodelength.toNat).foldlM
    (fun usercode i => do
      let digit ← f.read (12 + i)
      append 254 .overrun usercode (snprintf 10 (printInt digit.toNat)))
    (snprintf 254 "UserCode:".toList)

/-- The text of the Log Record value. -/
def readRecord (f : CommandFrame) (event : UInt8) : Except FrameFault (List Char) := do
  let year := ((← f.read 2).toUInt16 <<< 8) + ((← f.read 3) &&& 0xFF).toUInt16
  let month := (← f.read 4) &&& 0x0F
  let day := (← f.read 5) &&& 0x1F
  let hour := (← f.read 6) &&& 0x1F
  let minute := (← f.read 7) &&& 0x3F
  let second := (← f.read 8) &&& 0x3F
  let valid := decide (((← f.read 6) &&& 0xE0) >>> 5 > 0)
  let userid ← f.read 10
  let usercodelength ← f.read 11
  let usercode ← readUserCode f usercodelength
  if valid then
    let text ← label event.toNat
    return snprintf 512 (recordText day month year hour minute second text userid usercode)
  else return snprintf 512 "Invalid Record".toList

/-- `HandleMsg` on an instance with the given values. -/
def handleMsg (values : Values) (f : CommandFrame) : Except FrameFault Reaction := do
  let command ← f.read 0
  if command = recordSupported_Report then
    let number ← f.read 1
    return .maxRecords number (if values.maxRecords then some number else none)
  else if command = record_Report then
    let event ← f.read 9
    let number ← f.read 1
    let text ← label ((eventType event).toNat - 1)
    let getRecordNo := if values.getRecordNo then some number else none
    if values.logRecord then
      let logRecord ← readRecord f (eventType event)
      return .record ⟨(number, text), getRecordNo, some logRecord⟩
    else return .record ⟨(number, text), getRecordNo, none⟩
  else return .ignored

/-! ## The label of an event -/

/-- The labels are those of the events from 1 on; the last is for all others. -/
def eventLabel (event : UInt8) : String :=
  if event = 0 ∨ event ≥ doorLockEventType_Max then "Unknown"
  else c_DoorLockEventType.getD (event.toNat - 1) ""

theorem label_eq_ok {i : ℕ} {text : String} :
    label i = .ok text ↔ c_DoorLockEventType[i]? = some text := by
  change readAt c_DoorLockEventType i FrameFault.table = .ok text ↔ _
  rw [readAt]
  cases c_DoorLockEventType[i]? with
  | none => exact iff_of_false (fun h => by cases h) (fun h => by cases h)
  | some a =>
      rw [Option.some.injEq]
      exact ok_eq_ok

/-- The label that is logged is that of the event. -/
theorem label_pred {event : UInt8} (h : event ≠ 0) :
    label ((eventType event).toNat - 1) = .ok (eventLabel event) := by
  rw [eventType, eventLabel]
  by_cases hmax : event ≥ doorLockEventType_Max
  · rw [if_pos hmax, if_pos (Or.inr hmax)]
    rfl
  · rw [if_neg hmax, if_neg (not_or.mpr ⟨h, hmax⟩)]
    rw [ge_iff_le, UInt8.le_iff_toNat_le, Nat.not_le] at hmax
    have hless : event.toNat < 32 := hmax
    have hpositive : 0 < event.toNat :=
      Nat.pos_of_ne_zero fun hzero => h (UInt8.toNat_inj.mp hzero)
    have hindex : (event.toNat : ℤ) - 1 = (event.toNat - 1 : ℕ) := by omega
    have hinside : event.toNat - 1 < c_DoorLockEventType.length :=
      show event.toNat - 1 < 32 by omega
    rw [hindex, label_eq_ok, List.getD_eq_getElem?_getD, List.getElem?_eq_getElem hinside]
    rfl

/-- No two labels in a row are equal. -/
theorem label_ne_label : ∀ i < 31, c_DoorLockEventType[i + 1]? ≠ c_DoorLockEventType[i]? := by
  decide

/-- The label that is put in the text is another one. -/
theorem ne_eventLabel {event : UInt8} (h : event ≠ 0) {text : String}
    (htext : label (eventType event).toNat = .ok text) : text ≠ eventLabel event := by
  rintro rfl
  have hpositive : 0 < (eventType event).toNat := by
    rw [eventType]
    split
    · exact Nat.zero_lt_succ 31
    · exact Nat.pos_of_ne_zero fun hzero => h (UInt8.toNat_inj.mp hzero)
  obtain ⟨i, hi⟩ := Nat.exists_eq_add_one.mpr hpositive
  have hlogged := label_pred h
  rw [hi] at htext hlogged
  have hindex : ((i + 1 : ℕ) : ℤ) - 1 = i := by omega
  rw [hindex, label_eq_ok] at hlogged
  rw [label_eq_ok] at htext
  obtain ⟨hinside, -⟩ := List.getElem?_eq_some_iff.mp htext
  exact label_ne_label i (Nat.lt_of_succ_lt_succ hinside) (htext.trans hlogged.symm)

/-! ## The texts -/

/-- The code that the report gives. -/
def userCodeText (f : CommandFrame) : List Char :=
  "UserCode:".toList ++ ((f.data.drop 12).take (f.data.getD 11 0).toNat).flatMap
    fun digit => printInt digit.toNat

theorem snprintf_digit (digit : UInt8) : snprintf 10 (printInt digit.toNat) = printInt digit.toNat := by
  apply List.take_of_length_le
  change (Nat.toDigits 10 digit.toNat).length ≤ 9
  rw [Nat.length_toDigits_le_iff (by decide) (by decide)]
  exact Nat.lt_trans digit.toNat_lt (by decide)

theorem readUserCode_eq_ok {f : CommandFrame} (hlength : 12 ≤ f.data.length) {text : List Char} :
    readUserCode f (f.data.getD 11 0) = .ok text ↔
      12 + (f.data.getD 11 0).toNat ≤ f.data.length ∧ (userCodeText f).length < 254 ∧
        userCodeText f = text := by
  rw [readUserCode]
  simp only [snprintf_digit]
  refine (foldlM_readAt_eq_ok hlength).trans (and_congr_right fun _ => ?_)
  exact foldlM_append_eq_ok (by decide)

/-- The record says itself that it holds an event. -/
def IsValid (f : CommandFrame) : Prop := f.data.getD 6 0 &&& 0xE0 ≠ 0

instance (f : CommandFrame) : Decidable (IsValid f) := inferInstanceAs (Decidable (_ ≠ _))

/-- The text for a record with the label of its event. -/
def logText (f : CommandFrame) : List Char :=
  if IsValid f then
    recordText (f.data.getD 5 0 &&& 0x1F) (f.data.getD 4 0 &&& 0x0F)
      (((f.data.getD 2 0).toUInt16 <<< 8) + (f.data.getD 3 0).toUInt16)
      (f.data.getD 6 0 &&& 0x1F) (f.data.getD 7 0 &&& 0x3F) (f.data.getD 8 0 &&& 0x3F)
      (eventLabel (f.data.getD 9 0)) (f.data.getD 10 0) (userCodeText f)
  else "Invalid Record".toList

/-- A report of a record is decoded from its own bytes, with one label for its event, and
no access leaves the report, the table or a buffer. -/
def Faithful (values : Values) (f : CommandFrame) (result : Except FrameFault Reaction) : Prop :=
  f.data.head? = some record_Report → Yields result fun reaction =>
    reaction = .record
      { logged := (f.data.getD 1 0, eventLabel (f.data.getD 9 0))
        getRecordNo := if values.getRecordNo then some (f.data.getD 1 0) else none
        logRecord := if values.logRecord then some (logText f) else none }

/-- The report has an event; if there is a text to be made, the report is complete, its
code is short enough, and it says itself that it is not valid. -/
def Decodable (values : Values) (f : CommandFrame) : Prop :=
  f.data.head? = some record_Report → 10 ≤ f.data.length ∧ f.data.getD 9 0 ≠ 0 ∧
    (values.logRecord = true → 12 + (f.data.getD 11 0).toNat ≤ f.data.length ∧
      (userCodeText f).length < 254 ∧ ¬ IsValid f)

variable {f : CommandFrame}

theorem valid_iff (b : UInt8) : (b &&& 0xE0) >>> 5 > 0 ↔ b &&& 0xE0 ≠ 0 := by
  have hbits : ∀ x : BitVec 8, (UInt8.ofBitVec x &&& 0xE0) >>> 5 > 0 ↔
      UInt8.ofBitVec x &&& 0xE0 ≠ 0 := by
    decide
  exact hbits b.toBitVec

/-- What remains of `readRecord` behind the accesses up to the length of the code. -/
theorem readRecord_of_length (hlength : 12 ≤ f.data.length) (event : UInt8) :
    readRecord f event = do
      let usercode ← readUserCode f (f.data.getD 11 0)
      if IsValid f then
        let text ← label event.toNat
        return snprintf 512 (recordText (f.data.getD 5 0 &&& 0x1F) (f.data.getD 4 0 &&& 0x0F)
          (((f.data.getD 2 0).toUInt16 <<< 8) + (f.data.getD 3 0).toUInt16)
          (f.data.getD 6 0 &&& 0x1F) (f.data.getD 7 0 &&& 0x3F) (f.data.getD 8 0 &&& 0x3F)
          text (f.data.getD 10 0) usercode)
      else return snprintf 512 "Invalid Record".toList := by
  have hmask : f.data.getD 3 0 &&& 0xFF = f.data.getD 3 0 := UInt8.and_neg_one
  rw [readRecord]
  simp only [CommandFrame.read_bind (show 2 < f.data.length by omega),
    CommandFrame.read_bind (show 3 < f.data.length by omega),
    CommandFrame.read_bind (show 4 < f.data.length by omega),
    CommandFrame.read_bind (show 5 < f.data.length by omega),
    CommandFrame.read_bind (show 6 < f.data.length by omega),
    CommandFrame.read_bind (show 7 < f.data.length by omega),
    CommandFrame.read_bind (show 8 < f.data.length by omega),
    CommandFrame.read_bind (show 10 < f.data.length by omega),
    CommandFrame.read_bind (show 11 < f.data.length by omega), decide_eq_true_eq, valid_iff, hmask]
  rfl

section Text

variable (day month : UInt8) (year : UInt16) (hour minute second : UInt8) (userid : UInt8)
  {usercode : List Char} {label label' : String}

theorem recordText_inj
    (h : recordText day month year hour minute second label userid usercode =
      recordText day month year hour minute second label' userid usercode) : label = label' := by
  simp only [recordText, List.append_assoc, List.append_cancel_left_eq] at h
  simp only [List.append_cancel_right_eq] at h
  exact String.toList_inj.mp h

theorem length_printIntPadded_le {n : ℕ} (h : n < 10 ^ 5) : (printIntPadded 2 n).length ≤ 5 := by
  have hdigits : (Nat.toDigits 10 n).length ≤ 5 :=
    (Nat.length_toDigits_le_iff (by decide) (by decide)).mpr h
  change (pad 2 (Nat.toDigits 10 n)).length ≤ 5
  rw [pad, List.length_append, List.length_replicate]
  omega

/-- The text fits into its buffer. -/
theorem snprintf_recordText (hlabel : label.toList.length ≤ 53) (hcode : usercode.length < 254) :
    snprintf 512 (recordText day month year hour minute second label userid usercode) =
      recordText day month year hour minute second label userid usercode := by
  have hbyte : ∀ b : UInt8, (printIntPadded 2 b.toNat).length ≤ 5 := fun b =>
    length_printIntPadded_le (Nat.lt_trans b.toNat_lt (by decide))
  have hyear := length_printIntPadded_le (Nat.lt_trans year.toNat_lt (by decide : 2 ^ 16 < 10 ^ 5))
  have huser : (printInt userid.toNat).length ≤ 5 :=
    (Nat.length_toDigits_le_iff (by decide) (by decide)).mpr
      (Nat.lt_trans userid.toNat_lt (by decide))
  have hday := hbyte day
  have hmonth := hbyte month
  have hhour := hbyte hour
  have hminute := hbyte minute
  have hsecond := hbyte second
  have hmessage : " \tMessage: ".toList.length = 11 := rfl
  have hid : " \tUserID: ".toList.length = 10 := rfl
  have htab : " \t".toList.length = 2 := rfl
  apply List.take_of_length_le
  simp only [recordText, List.length_append, List.length_singleton]
  omega

end Text

theorem length_le_utf8Len (text : List Char) : text.length ≤ String.utf8Len text := by
  induction text with
  | nil => exact Nat.le_refl 0
  | cons c text ih =>
      rw [List.length_cons, String.utf8Len_cons]
      exact Nat.add_le_add ih c.utf8Size_pos

theorem size_label_le : ∀ text ∈ c_DoorLockEventType, text.utf8ByteSize ≤ 53 := by
  decide

theorem length_label_le {text : String} (h : text ∈ c_DoorLockEventType) :
    text.toList.length ≤ 53 :=
  calc text.toList.length ≤ String.utf8Len text.toList := length_le_utf8Len _
    _ = text.utf8ByteSize := String.utf8Len_toList text
    _ ≤ 53 := size_label_le text h

/-- A text is made exactly for a record that is not valid. -/
theorem readRecord_eq_logText_iff (hevent : f.data.getD 9 0 ≠ 0) :
    readRecord f (eventType (f.data.getD 9 0)) = .ok (logText f) ↔
      12 + (f.data.getD 11 0).toNat ≤ f.data.length ∧ (userCodeText f).length < 254 ∧
        ¬ IsValid f := by
  rcases Nat.lt_or_ge f.data.length 12 with hshort | hlength
  · refine iff_of_false (fun h => ?_) fun h => absurd h.1 (by omega)
    rw [readRecord] at h
    simp only [CommandFrame.read_bind_eq_ok] at h
    obtain ⟨-, -, -, -, -, -, -, -, -, hlast, -⟩ := h
    omega
  · rw [readRecord_of_length hlength, bind_eq_ok]
    constructor
    · rintro ⟨usercode, hcode, h⟩
      obtain ⟨hinside, hfits, rfl⟩ := (readUserCode_eq_ok hlength).mp hcode
      refine ⟨hinside, hfits, fun hvalid => ?_⟩
      rw [if_pos hvalid] at h
      obtain ⟨text, htext, h⟩ := bind_eq_ok.mp h
      have hlabel := length_label_le (List.mem_of_getElem? (label_eq_ok.mp htext))
      rw [snprintf_recordText _ _ _ _ _ _ _ hlabel hfits, logText, if_pos hvalid] at h
      exact ne_eventLabel hevent htext (recordText_inj _ _ _ _ _ _ _ (ok_eq_ok.mp h))
    · rintro ⟨hinside, hfits, hinvalid⟩
      refine ⟨userCodeText f, (readUserCode_eq_ok hlength).mpr ⟨hinside, hfits, rfl⟩, ?_⟩
      rw [if_neg hinvalid, logText, if_neg hinvalid]
      rfl

/-- For every report of every length and content, and every set of values. -/
theorem record_decoded_iff (values : Values) (f : CommandFrame) :
    Faithful values f (handleMsg values f) ↔ Decodable values f := by
  refine imp_congr_right fun hcommand => ?_
  obtain ⟨bytes, hdata⟩ := List.head?_eq_some_iff.mp hcommand
  have hread : 0 < f.data.length := by rw [hdata]; exact Nat.zero_lt_succ _
  have hfirst : f.data.getD 0 0 = record_Report := by rw [hdata]; rfl
  rw [handleMsg, CommandFrame.read_bind hread, hfirst, if_neg (by decide), if_pos rfl]
  rcases Nat.lt_or_ge f.data.length 10 with hshort | hlength
  · refine iff_of_false ?_ fun h => absurd h.1 (Nat.not_le.mpr hshort)
    rintro ⟨reaction, h, -⟩
    obtain ⟨hevent, -⟩ := CommandFrame.read_bind_eq_ok.mp h
    omega
  · rw [CommandFrame.read_bind (by omega), CommandFrame.read_bind (by omega),
      and_iff_right hlength]
    by_cases hevent : f.data.getD 9 0 = 0
    · refine iff_of_false ?_ fun h => h.1 hevent
      rintro ⟨reaction, h, -⟩
      rw [hevent] at h
      cases h
    · rw [label_pred hevent, ok_bind, and_iff_right hevent]
      cases values.logRecord with
      | false => exact iff_of_true (yields_pure.mpr rfl) nofun
      | true =>
          rw [forall_prop_of_true rfl, ← readRecord_eq_logText_iff hevent, if_pos rfl]
          constructor
          · rintro ⟨reaction, h, rfl⟩
            obtain ⟨text, htext, h⟩ := bind_eq_ok.mp h
            rw [if_pos rfl] at h
            have hrecord := ok_eq_ok.mp h
            rw [Reaction.record.injEq, Record.mk.injEq, Option.some.injEq] at hrecord
            rw [htext, hrecord.2.2]
          · intro h
            rw [h]
            exact yields_pure.mpr rfl

/-- A record of event 0: the label in front of the table. -/
theorem record_not_decoded :
    ¬ Faithful ⟨true, true, true⟩
      ⟨[0x04, 0x01, 0x07, 0xE9, 0x01, 0x02, 0x03, 0x04, 0x05, 0x00, 0x00, 0x00], by decide⟩
      (handleMsg ⟨true, true, true⟩
        ⟨[0x04, 0x01, 0x07, 0xE9, 0x01, 0x02, 0x03, 0x04, 0x05, 0x00, 0x00, 0x00], by decide⟩) := by
  intro h
  obtain ⟨reaction, hreaction, -⟩ := h rfl
  cases hreaction

end DoorLockLogging

end OpenZWave

import OpenZWave.CommandFrame
import OpenZWave.Lib.Sweep
import OpenZWave.Lib.Transition
import OpenZWave.SendDataRequests
import Mathlib.Data.Bool.AllAny

/-!
# User codes

The records of the slots in `m_userCode`, the values of the slots, and the walk over the
slots that the reports of the device drive on.
-/

namespace OpenZWave

open Checked Sweep

namespace UserCode

def classId : UInt8 := 0x63
def cmdSet : UInt8 := 0x01
def cmdGet : UInt8 := 0x02
def cmdReport : UInt8 := 0x03
def cmdNumberGet : UInt8 := 0x04
def cmdNumberReport : UInt8 := 0x05

/-- `ValueID_Index_UserCode`, behind the slots. -/
def refresh : UInt16 := 255
def removeCode : UInt16 := 256
def count : UInt16 := 257
def rawValue : UInt16 := 258
def rawValueIndex : UInt16 := 259

/-- `UserCodeStatus`. -/
def available : UInt8 := 0x00
def occupied : UInt8 := 0x01

/-! ## The state -/

/-- `UserCodeEntry`. -/
structure Entry where
  status : UInt8
  usercode : List UInt8
  full : usercode.length = 10

namespace Entry

/-- A new entry, and what a report on the number of slots makes of one. -/
def new : Entry where
  status := available
  usercode := List.replicate 10 0
  full := List.length_replicate

/-- The status, and a code over the first bytes of the old one. -/
def write (entry : Entry) (status : UInt8) (code : List UInt8) : Entry where
  status := status
  usercode := (code ++ entry.usercode.drop code.length).take 10
  full := by
    rw [List.length_take, List.length_append, List.length_drop, entry.full]
    omega

end Entry

/-- The types of the values. -/
inductive ValueType
  | string
  | short
  | button
  | raw
  deriving DecidableEq

end UserCode

/-- The members of the class, the values of the node that belong to it by instance and
index, and the options it reads. -/
structure UserCode where
  queryAll : Bool
  currentCode : UInt16
  userCode : UInt16 → Option UserCode.Entry
  refreshUserCodes : Bool
  userCodeCount : UInt8
  staticRequest : Bool
  values : UInt8 → UInt16 → Option UserCode.ValueType
  getSupported : Bool
  exposeRawValue : Bool
  refreshAllUserCodes : Bool

namespace UserCode

/-- The constructor. -/
def new (getSupported exposeRawValue refreshAllUserCodes : Bool) : UserCode where
  queryAll := false
  currentCode := 0
  userCode := fun _ => none
  refreshUserCodes := refreshAllUserCodes
  userCodeCount := 0
  staticRequest := true
  values := fun _ _ => none
  getSupported := getSupported
  exposeRawValue := exposeRawValue
  refreshAllUserCodes := refreshAllUserCodes

/-- `m_userCode[i]`, which makes an entry where there is none. -/
def entry (uc : UserCode) (i : UInt16) : Entry := (uc.userCode i).getD .new

/-- `AddValue`: a value that is there already stays. -/
def addValue (uc : UserCode) (inst : UInt8) (index : UInt16) (type : ValueType) :
    UserCode :=
  if (uc.values inst index).isSome then uc
  else
    { uc with
      values := Function.update uc.values inst
        (Function.update (uc.values inst) index (some type)) }

/-! ## Messages -/

/-- A message to the device. -/
inductive Sent
  | numberGet
  | codeGet (slot : UInt8)
  | codeSet (inst slot status : UInt8) (code : List UInt8)
  deriving DecidableEq

/-- What is appended to it. -/
def Sent.request (sender : Sender) (id : ℕ) : Sent → SendData
  | .numberGet => sender.request (sender.get id classId) 2 [classId, cmdNumberGet]
  | .codeGet slot => sender.request (sender.get id classId) 3 [classId, cmdGet, slot]
  | .codeSet inst slot status code =>
      sender.request (sender.onInstance (sender.set id) inst) (4 + UInt8.ofNat code.length)
        ([classId, cmdSet, slot, status] ++ code)

/-- The length byte counts the command. -/
theorem counted_request (sender : Sender) (id : ℕ) (sent : Sent)
    (hcode : ∀ inst slot status code, sent = .codeSet inst slot status code → code.length ≤ 10) :
    (sent.request sender id).declared.toNat = (sent.request sender id).command.length := by
  cases sent with
  | numberGet => rfl
  | codeGet slot => rfl
  | codeSet inst slot status code =>
      have hless := hcode inst slot status code rfl
      change (4 + UInt8.ofNat code.length).toNat = code.length + 4
      rw [UInt8.toNat_add, UInt8.toNat_ofNat', show (4 : UInt8).toNat = 4 from rfl]
      omega

/-- What a call returns, the messages it sends, and the lengths of the copies of codes that
it makes. -/
structure Output where
  result : Bool
  sent : List Sent
  copies : List ℤ

/-- `RequestValue`. -/
def requestValue (uc : UserCode) (userCodeIdx : UInt16) (inst : UInt8) : Bool × List Sent :=
  if inst ≠ 1 then (false, [])
  else if ¬ uc.getSupported then (false, [])
  else if userCodeIdx = count then (true, [.numberGet])
  else if userCodeIdx = 0 then (false, [])
  else if userCodeIdx > uc.userCodeCount.toUInt16 then (false, [])
  else (true, [.codeGet (userCodeIdx &&& 0xFF).toUInt8])

/-- `RequestState`, with the flags for static values and for those of a session. -/
def requestState (uc : UserCode) (isStatic session : Bool) (inst : UInt8) : UserCode × Output :=
  let number := if isStatic ∧ uc.staticRequest then requestValue uc count inst else (false, [])
  if session ∧ uc.userCodeCount > 0 then
    let uc := { uc with queryAll := true, currentCode := 1 }
    let first := requestValue uc uc.currentCode inst
    (uc, ⟨number.1 || first.1, number.2 ++ first.2, []⟩)
  else (uc, ⟨number.1, number.2, []⟩)

/-! ## Reports -/

/-- One pass of the loop over the slots. -/
def initSlot (inst : UInt8) (uc : UserCode) (i : ℕ) : UserCode :=
  let uc := uc.addValue inst (UInt16.ofNat i) .string
  { uc with userCode := Function.update uc.userCode (UInt16.ofNat i) (some .new) }

/-- The report on the number of slots. -/
def handleNumberReport (uc : UserCode) (f : CommandFrame) (inst : UInt8) :
    Except FrameFault (UserCode × Output) := do
  let number ← f.read 1
  let uc := { uc with userCodeCount := number, staticRequest := false }
  let uc := (List.range (number.toNat + 1)).foldl (initSlot inst) uc
  let uc :=
    if uc.exposeRawValue then
      (uc.addValue inst rawValue .raw).addValue inst rawValueIndex .short
    else uc
  return (uc, ⟨true, [], []⟩)

/-- A copy of bytes of the report: one of a negative length, or behind its end, cannot be
made. -/
def copyFrom (f : CommandFrame) (start : ℕ) (size : ℤ) : Except FrameFault (List UInt8) := do
  check (0 ≤ size) .underflow
  f.readRange start size.toNat

/-- The walk goes on to the next slot or ends, when its slot has been reported. -/
def walkOn (uc : UserCode) (slot status inst : UInt8) : UserCode × List Sent :=
  if uc.queryAll ∧ slot.toUInt16 = uc.currentCode then
    if uc.refreshUserCodes ∨ status ≠ available then
      if slot.toNat + 1 ≤ uc.userCodeCount.toNat then
        let uc := { uc with currentCode := UInt16.ofNat (slot.toNat + 1) }
        (uc, (requestValue uc uc.currentCode inst).2)
      else ({ uc with queryAll := false, refreshUserCodes := uc.refreshAllUserCodes }, [])
    else ({ uc with queryAll := false }, [])
  else (uc, [])

/-- The length of the copy to the string of a slot, and that to the raw value, if they are
there. -/
def stringCopies (uc : UserCode) (inst : UInt8) (i : UInt16) (size : ℤ) : List ℤ :=
  if uc.values inst i = some .string then [size] else []

def rawCopies (uc : UserCode) (inst : UInt8) (length : ℤ) : List ℤ :=
  if uc.exposeRawValue ∧ uc.values inst rawValue = some .raw then [length] else []

/-- The report on a slot. The members of a string lie behind those of another value. -/
def handleCodeReport (uc : UserCode) (f : CommandFrame) (inst : UInt8) :
    Except FrameFault (UserCode × Output) := do
  let slot ← f.read 1
  let status ← f.read 2
  let size := (f.length - 4).toUInt8.toInt8.toInt
  let size := if size > 10 then 10 else size
  let code ← copyFrom f 3 size
  let i := slot.toUInt16
  let uc :=
    { uc with
      userCode := Function.update uc.userCode i (some ((uc.entry i).write status code)) }
  check (uc.values inst i = none ∨ uc.values inst i = some .string) .overrun
  let raw := rawCopies uc inst (f.length - 4).toUInt8.toNat
  forM raw fun length => discard (copyFrom f 3 length)
  let next := walkOn uc slot status inst
  return (next.1, ⟨true, next.2, size :: (stringCopies uc inst i size ++ raw)⟩)

/-- `HandleMsg`. -/
def handleMsg (uc : UserCode) (f : CommandFrame) (inst : UInt8) :
    Except FrameFault (UserCode × Output) := do
  let cmd ← f.read 0
  if cmd = cmdNumberReport then handleNumberReport uc f inst
  else if cmd = cmdReport then handleCodeReport uc f inst
  else return (uc, ⟨false, [], []⟩)

/-! ## Values that are set -/

/-- A value that is passed to `SetValue`. The raw value comes with what the value for the
slot of the raw value holds. -/
inductive Setting
  | string (inst : UInt8) (index : UInt16) (s : List UInt8)
  | button (inst : UInt8) (index : UInt16)
  | short (inst : UInt8) (index : UInt16) (value : Int16)
  | raw (inst : UInt8) (index : UInt16) (bytes : List UInt8) (slot : Int16)

/-- `SetValue`. -/
def setValue (uc : UserCode) : Setting → UserCode × Output
  | .string inst index s =>
      if ¬ index < refresh ∨ s.length < 4 ∨ s.length > 10 then (uc, ⟨false, [], []⟩)
      else if index = 0 ∨ index > uc.userCodeCount.toUInt16 then (uc, ⟨false, [], []⟩)
      else
        (uc, ⟨true, [.codeSet inst (index &&& 0xFF).toUInt8 occupied s], [(s.length : ℤ)]⟩)
  | .button inst index =>
      if index = refresh then
        let uc := { uc with refreshUserCodes := true, currentCode := 1, queryAll := true }
        (uc, ⟨true, (requestValue uc uc.currentCode inst).2, []⟩)
      else (uc, ⟨false, [], []⟩)
  | .short inst index value =>
      if index = removeCode then
        let slot := (value.toUInt16 &&& 0xFF).toUInt8
        if slot = 0 ∨ slot > uc.userCodeCount then (uc, ⟨false, [], []⟩)
        else
          (uc, ⟨false, .codeSet inst slot available (List.replicate 4 0) ::
            (requestValue uc slot.toUInt16 inst).2, []⟩)
      else if index = rawValueIndex then
        let slot := value.toUInt16
        if slot = 0 ∨ slot > uc.userCodeCount.toUInt16 then (uc, ⟨false, [], []⟩)
        else if uc.values inst rawValue = some .raw then
          ({ uc with userCode := Function.update uc.userCode slot (some (uc.entry slot)) },
            ⟨false, [], [10]⟩)
        else (uc, ⟨false, [], []⟩)
      else (uc, ⟨false, [], []⟩)
  | .raw inst index bytes slot =>
      if index = rawValue then
        let slot := if uc.values inst rawValueIndex = some .short then slot.toUInt16 else 0
        if slot = 0 ∨ slot > uc.userCodeCount.toUInt16 then (uc, ⟨false, [], []⟩)
        else
          let code := bytes.take (UInt8.ofNat bytes.length).toNat
          (uc, ⟨false, .codeSet inst (slot &&& 0xFF).toUInt8 occupied code ::
            (requestValue uc slot inst).2, [(code.length : ℤ)]⟩)
      else (uc, ⟨false, [], []⟩)

/-- `CreateVars`. -/
def createVars (uc : UserCode) (inst : UInt8) : UserCode :=
  ((uc.addValue inst count .short).addValue inst refresh .button).addValue inst removeCode .short

/-! ## Runs -/

inductive Step
  | createVars (inst : UInt8)
  | requestState (isStatic session : Bool) (inst : UInt8)
  | requestValue (userCodeIdx : UInt16) (inst : UInt8)
  | handleMsg (f : CommandFrame) (inst : UInt8)
  | setValue (setting : Setting)

def step (uc : UserCode) : Step → Except FrameFault (UserCode × Output)
  | .createVars inst => .ok (createVars uc inst, ⟨true, [], []⟩)
  | .requestState isStatic session inst => .ok (requestState uc isStatic session inst)
  | .requestValue userCodeIdx inst =>
      let requested := requestValue uc userCodeIdx inst
      .ok (uc, ⟨requested.1, requested.2, []⟩)
  | .handleMsg f inst => handleMsg uc f inst
  | .setValue setting => .ok (setValue uc setting)

/-- The slot, the status and the code of a report on a slot. -/
def slotOf (f : CommandFrame) : UInt8 := f.data.getD 1 0

def statusOf (f : CommandFrame) : UInt8 := f.data.getD 2 0

def codeOf (f : CommandFrame) : List UInt8 := (f.data.drop 3).take 10

/-- A walk over the slots, as it is seen from outside: the slots it has requested, the
statuses in the reports that have driven it on, and of its last step the number of slots
and whether all of them are refreshed. -/
structure Walk where
  requested : List UInt8
  answers : List UInt8
  slots : UInt8
  all : Bool

/-- The slots that are requested. -/
def requestedSlots (sent : List Sent) : List UInt8 :=
  sent.filterMap fun
    | .codeGet slot => some slot
    | _ => none

/-- A step that starts a walk, and one that reports the slot a walk waits for. -/
def Starts (uc : UserCode) : Step → Prop
  | .requestState _ session _ => session ∧ uc.userCodeCount > 0
  | .setValue (.button _ index) => index = refresh
  | _ => False

def Answers (uc : UserCode) : Step → Prop
  | .handleMsg f _ =>
      f.data.head? = some cmdReport ∧ uc.queryAll ∧ (slotOf f).toUInt16 = uc.currentCode
  | _ => False

instance (uc : UserCode) : DecidablePred (Starts uc)
  | .requestState _ _ _ => inferInstanceAs (Decidable (_ ∧ _))
  | .setValue (.button _ _) => inferInstanceAs (Decidable (_ = _))
  | .setValue (.string _ _ _) => instDecidableFalse
  | .setValue (.short _ _ _) => instDecidableFalse
  | .setValue (.raw _ _ _ _) => instDecidableFalse
  | .createVars _ => instDecidableFalse
  | .requestValue _ _ => instDecidableFalse
  | .handleMsg _ _ => instDecidableFalse

instance (uc : UserCode) : DecidablePred (Answers uc)
  | .handleMsg _ _ => inferInstanceAs (Decidable (_ ∧ _ ∧ _))
  | .requestState _ _ _ => instDecidableFalse
  | .setValue _ => instDecidableFalse
  | .createVars _ => instDecidableFalse
  | .requestValue _ _ => instDecidableFalse

/-- The walk after a step from `uc` to `uc'`. -/
def Walk.next (walk : Walk) (uc uc' : UserCode) (e : Step) (sent : List Sent) : Walk :=
  if Starts uc e then
    { requested := requestedSlots sent
      answers := []
      slots := uc'.userCodeCount
      all := uc'.refreshUserCodes }
  else if Answers uc e then
    { requested := walk.requested ++ requestedSlots sent
      answers := walk.answers ++ (match e with
        | .handleMsg f _ => [statusOf f]
        | _ => [])
      slots := uc.userCodeCount
      all := uc.refreshUserCodes }
  else walk

/-- The last report on each slot. -/
def nextLatest (latest : UInt8 → Option (UInt8 × List UInt8)) :
    Step → UInt8 → Option (UInt8 × List UInt8)
  | .handleMsg f _ =>
      if f.data.head? = some cmdReport then
        Function.update latest (slotOf f) (some (statusOf f, codeOf f))
      else latest
  | _ => latest

/-- The class, and what has been seen of it from outside. -/
structure Session where
  uc : UserCode
  latest : UInt8 → Option (UInt8 × List UInt8)
  walk : Walk
  copies : List ℤ

def Session.new (uc : UserCode) : Session where
  uc := uc
  latest := fun _ => none
  walk := ⟨[], [], 0, false⟩
  copies := []

def Session.next (s : Session) (e : Step) (uc' : UserCode) (output : Output) : Session where
  uc := uc'
  latest := nextLatest s.latest e
  walk := s.walk.next s.uc uc' e output.sent
  copies := s.copies ++ output.copies

def Session.step (s : Session) (e : Step) : Except FrameFault Session := do
  let result ← UserCode.step s.uc e
  return s.next e result.1 result.2

/-- A run ends where an access is outside of its bounds. -/
def run (s : Except FrameFault Session) (steps : List Step) : Except FrameFault Session :=
  Transition.run (fun s e => s >>= fun s => s.step e) s steps

/-! ## What is asked of a run -/

/-- A code without bytes of another one behind it. -/
def padded (code : List UInt8) : List UInt8 := code ++ List.replicate (10 - code.length) 0

/-- The record of a slot is its last report. -/
def Recorded (s : Session) : Prop :=
  ∀ slot status code, s.latest slot = some (status, code) →
    ∃ entry, s.uc.userCode slot.toUInt16 = some entry ∧ entry.status = status ∧
      entry.usercode = padded code

/-- The copies are neither negative nor longer than a code. -/
def Sized (s : Session) : Prop := ∀ size ∈ s.copies, 0 ≤ size ∧ size ≤ 10

/-- The indexes of the slots are those of no other value. -/
def Distinct (uc : UserCode) : Prop :=
  ∀ i : UInt16, i ≤ uc.userCodeCount.toUInt16 →
    i ∉ [refresh, removeCode, count, rawValue, rawValueIndex]

/-- A walk that waits for a report has requested the slots up to this one, each once. It
has seen no available slot if it is to stop there. -/
structure Walk.Waits (walk : Walk) (uc : UserCode) : Prop where
  requested : walk.requested = bytesUpTo (walk.answers.length + 1)
  current : uc.currentCode.toNat = walk.answers.length + 1
  inside : walk.answers.length + 1 ≤ uc.userCodeCount.toNat
  all : walk.all = uc.refreshUserCodes
  occupied : walk.all = false → available ∉ walk.answers

/-- A walk that is over has requested all slots, each once, or those up to the first that
is available. -/
structure Walk.Ended (walk : Walk) : Prop where
  requested : walk.requested = bytesUpTo walk.answers.length
  occupied : walk.all = false → available ∉ walk.answers.dropLast
  complete : walk.answers.length = walk.slots.toNat ∨
    walk.all = false ∧ walk.answers.getLast? = some available ∧
      walk.answers.length ≤ walk.slots.toNat

/-- What is asked of a state in a run. -/
structure Proper (s : Session) : Prop where
  recorded : Recorded s
  sized : Sized s
  distinct : Distinct s.uc
  waits : s.uc.queryAll = true → s.walk.Waits s.uc
  ended : s.uc.queryAll = false → s.walk.Ended

/-! ## The condition -/

/-- A report on the number of slots: it has the number, which is not 255; no slot that it
covers has a code or a status that it would clear; it does not cut a walk short. -/
structure RegularNumber (uc : UserCode) (f : CommandFrame) : Prop where
  long : 2 ≤ f.data.length
  below : f.data.getD 1 0 ≠ 255
  clear : ∀ i entry, i ≤ (f.data.getD 1 0).toUInt16 → uc.userCode i = some entry → entry = .new
  inside : uc.queryAll = true → uc.currentCode ≤ (f.data.getD 1 0).toUInt16

/-- A report on a slot: it has a status and a code of at most 127 bytes, or of 10 if they
are copied to the raw value; the code covers the one it replaces; slot 255 is reported only
where there are no values; and a walk that goes on is on the first instance. -/
structure RegularCode (uc : UserCode) (f : CommandFrame) (inst : UInt8) : Prop where
  long : 3 ≤ f.data.length
  short : f.data.length ≤ 130
  raw : uc.exposeRawValue = true → uc.values inst rawValue = some .raw → f.data.length ≤ 13
  covers : ∀ b ∈ (uc.entry (slotOf f).toUInt16).usercode.drop (f.data.length - 3), b = 0
  slot : slotOf f = 255 → uc.values inst refresh = none
  first : uc.queryAll = true → (slotOf f).toUInt16 = uc.currentCode →
    (uc.refreshUserCodes = true ∨ statusOf f ≠ available) →
    uc.currentCode < uc.userCodeCount.toUInt16 → inst = 1

/-- A message has a command, and a report is one of these. -/
structure RegularMsg (uc : UserCode) (f : CommandFrame) (inst : UInt8) : Prop where
  long : 1 ≤ f.data.length
  number : f.data.head? = some cmdNumberReport → RegularNumber uc f
  code : f.data.head? = some cmdReport → RegularCode uc f inst

/-- The condition on a step: a walk starts on the first instance of a node that has slots
and can be asked, a raw value that is set for a slot has at most 10 bytes. -/
def Regular (uc : UserCode) : Step → Prop
  | .createVars _ => True
  | .requestState _ session inst =>
      session = true → uc.userCodeCount > 0 → inst = 1 ∧ uc.getSupported = true
  | .requestValue _ _ => True
  | .handleMsg f inst => RegularMsg uc f inst
  | .setValue (.button inst index) =>
      index = refresh → inst = 1 ∧ uc.getSupported = true ∧ uc.userCodeCount > 0
  | .setValue (.raw inst index bytes slot) =>
      index = rawValue → uc.values inst rawValueIndex = some .short → slot.toUInt16 ≠ 0 →
        slot.toUInt16 ≤ uc.userCodeCount.toUInt16 → bytes.length ≤ 10
  | .setValue _ => True

/-- The values that are no slots are behind them. -/
theorem le_of_mem_others :
    ∀ i ∈ [refresh, removeCode, count, rawValue, rawValueIndex], 255 ≤ i.toNat :=
  List.all_iff_forall_prop.mp (by decide)

/-! ## Requests of slots -/

theorem toNat_toUInt16 (b : UInt8) : b.toUInt16.toNat = b.toNat := by
  rw [UInt8.toNat_toUInt16]

theorem requestValue_slot {uc : UserCode} {i : UInt16} (hsupported : uc.getSupported = true)
    (hpos : 1 ≤ i.toNat) (hle : i.toNat ≤ uc.userCodeCount.toNat) :
    requestValue uc i 1 = (true, [.codeGet (UInt8.ofNat i.toNat)]) := by
  have hcount := uc.userCodeCount.toNat_lt
  have hnumber : i ≠ count := by
    rintro rfl
    exact absurd hle (by rw [show count.toNat = 257 from rfl]; omega)
  have hzero : i ≠ 0 := by
    rintro rfl
    exact absurd hpos (by decide)
  have hinside : ¬ i > uc.userCodeCount.toUInt16 := by
    rw [gt_iff_lt, UInt16.lt_iff_toNat_lt, toNat_toUInt16]
    omega
  have hbyte : (i &&& 0xFF).toUInt8 = UInt8.ofNat i.toNat := by
    rw [← UInt8.toNat_inj, UInt16.toNat_toUInt8, UInt16.toNat_and, UInt8.toNat_ofNat']
    change (i.toNat &&& 2 ^ 8 - 1) % 2 ^ 8 = _
    rw [Nat.and_two_pow_sub_one_eq_mod, Nat.mod_mod]
  rw [requestValue, if_neg (by decide), if_neg (by rw [hsupported]; decide), if_neg hnumber,
    if_neg hzero, if_neg hinside, hbyte]

theorem requestedSlots_append (first second : List Sent) :
    requestedSlots (first ++ second) = requestedSlots first ++ requestedSlots second :=
  List.filterMap_append

theorem requestedSlots_number (uc : UserCode) (inst : UInt8) :
    requestedSlots (requestValue uc count inst).2 = [] := by
  rw [requestValue]
  split
  · rfl
  · split <;> rfl

theorem requestedSlots_first {uc : UserCode} (hsupported : uc.getSupported = true)
    (hcount : uc.userCodeCount > 0) : requestedSlots (requestValue uc 1 1).2 = [1] := by
  have hpos : 0 < uc.userCodeCount.toNat := UInt8.lt_iff_toNat_lt.mp hcount
  rw [requestValue_slot hsupported (show 1 ≤ (1 : UInt16).toNat by decide) hpos]
  rfl

theorem bytesUpTo_succ (n : ℕ) : bytesUpTo (n + 1) = bytesUpTo n ++ [UInt8.ofNat (n + 1)] := by
  rw [bytesUpTo, List.range_succ, List.map_append]
  rfl

/-! ## Values and slots -/

/-- Among the indexes of the slots there are strings only. -/
def Strings (values : UInt8 → UInt16 → Option ValueType) : Prop :=
  ∀ inst i, i < refresh → values inst i = none ∨ values inst i = some .string

/-- A change that leaves the walk alone. -/
structure SameWalk (uc uc' : UserCode) : Prop where
  queryAll : uc'.queryAll = uc.queryAll
  currentCode : uc'.currentCode = uc.currentCode
  refreshUserCodes : uc'.refreshUserCodes = uc.refreshUserCodes
  getSupported : uc'.getSupported = uc.getSupported
  userCodeCount : uc'.userCodeCount = uc.userCodeCount

theorem SameWalk.refl (uc : UserCode) : SameWalk uc uc := ⟨rfl, rfl, rfl, rfl, rfl⟩

theorem SameWalk.trans {uc uc' uc'' : UserCode} (h : SameWalk uc uc') (h' : SameWalk uc' uc'') :
    SameWalk uc uc'' :=
  ⟨h'.1.trans h.1, h'.2.trans h.2, h'.3.trans h.3, h'.4.trans h.4, h'.5.trans h.5⟩

section Values

variable (uc : UserCode) (inst : UInt8) (index : UInt16) (type : ValueType)

theorem sameWalk_addValue : SameWalk uc (uc.addValue inst index type) := by
  rw [addValue]
  split <;> exact ⟨rfl, rfl, rfl, rfl, rfl⟩

@[simp] theorem userCode_addValue : (uc.addValue inst index type).userCode = uc.userCode := by
  rw [addValue]
  split <;> rfl

variable {uc index type}

theorem strings_addValue (h : Strings uc.values) (htype : index < refresh → type = .string) :
    Strings (uc.addValue inst index type).values := by
  rw [addValue]
  split
  · exact h
  · intro inst' i hi
    by_cases hinst : inst' = inst
    · subst hinst
      by_cases hindex : i = index
      · subst hindex
        dsimp only
        rw [Function.update_self, Function.update_self, htype hi]
        exact Or.inr rfl
      · dsimp only
        rw [Function.update_self, Function.update_of_ne hindex]
        exact h inst' i hi
    · dsimp only
      rw [Function.update_of_ne hinst]
      exact h inst' i hi

/-- A value behind the slots. -/
theorem strings_addValue_of_le (h : Strings uc.values) (hindex : refresh ≤ index) :
    Strings (uc.addValue inst index type).values :=
  strings_addValue inst h fun hless => absurd hless (UInt16.not_lt.mpr hindex)

end Values

theorem sameWalk_foldl_initSlot (inst : UInt8) (uc : UserCode) (l : List ℕ) :
    SameWalk uc (l.foldl (initSlot inst) uc) := by
  induction l generalizing uc with
  | nil => exact .refl uc
  | cons i l ih =>
      obtain ⟨h1, h2, h3, h4, h5⟩ := sameWalk_addValue uc inst (UInt16.ofNat i) .string
      have hpass : SameWalk uc (initSlot inst uc i) := ⟨h1, h2, h3, h4, h5⟩
      exact hpass.trans (ih (initSlot inst uc i))

theorem strings_foldl_initSlot (inst : UInt8) {uc : UserCode} (h : Strings uc.values) (l : List ℕ) :
    Strings (l.foldl (initSlot inst) uc).values := by
  induction l generalizing uc with
  | nil => exact h
  | cons i l ih => exact ih (strings_addValue inst h fun _ => rfl)

/-- The slots below `n` are made available. -/
theorem userCode_foldl_initSlot (inst : UInt8) (uc : UserCode) {n : ℕ} (hn : n ≤ 256) (i : UInt16) :
    ((List.range n).foldl (initSlot inst) uc).userCode i =
      if i.toNat < n then some .new else uc.userCode i := by
  induction n with
  | zero => rfl
  | succ n ih =>
      have hindex : i = UInt16.ofNat n ↔ i.toNat = n := by
        rw [← UInt16.toNat_inj, UInt16.toNat_ofNat', Nat.mod_eq_of_lt (by omega)]
      rw [List.range_succ, List.foldl_append, List.foldl_cons, List.foldl_nil, initSlot]
      dsimp only
      rw [userCode_addValue]
      by_cases hi : i.toNat = n
      · rw [hindex.mpr hi, Function.update_self, ← hindex.mpr hi, if_pos (by omega)]
      · rw [Function.update_of_ne (mt hindex.mp hi), ih (by omega)]
        have hless : i.toNat < n ↔ i.toNat < n + 1 := by omega
        simp only [hless]

/-! ## The invariant -/

/-- A proper state, with what keeps it so: a walk is one of a node that can be asked. -/
structure Inv (s : Session) : Prop where
  proper : Proper s
  supported : s.uc.queryAll = true → s.uc.getSupported = true
  strings : Strings s.uc.values

/-- A step that leaves the walk alone, keeps the records it finds, and copies no more than a
code. -/
theorem Inv.of_same {s : Session} (h : Inv s) {e : Step} {uc' : UserCode} {output : Output}
    (hstarts : ¬ Starts s.uc e) (hanswers : ¬ Answers s.uc e)
    (hlatest : nextLatest s.latest e = s.latest)
    (hwalk : SameWalk { s.uc with userCodeCount := uc'.userCodeCount } uc')
    (hinside : s.uc.queryAll = true → s.uc.currentCode ≤ uc'.userCodeCount.toUInt16)
    (hcodes : ∀ i entry, s.uc.userCode i = some entry → uc'.userCode i = some entry)
    (hdistinct : Distinct uc') (hstrings : Strings uc'.values)
    (hcopies : ∀ size ∈ output.copies, 0 ≤ size ∧ size ≤ 10) : Inv (s.next e uc' output) := by
  obtain ⟨hquery, hcurrent, hrefresh, hget, -⟩ := hwalk
  have hnext : (s.next e uc' output).walk = s.walk := by
    change (if _ then _ else if _ then _ else s.walk) = s.walk
    rw [if_neg hstarts, if_neg hanswers]
  refine ⟨⟨?_, ?_, hdistinct, ?_, ?_⟩, ?_, hstrings⟩
  · intro slot status code hlast
    change nextLatest s.latest e slot = _ at hlast
    rw [hlatest] at hlast
    obtain ⟨entry, hentry, hrecord⟩ := h.proper.recorded slot status code hlast
    exact ⟨entry, hcodes _ _ hentry, hrecord⟩
  · exact List.forall_mem_append.mpr ⟨h.proper.sized, hcopies⟩
  · intro hwaiting
    have hwaiting : s.uc.queryAll = true := hquery.symm.trans hwaiting
    have hold := h.proper.waits hwaiting
    have hle := UInt16.le_iff_toNat_le.mp (hinside hwaiting)
    rw [hold.current, toNat_toUInt16] at hle
    rw [hnext]
    exact ⟨hold.requested, (congrArg UInt16.toNat hcurrent).trans hold.current, hle,
      hold.all.trans hrefresh.symm, hold.occupied⟩
  · intro hover
    rw [hnext]
    exact h.proper.ended (hquery.symm.trans hover)
  · intro hwaiting
    exact hget.trans (h.supported (hquery.symm.trans hwaiting))

theorem Proper.current_le {s : Session} (h : Proper s) (hwaiting : s.uc.queryAll = true) :
    s.uc.currentCode ≤ s.uc.userCodeCount.toUInt16 := by
  have hold := h.waits hwaiting
  rw [UInt16.le_iff_toNat_le, toNat_toUInt16, hold.current]
  exact hold.inside

/-- The same for a step that leaves the number of slots as it is. -/
theorem Inv.of_kept {s : Session} (h : Inv s) {e : Step} {uc' : UserCode} {output : Output}
    (hstarts : ¬ Starts s.uc e) (hanswers : ¬ Answers s.uc e)
    (hlatest : nextLatest s.latest e = s.latest) (hwalk : SameWalk s.uc uc')
    (hcodes : ∀ i entry, s.uc.userCode i = some entry → uc'.userCode i = some entry)
    (hstrings : Strings uc'.values)
    (hcopies : ∀ size ∈ output.copies, 0 ≤ size ∧ size ≤ 10) : Inv (s.next e uc' output) := by
  obtain ⟨hquery, hcurrent, hrefresh, hget, hcount⟩ := hwalk
  refine h.of_same hstarts hanswers hlatest ⟨hquery, hcurrent, hrefresh, hget, rfl⟩ ?_ hcodes ?_
    hstrings hcopies
  · rw [hcount]
    exact h.proper.current_le
  · rw [Distinct, hcount]
    exact h.proper.distinct

/-- A step that changes nothing. -/
theorem Inv.of_unchanged {s : Session} (h : Inv s) {e : Step} {output : Output}
    (hstarts : ¬ Starts s.uc e) (hanswers : ¬ Answers s.uc e)
    (hlatest : nextLatest s.latest e = s.latest)
    (hcopies : ∀ size ∈ output.copies, 0 ≤ size ∧ size ≤ 10) : Inv (s.next e s.uc output) :=
  h.of_kept hstarts hanswers hlatest (.refl _) (fun _ _ => id) h.strings hcopies

/-- A walk starts with the first slot. -/
theorem Inv.of_started {s : Session} (h : Inv s) {e : Step} {output : Output} (all : Bool)
    (hstarts : Starts s.uc e) (hlatest : nextLatest s.latest e = s.latest)
    (hsupported : s.uc.getSupported = true) (hcount : s.uc.userCodeCount > 0)
    (hsent : requestedSlots output.sent = [1]) (hcopies : output.copies = []) :
    Inv (s.next e { s.uc with refreshUserCodes := all, currentCode := 1, queryAll := true }
      output) := by
  have hnext : ∀ uc', (s.next e uc' output).walk =
      ⟨requestedSlots output.sent, [], uc'.userCodeCount, uc'.refreshUserCodes⟩ := fun uc' => by
    change (if _ then _ else _) = _
    rw [if_pos hstarts]
  have hpos : 0 < s.uc.userCodeCount.toNat := UInt8.lt_iff_toNat_lt.mp hcount
  refine ⟨⟨?_, ?_, h.proper.distinct, fun _ => ?_, nofun⟩, fun _ => hsupported, h.strings⟩
  · intro slot status code hlast
    change nextLatest s.latest e slot = _ at hlast
    rw [hlatest] at hlast
    exact h.proper.recorded slot status code hlast
  · change ∀ size ∈ s.copies ++ output.copies, _
    rw [hcopies, List.append_nil]
    exact h.proper.sized
  · rw [hnext, hsent]
    exact ⟨rfl, rfl, hpos, rfl, fun _ => List.not_mem_nil⟩

/-! ## One step -/

section Step

variable {s : Session}

theorem keeps_createVars (h : Inv s) (inst : UInt8) :
    Yields (s.step (.createVars inst)) Inv := by
  have hwalk : SameWalk s.uc (createVars s.uc inst) :=
    ((sameWalk_addValue _ _ _ _).trans (sameWalk_addValue _ _ _ _)).trans
      (sameWalk_addValue _ _ _ _)
  have hcodes : (createVars s.uc inst).userCode = s.uc.userCode := by
    rw [createVars, userCode_addValue, userCode_addValue, userCode_addValue]
  refine ⟨_, rfl, h.of_kept not_false not_false rfl hwalk ?_ ?_ nofun⟩
  · intro i entry hentry
    exact (congrFun hcodes i).trans hentry
  · exact strings_addValue_of_le inst (strings_addValue_of_le inst
      (strings_addValue_of_le inst h.strings (by decide)) (by decide)) (by decide)

theorem keeps_requestState (h : Inv s) {isStatic session : Bool} {inst : UInt8}
    (hregular : Regular s.uc (.requestState isStatic session inst)) :
    Yields (s.step (.requestState isStatic session inst)) Inv := by
  refine ⟨_, rfl, ?_⟩
  rw [requestState]
  dsimp only
  split
  · rename_i hstarts
    obtain ⟨rfl, hsupported⟩ := hregular hstarts.1 hstarts.2
    refine h.of_started s.uc.refreshUserCodes hstarts rfl hsupported hstarts.2 ?_ rfl
    have hnumber : requestedSlots
        (if isStatic ∧ s.uc.staticRequest then requestValue s.uc count 1 else (false, [])).2 =
          [] := by
      split
      · exact requestedSlots_number s.uc 1
      · rfl
    rw [requestedSlots_append, hnumber, List.nil_append]
    exact requestedSlots_first hsupported hstarts.2
  · rename_i hnot
    exact h.of_unchanged hnot not_false rfl nofun

theorem keeps_setValue (h : Inv s) {setting : Setting}
    (hregular : Regular s.uc (.setValue setting)) : Yields (s.step (.setValue setting)) Inv := by
  refine ⟨_, rfl, ?_⟩
  cases setting with
  | string inst index code =>
      rw [setValue]
      split
      · exact h.of_unchanged not_false not_false rfl nofun
      · rename_i hlength
        split
        · exact h.of_unchanged not_false not_false rfl nofun
        · refine h.of_unchanged not_false not_false rfl ?_
          rintro size (_ | ⟨_, ⟨⟩⟩)
          omega
  | button inst index =>
      rw [setValue]
      split
      · rename_i hindex
        obtain ⟨rfl, hsupported, hcount⟩ := hregular hindex
        exact h.of_started true hindex rfl hsupported hcount
          (requestedSlots_first hsupported hcount) rfl
      · rename_i hindex
        exact h.of_unchanged hindex not_false rfl nofun
  | short inst index value =>
      by_cases hremove : index = removeCode
      · rw [setValue, if_pos hremove]
        dsimp only
        split
        · exact h.of_unchanged not_false not_false rfl nofun
        · exact h.of_unchanged not_false not_false rfl nofun
      by_cases hindex : index = rawValueIndex
      · rw [setValue, if_neg hremove, if_pos hindex]
        dsimp only
        by_cases hslot : value.toUInt16 = 0 ∨ value.toUInt16 > s.uc.userCodeCount.toUInt16
        · rw [if_pos hslot]
          exact h.of_unchanged not_false not_false rfl nofun
        rw [if_neg hslot]
        by_cases hraw : s.uc.values inst rawValue = some .raw
        · rw [if_pos hraw]
          refine h.of_kept not_false not_false rfl ⟨rfl, rfl, rfl, rfl, rfl⟩
            (fun i entry hentry => ?_) h.strings ?_
          · by_cases hi : i = value.toUInt16
            · subst hi
              change Function.update s.uc.userCode _ (some (s.uc.entry _)) _ = _
              rw [Function.update_self, UserCode.entry, hentry]
              rfl
            · exact (Function.update_of_ne hi _ _).trans hentry
          · exact List.forall_mem_singleton.mpr (by decide)
        · rw [if_neg hraw]
          exact h.of_unchanged not_false not_false rfl nofun
      · rw [setValue, if_neg hremove, if_neg hindex]
        exact h.of_unchanged not_false not_false rfl nofun
  | raw inst index bytes slot =>
      by_cases hindex : index = rawValue
      · rw [setValue, if_pos hindex]
        dsimp only
        by_cases hraw : s.uc.values inst rawValueIndex = some .short
        · rw [if_pos hraw]
          by_cases hslot : slot.toUInt16 = 0 ∨ slot.toUInt16 > s.uc.userCodeCount.toUInt16
          · rw [if_pos hslot]
            exact h.of_unchanged not_false not_false rfl nofun
          · rw [if_neg hslot]
            rw [not_or] at hslot
            have hless := hregular hindex hraw hslot.1 (UInt16.not_lt.mp hslot.2)
            refine h.of_unchanged not_false not_false rfl ?_
            refine List.forall_mem_singleton.mpr ⟨Int.natCast_nonneg _, ?_⟩
            rw [List.length_take]
            omega
        · rw [if_neg hraw, if_pos (Or.inl rfl)]
          exact h.of_unchanged not_false not_false rfl nofun
      · rw [setValue, if_neg hindex]
        exact h.of_unchanged not_false not_false rfl nofun

/-- What the report on the number of slots leads to. -/
theorem handleNumberReport_eq (uc : UserCode) {f : CommandFrame} (inst : UInt8)
    (hlong : 2 ≤ f.data.length) : ∃ uc',
      handleNumberReport uc f inst = .ok (uc', ⟨true, [], []⟩) ∧
      SameWalk { uc with userCodeCount := uc'.userCodeCount } uc' ∧
      uc'.userCodeCount = f.data.getD 1 0 ∧
      (∀ i, uc'.userCode i =
        if i.toNat < (f.data.getD 1 0).toNat + 1 then some .new else uc.userCode i) ∧
      (Strings uc.values → Strings uc'.values) := by
  have hn : (f.data.getD 1 0).toNat + 1 ≤ 256 := (f.data.getD 1 0).toNat_lt
  rw [handleNumberReport, CommandFrame.read_bind hlong]
  dsimp only
  have hwalk := sameWalk_foldl_initSlot inst
    { uc with userCodeCount := f.data.getD 1 0, staticRequest := false }
    (List.range ((f.data.getD 1 0).toNat + 1))
  have hcodes := userCode_foldl_initSlot inst
    { uc with userCodeCount := f.data.getD 1 0, staticRequest := false } hn
  have hstrings : Strings uc.values → _ := fun h => strings_foldl_initSlot inst
    (show Strings { uc with
      userCodeCount := f.data.getD 1 0
      staticRequest := false }.values from h) (List.range ((f.data.getD 1 0).toNat + 1))
  generalize List.foldl (initSlot inst) _ _ = initialized at hwalk hcodes hstrings ⊢
  by_cases hraw : initialized.exposeRawValue = true
  · rw [if_pos hraw]
    have hvalues := (sameWalk_addValue initialized inst rawValue .raw).trans
      (sameWalk_addValue _ inst rawValueIndex .short)
    have hall := hwalk.trans hvalues
    refine ⟨_, rfl, ⟨hall.1, hall.2, hall.3, hall.4, rfl⟩, hall.5, fun i => ?_, fun h => ?_⟩
    · rw [userCode_addValue, userCode_addValue]
      exact hcodes i
    · exact strings_addValue_of_le inst (strings_addValue_of_le inst (hstrings h) (by decide))
        (by decide)
  · rw [if_neg hraw]
    exact ⟨_, rfl, ⟨hwalk.1, hwalk.2, hwalk.3, hwalk.4, rfl⟩, hwalk.5, hcodes, hstrings⟩

theorem keeps_handleNumberReport (h : Inv s) {f : CommandFrame} {inst : UInt8}
    (hcmd : f.data.head? = some cmdNumberReport) (hregular : RegularNumber s.uc f) :
    Yields (s.step (.handleMsg f inst)) Inv := by
  obtain ⟨uc', heq, hwalk, hcount, hcodes, hstrings⟩ :=
    handleNumberReport_eq s.uc inst hregular.long
  have hmsg : step s.uc (.handleMsg f inst) = handleNumberReport s.uc f inst := by
    have hfirst : f.data.getD 0 0 = cmdNumberReport := by
      rw [List.getD_eq_getElem?_getD, ← List.head?_eq_getElem?, hcmd]
      rfl
    rw [step, handleMsg, CommandFrame.read_bind (Nat.lt_of_lt_of_le (by decide) hregular.long),
      hfirst, if_pos rfl]
  have hother : ¬ f.data.head? = some cmdReport := by
    rw [hcmd]
    decide
  rw [Session.step, hmsg, heq]
  refine yields_pure.mpr (h.of_same not_false (fun hanswer => hother hanswer.1) (if_neg hother)
    hwalk ?_ (fun i entry hentry => ?_) ?_ (hstrings h.strings) nofun)
  · rw [hcount]
    exact hregular.inside
  · rw [hcodes]
    split
    · rename_i hless
      have hle : i ≤ (f.data.getD 1 0).toUInt16 := by
        rw [UInt16.le_iff_toNat_le, toNat_toUInt16]
        omega
      rw [hregular.clear i entry hle hentry]
    · exact hentry
  · rw [Distinct, hcount]
    intro i hle hmem
    have hlt := (f.data.getD 1 0).toNat_lt
    have hne : (f.data.getD 1 0).toNat ≠ 255 := fun h => hregular.below (UInt8.toNat_inj.mp h)
    rw [UInt16.le_iff_toNat_le, toNat_toUInt16] at hle
    have hfar := le_of_mem_others i hmem
    omega

/-! ## The report on a slot -/

/-- The length of a code of at most 127 bytes. -/
theorem size_eq {f : CommandFrame} (hlong : 3 ≤ f.data.length) (hshort : f.data.length ≤ 130) :
    (f.length - 4).toUInt8.toNat = f.data.length - 3 ∧
      (f.length - 4).toUInt8.toInt8.toInt = (f.data.length - 3 : ℕ) := by
  have hfour : (4 : UInt32) ≤ f.length := f.le_length_iff.mpr (Nat.succ_le_succ hlong)
  have hbyte : (f.length - 4).toUInt8.toNat = f.data.length - 3 := by
    rw [UInt32.toNat_toUInt8, f.toNat_length_sub hfour]
    exact Nat.mod_eq_of_lt (by change f.data.length + 1 - 4 < _; omega)
  refine ⟨hbyte, ?_⟩
  rw [← hbyte]
  change (f.length - 4).toUInt8.toBitVec.toInt = _
  rw [BitVec.toInt_eq_toNat_of_lt]
  · rfl
  · change 2 * (f.length - 4).toUInt8.toNat < _
    omega

theorem copyFrom_eq {f : CommandFrame} {start n : ℕ} (h : start + n ≤ f.data.length) :
    copyFrom f start n = .ok ((f.data.drop start).take n) := by
  rw [copyFrom, check_bind (Int.natCast_nonneg n)]
  exact (bind_pure _).symm.trans (CommandFrame.readRange_bind h _)

/-- A code that covers the one before it is all that the record holds. -/
theorem usercode_write {entry : Entry} {status : UInt8} {code : List UInt8}
    (hlength : code.length ≤ 10) (hcovers : ∀ b ∈ entry.usercode.drop code.length, b = 0) :
    (entry.write status code).usercode = padded code := by
  have hrest : entry.usercode.drop code.length = List.replicate (10 - code.length) 0 := by
    rw [List.eq_replicate_iff, List.length_drop, entry.full]
    exact ⟨rfl, hcovers⟩
  rw [Entry.write, padded]
  dsimp only
  rw [hrest, List.take_of_length_le]
  rw [List.length_append, List.length_replicate]
  omega

/-- The record after a report on a slot. -/
def reported (uc : UserCode) (f : CommandFrame) : UserCode :=
  { uc with
    userCode := Function.update uc.userCode (slotOf f).toUInt16
      (some ((uc.entry (slotOf f).toUInt16).write (statusOf f) (codeOf f))) }

/-- The value of the slot is a string, if there is one. -/
theorem string_of_regular {uc : UserCode} {f : CommandFrame} {inst : UInt8}
    (hregular : RegularCode uc f inst) (hstrings : Strings uc.values) :
    uc.values inst (slotOf f).toUInt16 = none ∨
      uc.values inst (slotOf f).toUInt16 = some .string := by
  by_cases hlast : slotOf f = 255
  · rw [hlast]
    exact Or.inl (hregular.slot hlast)
  · have hlt := (slotOf f).toNat_lt
    have hne : (slotOf f).toNat ≠ 255 := fun h => hlast (UInt8.toNat_inj.mp h)
    refine hstrings inst _ (UInt16.lt_iff_toNat_lt.mpr ?_)
    rw [toNat_toUInt16, show refresh.toNat = 255 from rfl]
    omega

/-- What a report on a slot leads to. -/
theorem handleCodeReport_eq {uc : UserCode} {f : CommandFrame} {inst : UInt8}
    (hregular : RegularCode uc f inst) (hstrings : Strings uc.values) : ∃ copies,
      (∀ size ∈ copies, 0 ≤ size ∧ size ≤ 10) ∧
      handleCodeReport uc f inst =
        .ok ((walkOn (reported uc f) (slotOf f) (statusOf f) inst).1,
          ⟨true, (walkOn (reported uc f) (slotOf f) (statusOf f) inst).2, copies⟩) := by
  have hlong := hregular.long
  obtain ⟨hbyte, hsize⟩ := size_eq hlong hregular.short
  have hclamped : (if (f.length - 4).toUInt8.toInt8.toInt > 10 then 10
      else (f.length - 4).toUInt8.toInt8.toInt) = (min 10 (f.data.length - 3) : ℕ) := by
    rw [hsize]
    split <;> omega
  have htake : (f.data.drop 3).take (min 10 (f.data.length - 3)) = codeOf f := by
    rw [codeOf, List.take_eq_take_iff, List.length_drop]
    omega
  have hmemcpy : (0 : ℤ) ≤ (min 10 (f.data.length - 3) : ℕ) ∧
      ((min 10 (f.data.length - 3) : ℕ) : ℤ) ≤ 10 := by omega
  have hstring : ∀ size ∈ stringCopies (reported uc f) inst (slotOf f).toUInt16
      (min 10 (f.data.length - 3) : ℕ), 0 ≤ size ∧ size ≤ 10 := by
    rw [stringCopies]
    split
    · exact List.forall_mem_singleton.mpr hmemcpy
    · exact nofun
  obtain ⟨hraw, hcopied⟩ : (∀ size ∈ rawCopies (reported uc f) inst (f.data.length - 3 : ℕ),
        0 ≤ size ∧ size ≤ 10) ∧
      (forM (rawCopies (reported uc f) inst (f.data.length - 3 : ℕ)) fun length =>
        discard (copyFrom f 3 length)) = .ok () := by
    rw [rawCopies]
    split
    · rename_i hexposed
      have hten := hregular.raw hexposed.1 hexposed.2
      refine ⟨List.forall_mem_singleton.mpr (by omega), ?_⟩
      rw [List.forM_cons, copyFrom_eq (by omega)]
      rfl
    · exact ⟨nofun, rfl⟩
  refine ⟨_, List.forall_mem_cons.mpr ⟨hmemcpy, List.forall_mem_append.mpr ⟨hstring, hraw⟩⟩, ?_⟩
  rw [handleCodeReport, CommandFrame.read_bind (by omega), CommandFrame.read_bind hlong]
  dsimp only
  rw [hclamped, copyFrom_eq (by omega), ok_bind, htake, hbyte]
  change (check (_ ∨ _) FrameFault.overrun >>= fun _ =>
    forM (rawCopies (reported uc f) inst (f.data.length - 3 : ℕ)) _ >>= fun _ => _) = _
  rw [hcopied]
  exact check_bind (string_of_regular hregular hstrings) _ _

/-- The walk after the report it has waited for. -/
theorem walk_walkOn {uc : UserCode} {walk walk' : Walk} {slot status inst : UInt8}
    (h : walk.Waits uc) (hwaiting : uc.queryAll = true) (hsupported : uc.getSupported = true)
    (hslot : slot.toUInt16 = uc.currentCode)
    (hfirst : (uc.refreshUserCodes = true ∨ status ≠ available) →
      uc.currentCode < uc.userCodeCount.toUInt16 → inst = 1)
    (hwalk' : walk' = ⟨walk.requested ++ requestedSlots (walkOn uc slot status inst).2,
      walk.answers ++ [status], uc.userCodeCount, uc.refreshUserCodes⟩) :
    ((walkOn uc slot status inst).1.queryAll = true →
        walk'.Waits (walkOn uc slot status inst).1) ∧
      ((walkOn uc slot status inst).1.queryAll = false → walk'.Ended) := by
  have hnumber : slot.toNat = walk.answers.length + 1 := by
    rw [← toNat_toUInt16, hslot, h.current]
  have hcount := uc.userCodeCount.toNat_lt
  have hinside := h.inside
  have hlength : (walk.answers ++ [status]).length = walk.answers.length + 1 := by
    rw [List.length_append, List.length_singleton]
  have hbefore : uc.refreshUserCodes = false → available ∉ walk.answers := fun hall =>
    h.occupied (h.all.trans hall)
  rw [walkOn, if_pos ⟨hwaiting, hslot⟩] at hwalk' ⊢
  subst hwalk'
  by_cases hon : uc.refreshUserCodes = true ∨ status ≠ available
  · rw [if_pos hon]
    by_cases hmore : slot.toNat + 1 ≤ uc.userCodeCount.toNat
    · rw [if_pos hmore]
      have hnext : (UInt16.ofNat (slot.toNat + 1)).toNat = slot.toNat + 1 := by
        rw [UInt16.toNat_ofNat', Nat.mod_eq_of_lt (by omega)]
      obtain rfl : inst = 1 := by
        refine hfirst hon (UInt16.lt_iff_toNat_lt.mpr ?_)
        rw [toNat_toUInt16, ← hslot, toNat_toUInt16]
        omega
      refine ⟨fun _ => ?_, fun hover => absurd (hwaiting.symm.trans hover) (by decide)⟩
      have hrequest : (requestValue { uc with currentCode := UInt16.ofNat (slot.toNat + 1) }
          (UInt16.ofNat (slot.toNat + 1)) 1).2 = [.codeGet (UInt8.ofNat (slot.toNat + 1))] := by
        refine (congrArg Prod.snd (requestValue_slot (by exact hsupported) ?_ ?_)).trans ?_
        · omega
        · exact hnext.trans_le hmore
        · rw [hnext]
      refine ⟨?_, ?_, ?_, rfl, ?_⟩
      · dsimp only
        rw [hrequest, h.requested, hlength, bytesUpTo_succ (walk.answers.length + 1), hnumber]
        rfl
      · dsimp only
        rw [hlength, hnext, hnumber]
      · dsimp only
        omega
      · intro hall hmem
        rcases List.mem_append.mp hmem with hmem | hmem
        · exact hbefore hall hmem
        · rcases hon with hon | hon
          · exact absurd (hon.symm.trans hall) (by decide)
          · exact hon (List.mem_singleton.mp hmem).symm
    · rw [if_neg hmore]
      refine ⟨nofun, fun _ => ⟨?_, ?_, Or.inl ?_⟩⟩
      · dsimp only
        rw [hlength, h.requested]
        exact List.append_nil _
      · intro hall
        dsimp only
        rw [List.dropLast_concat]
        exact hbefore hall
      · dsimp only
        omega
  · rw [if_neg hon]
    obtain ⟨hall, hstatus⟩ := not_or.mp hon
    have hall : uc.refreshUserCodes = false := Bool.eq_false_iff.mpr hall
    refine ⟨nofun, fun _ => ⟨?_, ?_, Or.inr ⟨hall, ?_, ?_⟩⟩⟩
    · dsimp only
      rw [hlength, h.requested]
      exact List.append_nil _
    · intro _
      dsimp only
      rw [List.dropLast_concat]
      exact hbefore hall
    · dsimp only
      rw [List.getLast?_concat, not_not.mp hstatus]
    · dsimp only
      omega

/-- A report that a walk does not wait for leaves it alone. -/
theorem walkOn_other {uc : UserCode} {slot status inst : UInt8}
    (h : ¬ (uc.queryAll = true ∧ slot.toUInt16 = uc.currentCode)) :
    walkOn uc slot status inst = (uc, []) := if_neg h

/-- A walk changes neither the records nor the values. -/
theorem walkOn_keeps (uc : UserCode) (slot status inst : UInt8) :
    (walkOn uc slot status inst).1.userCode = uc.userCode ∧
      (walkOn uc slot status inst).1.values = uc.values ∧
      (walkOn uc slot status inst).1.userCodeCount = uc.userCodeCount ∧
      (walkOn uc slot status inst).1.getSupported = uc.getSupported ∧
      ((walkOn uc slot status inst).1.queryAll = true → uc.queryAll = true) := by
  rw [walkOn]
  dsimp only
  split
  · split
    · split
      · exact ⟨rfl, rfl, rfl, rfl, id⟩
      · exact ⟨rfl, rfl, rfl, rfl, nofun⟩
    · exact ⟨rfl, rfl, rfl, rfl, nofun⟩
  · exact ⟨rfl, rfl, rfl, rfl, id⟩

/-- The record of the slot is the report, and the others are as before. -/
theorem recorded_reported (h : Recorded s) {f : CommandFrame}
    (hcovers : ∀ b ∈ (s.uc.entry (slotOf f).toUInt16).usercode.drop (f.data.length - 3), b = 0)
    {slot status : UInt8} {code : List UInt8}
    (hlast : Function.update s.latest (slotOf f) (some (statusOf f, codeOf f)) slot =
      some (status, code)) :
    ∃ entry, (reported s.uc f).userCode slot.toUInt16 = some entry ∧ entry.status = status ∧
      entry.usercode = padded code := by
  have hcode : (codeOf f).length = min 10 (f.data.length - 3) := by
    rw [codeOf, List.length_take, List.length_drop]
  by_cases hslot : slot = slotOf f
  · subst hslot
    rw [Function.update_self] at hlast
    cases hlast
    refine ⟨_, Function.update_self _ _ _, rfl, usercode_write (by omega) fun b hb => ?_⟩
    have hfull := (s.uc.entry (slotOf f).toUInt16).full
    by_cases hten : f.data.length - 3 ≤ 10
    · rw [hcode, Nat.min_eq_right hten] at hb
      exact hcovers b hb
    · rw [hcode, Nat.min_eq_left (by omega), ← hfull, List.drop_length] at hb
      exact absurd hb List.not_mem_nil
  · rw [Function.update_of_ne hslot] at hlast
    obtain ⟨entry, hentry, hrecord⟩ := h slot status code hlast
    have hne : slot.toUInt16 ≠ (slotOf f).toUInt16 := fun heq => hslot (by
      rw [← UInt8.toNat_inj, ← toNat_toUInt16, heq, toNat_toUInt16])
    exact ⟨entry, (Function.update_of_ne hne _ _).trans hentry, hrecord⟩

/-- The walk, whether it has waited for the report or not. -/
theorem walk_next (h : Inv s) {f : CommandFrame} {inst : UInt8}
    (hcmd : f.data.head? = some cmdReport) (hregular : RegularCode s.uc f inst) {next : UserCode}
    {walk' : Walk} (hnext : (walkOn (reported s.uc f) (slotOf f) (statusOf f) inst).1 = next)
    (hwalk' : s.walk.next s.uc next (.handleMsg f inst)
      (walkOn (reported s.uc f) (slotOf f) (statusOf f) inst).2 = walk') :
    (next.queryAll = true → walk'.Waits next) ∧ (next.queryAll = false → walk'.Ended) := by
  subst hnext
  rw [Walk.next, if_neg (show ¬ Starts s.uc (.handleMsg f inst) from not_false)] at hwalk'
  by_cases hanswers : s.uc.queryAll = true ∧ (slotOf f).toUInt16 = s.uc.currentCode
  · obtain ⟨hwaiting, hslot⟩ := hanswers
    rw [if_pos (show Answers s.uc (.handleMsg f inst) from ⟨hcmd, hwaiting, hslot⟩)] at hwalk'
    obtain ⟨h1, h2, h3, h4, h5⟩ := h.proper.waits hwaiting
    have hwaits : s.walk.Waits (reported s.uc f) := ⟨h1, h2, h3, h4, h5⟩
    exact walk_walkOn hwaits hwaiting (h.supported hwaiting) hslot (hregular.first hwaiting hslot)
      hwalk'.symm
  · rw [if_neg (show ¬ Answers s.uc (.handleMsg f inst) from fun h => hanswers h.2)] at hwalk'
    subst hwalk'
    have hsame : walkOn (reported s.uc f) (slotOf f) (statusOf f) inst = (reported s.uc f, []) :=
      walkOn_other hanswers
    rw [hsame]
    refine ⟨fun hwaiting => ?_, h.proper.ended⟩
    obtain ⟨h1, h2, h3, h4, h5⟩ := h.proper.waits hwaiting
    exact ⟨h1, h2, h3, h4, h5⟩

theorem keeps_handleCodeReport (h : Inv s) {f : CommandFrame} {inst : UInt8}
    (hcmd : f.data.head? = some cmdReport) (hregular : RegularCode s.uc f inst) :
    Yields (s.step (.handleMsg f inst)) Inv := by
  obtain ⟨copies, hcopies, heq⟩ := handleCodeReport_eq hregular h.strings
  have hmsg : step s.uc (.handleMsg f inst) = handleCodeReport s.uc f inst := by
    have hfirst : f.data.getD 0 0 = cmdReport := by
      rw [List.getD_eq_getElem?_getD, ← List.head?_eq_getElem?, hcmd]
      rfl
    rw [step, handleMsg, CommandFrame.read_bind (Nat.lt_of_lt_of_le (by decide) hregular.long),
      hfirst, if_neg (by decide), if_pos rfl]
  obtain ⟨hcodes, hvalues, hcount, hget, hquery⟩ :=
    walkOn_keeps (reported s.uc f) (slotOf f) (statusOf f) inst
  rw [Session.step, hmsg, heq]
  refine yields_pure.mpr ⟨⟨?_, ?_, ?_, ?_, ?_⟩, ?_, ?_⟩
  · intro slot status code hlast
    change nextLatest s.latest (.handleMsg f inst) slot = _ at hlast
    rw [nextLatest, if_pos hcmd] at hlast
    obtain ⟨entry, hentry, hrecord⟩ :=
      recorded_reported h.proper.recorded hregular.covers hlast
    exact ⟨entry, (congrFun hcodes _).trans hentry, hrecord⟩
  · exact List.forall_mem_append.mpr ⟨h.proper.sized, hcopies⟩
  · change Distinct (walkOn _ _ _ _).1
    rw [Distinct, hcount]
    exact h.proper.distinct
  · exact (walk_next h hcmd hregular rfl rfl).1
  · exact (walk_next h hcmd hregular rfl rfl).2
  · intro hwaiting
    exact hget.trans (h.supported (hquery hwaiting))
  · change Strings (walkOn _ _ _ _).1.values
    rw [hvalues]
    exact h.strings

theorem keeps_handleMsg (h : Inv s) {f : CommandFrame} {inst : UInt8}
    (hregular : RegularMsg s.uc f inst) : Yields (s.step (.handleMsg f inst)) Inv := by
  by_cases hnumber : f.data.head? = some cmdNumberReport
  · exact keeps_handleNumberReport h hnumber (hregular.number hnumber)
  by_cases hcode : f.data.head? = some cmdReport
  · exact keeps_handleCodeReport h hcode (hregular.code hcode)
  have hfirst : f.data.head? = some (f.data.getD 0 0) := by
    rw [List.head?_eq_getElem?, List.getD_eq_getElem?_getD,
      List.getElem?_eq_getElem hregular.long, Option.getD_some]
  rw [hfirst, Option.some_inj] at hnumber hcode
  have hmsg : step s.uc (.handleMsg f inst) = .ok (s.uc, ⟨false, [], []⟩) := by
    rw [step, handleMsg, CommandFrame.read_bind hregular.long, if_neg hnumber, if_neg hcode]
    rfl
  have hother : ¬ f.data.head? = some cmdReport := by
    rwa [hfirst, Option.some_inj]
  rw [Session.step, hmsg]
  exact yields_pure.mpr (h.of_unchanged not_false (fun hanswer => hother hanswer.1)
    (if_neg hother) nofun)

/-- A step that meets the condition keeps the invariant. -/
theorem keeps_step (h : Inv s) {e : Step} (hregular : Regular s.uc e) :
    Yields (s.step e) Inv := by
  cases e with
  | createVars inst => exact keeps_createVars h inst
  | requestState isStatic session inst => exact keeps_requestState h hregular
  | requestValue userCodeIdx inst =>
      exact ⟨_, rfl, h.of_unchanged not_false not_false rfl nofun⟩
  | handleMsg f inst => exact keeps_handleMsg h hregular
  | setValue setting => exact keeps_setValue h hregular

end Step

/-! ## Every run -/

/-- The condition on a step of a run. -/
def Meets (s : Except FrameFault Session) (e : Step) : Prop := ∀ s', s = .ok s' → Regular s'.uc e

/-- The steps of a run from `s` meet the condition, each in the state in which it happens. -/
def Along (s : Except FrameFault Session) (steps : List Step) : Prop :=
  Transition.Along (fun s e => s >>= fun s => s.step e) Meets s steps

theorem inv_new (getSupported exposeRawValue refreshAllUserCodes : Bool) :
    Inv (.new (new getSupported exposeRawValue refreshAllUserCodes)) := by
  refine ⟨⟨nofun, nofun, ?_, nofun, fun _ => ⟨rfl, fun _ => List.not_mem_nil, Or.inl rfl⟩⟩, nofun,
    fun _ _ _ => Or.inl rfl⟩
  intro i hle hmem
  have hfar := le_of_mem_others i hmem
  rw [UInt16.le_iff_toNat_le, toNat_toUInt16] at hle
  change i.toNat ≤ 0 at hle
  omega

theorem inv_run {s : Except FrameFault Session} (h : Yields s Inv) {steps : List Step}
    (halong : Along s steps) : Yields (run s steps) Inv := by
  refine Transition.run_invariant_along (I := fun s => Yields s Inv) (fun s e hs hmeets => ?_) h
    halong
  obtain ⟨s', rfl, hs'⟩ := hs
  exact keeps_step hs' (hmeets s' rfl)

/-- In every run from the start whose steps meet the condition, no access is outside of its
bounds, and the state is proper. -/
theorem userCodes_proper (getSupported exposeRawValue refreshAllUserCodes : Bool)
    (steps : List Step)
    (halong : Along (.ok (.new (new getSupported exposeRawValue refreshAllUserCodes))) steps) :
    Yields (run (.ok (.new (new getSupported exposeRawValue refreshAllUserCodes))) steps)
      Proper :=
  (inv_run (yields_ok.mpr (inv_new _ _ _)) halong).mono fun _ h => h.proper

/-- A node with two slots, of which the first is occupied. -/
theorem userCodes_proper_occupied :
    Yields (run (.ok (.new (new true false false)))
      [.handleMsg ⟨[0x05, 0x02], by decide⟩ 1,
        .handleMsg ⟨[0x03, 0x01, 0x01, 0x31, 0x32, 0x33, 0x34], by decide⟩ 1]) Proper := by
  refine userCodes_proper true false false _ ⟨?_, ?_, trivial⟩
  · rintro s' ⟨⟩
    exact ⟨by decide, fun _ => ⟨by decide, by decide, nofun, nofun⟩, fun h => absurd h (by decide)⟩
  · rintro s' ⟨⟩
    refine ⟨by decide, fun h => absurd h (by decide), fun _ => ?_⟩
    exact ⟨by decide, by decide, nofun, List.all_iff_forall_prop.mp (by decide),
      fun h => absurd h (by decide), nofun⟩

/-- A code of four digits after one of six. -/
def shorter : List Step :=
  [.handleMsg ⟨[0x05, 0x02], by decide⟩ 1,
    .handleMsg ⟨[0x03, 0x01, 0x01, 0x31, 0x32, 0x33, 0x34, 0x35, 0x36], by decide⟩ 1,
    .handleMsg ⟨[0x03, 0x01, 0x01, 0x37, 0x38, 0x39, 0x30], by decide⟩ 1]

theorem run_shorter :
    (run (.ok (.new (new true false false))) shorter).map (fun s =>
        (s.latest 1, (s.uc.userCode 1).map Entry.usercode)) =
      .ok (some (0x01, [0x37, 0x38, 0x39, 0x30]),
        some [0x37, 0x38, 0x39, 0x30, 0x35, 0x36, 0x00, 0x00, 0x00, 0x00]) := by
  rfl

theorem userCodes_not_proper :
    ¬ ∀ steps, Yields (run (.ok (.new (new true false false))) steps) Proper := by
  intro h
  obtain ⟨s, hs, hproper⟩ := h shorter
  have hend := run_shorter
  rw [hs] at hend
  obtain ⟨hlatest, hcode⟩ := Prod.mk.inj (Except.ok.inj hend)
  obtain ⟨entry, hentry, -, hrecord⟩ := hproper.recorded 1 _ _ hlatest
  change s.uc.userCode 1 = some entry at hentry
  rw [hentry, Option.map_some, Option.some_inj, hrecord] at hcode
  exact absurd hcode (by decide)

end UserCode

end OpenZWave

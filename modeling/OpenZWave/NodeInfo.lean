import Mathlib.Data.List.Nodup
import Mathlib.Data.List.TakeWhile
import OpenZWave.EndPoints
import OpenZWave.Lib.Checked

/-!
# Node information frames

A node tells its classes in a frame when it is added, and in the node information frame. Three
bytes with the device classes come first; the classes after the mark are only controlled by the
node. `SetProtocolInfo` and `UpdateNodeInfo` give the node its classes. The queries that go on
afterwards, and requests for versions, are left out.
-/

namespace OpenZWave

open Checked

/-- A command class with `STATE_FLAG_INNIF`. -/
structure ListedClass extends MultiClass where
  inNIF : Bool

namespace ListedClass

/-- A class as `CreateCommandClass` leaves it. -/
def new : ListedClass where
  toMultiClass := .new
  inNIF := false

def setInNIF (cc : ListedClass) : ListedClass := { cc with inNIF := true }

def setAfterMark (cc : ListedClass) : ListedClass :=
  { cc with toMultiClass := cc.toMultiClass.setAfterMark }

def setInstance (cc : ListedClass) (inst : UInt8) : ListedClass :=
  { cc with toMultiClass := cc.toMultiClass.setInstance inst }

end ListedClass

/-- `CommandClasses`: the classes that are registered, of which Security is one, and those that
the options leave supported. -/
structure ClassRegistry where
  creators : UInt8 → Bool
  isSupported : UInt8 → Bool
  security : creators 0x98 = true

/-- `DeviceClass`, with its zero terminated list. -/
structure DeviceClassEntry where
  mandatoryCommandClasses : List UInt8
  basicMapping : UInt8

structure GenericDeviceClass extends DeviceClassEntry where
  specificDeviceClasses : UInt8 → Option DeviceClassEntry

/-- What a node looks up elsewhere. -/
structure InfoContext where
  registry : ClassRegistry
  genericDeviceClasses : UInt8 → Option GenericDeviceClass
  networkKeySet : Bool

inductive InfoEffect
  /-- `SetQueryStage` to the stage in which the node is asked for its information. -/
  | requestProtocolInfo
  /-- The notification `Type_NodeProtocolInfo`. -/
  | protocolInfo
  /-- `SetNodeAlive`. -/
  | dead
  /-- `SetMapping` of the Basic class. -/
  | setMapping (commandClassId : UInt8)
  | exchangeNetworkKeys
  /-- The request flags that `SetStaticRequests` sets, with the stage that it goes back to. -/
  | staticRequest (request : UInt8)
  /-- `SetQueryStage` to the dynamic stage. -/
  | dynamic
  | awake

inductive InfoFault
  /-- A byte is read that was not declared. -/
  | undeclared
  /-- A use of a missing class. -/
  | null
  deriving DecidableEq

/-- A node. `created` lists the classes for which an object was created. -/
structure InfoNode where
  commandClasses : UInt8 → Option ListedClass
  created : List UInt8
  basic : UInt8
  generic : UInt8
  specific : UInt8
  listening : Bool
  frequentListening : Bool
  secured : Bool
  refreshonNodeInfoFrame : Bool
  protocolInfoReceived : Bool
  basicprotocolInfoReceived : Bool
  nodeInfoReceived : Bool
  effects : List InfoEffect

/-- The bytes of a frame from the device classes on: as many as its length byte declares. -/
structure DeclaredBytes where
  bytes : List UInt8
  fits : bytes.length < 256

def DeclaredBytes.length (frame : DeclaredBytes) : UInt8 := UInt8.ofNat frame.bytes.length

/-- `m_controllerDeviceProtocolInfo`: what the driver keeps of a node that it adds, which is
truncated to its 254 bytes. -/
def DeclaredBytes.kept (frame : DeclaredBytes) : DeclaredBytes where
  bytes := frame.bytes.take 254
  fits := Nat.lt_of_le_of_lt (List.length_take_le 254 frame.bytes) (by decide)

namespace InfoNode

/-- The mark in a list of classes. -/
def mark : UInt8 := 0xef

def basicId : UInt8 := 0x20
def multiInstanceId : UInt8 := 0x60
def wakeUpId : UInt8 := 0x84
def versionId : UInt8 := 0x86
def securityId : UInt8 := 0x98

def emit (n : InfoNode) (effect : InfoEffect) : InfoNode :=
  { n with effects := n.effects ++ [effect] }

/-- What is done with the class that `GetCommandClass` finds. -/
def withClass (n : InfoNode) (id : UInt8) (change : ListedClass → ListedClass) : InfoNode :=
  { n with commandClasses := Function.update n.commandClasses id ((n.commandClasses id).map change) }

variable (ctx : InfoContext)

/-- `AddCommandClass`, and whether it returns a class. -/
def addCommandClass (n : InfoNode) (id : UInt8) : InfoNode × Bool :=
  match n.commandClasses id with
  | some _ => (n, false)
  | none =>
      if ctx.registry.creators id then
        ({ n with
            commandClasses := Function.update n.commandClasses id (some .new)
            created := n.created ++ [id] }, true)
      else (n, false)

/-- A class is supported, and Security only with a network key. -/
def usable (id : UInt8) : Bool :=
  ctx.registry.isSupported id && !(id == securityId && !ctx.networkKeySet)

/-- The body of the loops of `AddMandatoryCommandClasses` and `UpdateNodeInfo`, the second of
which marks the classes. -/
def enterClass (inNIF afterMark : Bool) (n : InfoNode) (id : UInt8) : InfoNode :=
  if usable ctx id then
    match n.addCommandClass ctx id with
    | (n, true) => n.withClass id fun cc =>
        let cc := if inNIF then cc.setInNIF else cc
        let cc := if afterMark then cc.setAfterMark else cc
        cc.setInstance 1
    | (n, false) => if inNIF then n.withClass id ListedClass.setInNIF else n
  else n

/-- The loop over a list of classes. -/
def enterAll (inNIF : Bool) : Bool → InfoNode → List UInt8 → InfoNode
  | _, n, [] => n
  | afterMark, n, id :: ids =>
      if id = mark then enterAll inNIF true n ids
      else enterAll inNIF afterMark (n.enterClass ctx inNIF afterMark id) ids

/-- `AddMandatoryCommandClasses`. -/
def addMandatoryCommandClasses (n : InfoNode) (commandClasses : List UInt8) : InfoNode :=
  n.enterAll ctx false false (commandClasses.takeWhile (· ≠ 0))

/-- The generic and the specific class of a device add their classes, and the mapping that is
left. -/
def addDeviceClasses (n : InfoNode) (generic specific : UInt8) : InfoNode × UInt8 :=
  match ctx.genericDeviceClasses generic with
  | none => (n, 0)
  | some genericDeviceClass =>
      let n := n.addMandatoryCommandClasses ctx genericDeviceClass.mandatoryCommandClasses
      match genericDeviceClass.specificDeviceClasses specific with
      | none => (n, genericDeviceClass.basicMapping)
      | some specificDeviceClass =>
          (n.addMandatoryCommandClasses ctx specificDeviceClass.mandatoryCommandClasses,
            if specificDeviceClass.basicMapping ≠ 0 then specificDeviceClass.basicMapping
            else genericDeviceClass.basicMapping)

/-- A device that does not always listen gets the class for waking up. -/
def addWakeUp (n : InfoNode) : InfoNode :=
  if n.listening = false ∧ n.frequentListening = false then
    match n.addCommandClass ctx wakeUpId with
    | (n, true) => n.withClass wakeUpId (·.setInstance 1)
    | (n, false) => n
  else n

/-- `SetDeviceClasses`. -/
def setDeviceClasses (n : InfoNode) (basic generic specific : UInt8) : InfoNode :=
  let n := { n with basic := basic, generic := generic, specific := specific }
  let (n, basicMapping) := n.addDeviceClasses ctx generic specific
  let n := n.addWakeUp ctx
  if (n.commandClasses basicId).isSome then n.emit (.setMapping basicMapping) else n

/-- The flags for `StaticRequest_Instances` and `StaticRequest_Version`. -/
def staticRequest (n : InfoNode) : UInt8 :=
  (if (n.commandClasses multiInstanceId).isSome then 0x01 else 0) |||
    (if (n.commandClasses versionId).isSome then 0x04 else 0)

/-- `SetStaticRequests`. -/
def setStaticRequests (n : InfoNode) : InfoNode :=
  if n.staticRequest ≠ 0 then n.emit (.staticRequest n.staticRequest) else n

/-- The loop of `UpdateNodeInfo`, which reads a byte at each turn. -/
def readClasses (bytes : List UInt8) : ℕ → ℕ → Bool → InfoNode → Except InfoFault InfoNode
  | 0, _, _, n => .ok n
  | count + 1, pos, afterMark, n => do
      let id ← readAt bytes pos .undeclared
      if id = mark then readClasses bytes count (pos + 1) true n
      else readClasses bytes count (pos + 1) afterMark (n.enterClass ctx true afterMark id)

/-- The node information frame is a sign that the node is awake. -/
def wake (n : InfoNode) : InfoNode :=
  if (n.commandClasses wakeUpId).isSome then n.emit .awake else n

/-- `UpdateNodeInfo`, with a pointer into the bytes of a frame. -/
def updateNodeInfo (n : InfoNode) (bytes : List UInt8) (pos : ℕ) (length : UInt8) :
    Except InfoFault InfoNode :=
  if n.nodeInfoReceived then
    .ok (if n.refreshonNodeInfoFrame then n.emit .dynamic else n).wake
  else do
    let n ← n.readClasses ctx bytes length.toNat pos false
    return { n.setStaticRequests with nodeInfoReceived := true }.wake

/-- The loop of `SetProtocolInfo` that looks for the Security class. -/
def exchangeListed (n : InfoNode) : List UInt8 → Except InfoFault InfoNode
  | [] => .ok n
  | id :: ids =>
      if id = securityId then
        match n.addCommandClass ctx id with
        | (n, added) =>
            if ctx.networkKeySet then
              if added then (n.emit .exchangeNetworkKeys).exchangeListed ids else .error .null
            else n.exchangeListed ids
      else n.exchangeListed ids

/-- A secured node exchanges the network key first. -/
def exchangeKeys (n : InfoNode) (ids : List UInt8) : Except InfoFault InfoNode :=
  if n.secured then
    match n.commandClasses securityId with
    | some _ => .ok (if ctx.networkKeySet then n.emit .exchangeNetworkKeys else n)
    | none => n.exchangeListed ctx ids
  else .ok n

/-- `SetProtocolInfo`. -/
def setProtocolInfo (n : InfoNode) (frame : DeclaredBytes) : Except InfoFault InfoNode :=
  if n.protocolInfoReceived ∨ n.basicprotocolInfoReceived then .ok n
  else do
    let generic ← readAt frame.bytes 1 .undeclared
    if generic = 0 then .ok (n.emit .dead)
    else do
      let basic ← readAt frame.bytes 0 .undeclared
      let specific ← readAt frame.bytes 2 .undeclared
      let n ← ((n.emit .protocolInfo).setDeviceClasses ctx basic generic specific).exchangeKeys ctx
        (frame.bytes.drop 3)
      let n ← n.updateNodeInfo ctx frame.bytes 3 (frame.length - 3)
      return { n with basicprotocolInfoReceived := true }

/-- The end of `InitNode`, for the node that it has made. -/
def initNode (n : InfoNode) (frame : DeclaredBytes) : Except InfoFault InfoNode :=
  if frame.length = 0 then .ok (n.emit .requestProtocolInfo) else n.setProtocolInfo ctx frame

end InfoNode

/-- A node information frame, or the one that tells of a node that is added. -/
inductive InfoFrame
  | nodeInfo (frame : DeclaredBytes)
  | addNode (frame : DeclaredBytes)

/-- The list of classes of a frame, with its marks. -/
def InfoFrame.listed : InfoFrame → List UInt8
  | .nodeInfo frame => frame.bytes.drop 3
  | .addNode frame => frame.kept.bytes.drop 3

namespace InfoNode

/-- What a frame does with a node. The first class is the fourth of the declared bytes, and the
length of the list is a byte. -/
def receive (ctx : InfoContext) (n : InfoNode) : InfoFrame → Except InfoFault InfoNode
  | .nodeInfo frame => n.updateNodeInfo ctx frame.bytes 3 (frame.length - 3)
  | .addNode frame => n.initNode ctx frame.kept

/-! ## What is expected of a frame -/

/-- A class of which the library can make an object for a list. -/
def provides (ctx : InfoContext) (id : UInt8) : Bool := usable ctx id && ctx.registry.creators id

/-- The classes of a zero terminated list. -/
def mandatoryIn (entry : DeviceClassEntry) (id : UInt8) : Prop :=
  id ∈ entry.mandatoryCommandClasses.takeWhile (· ≠ 0) ∧ id ≠ mark

/-- The classes that a node must have by its device classes. -/
def Mandatory (ctx : InfoContext) (n : InfoNode) (generic specific id : UInt8) : Prop :=
  (provides ctx id = true ∧ ∃ genericDeviceClass,
      ctx.genericDeviceClasses generic = some genericDeviceClass ∧
        (mandatoryIn genericDeviceClass.toDeviceClassEntry id ∨
          ∃ specificDeviceClass,
            genericDeviceClass.specificDeviceClasses specific = some specificDeviceClass ∧
              mandatoryIn specificDeviceClass id)) ∨
    id = wakeUpId ∧ n.listening = false ∧ n.frequentListening = false ∧
      ctx.registry.creators wakeUpId = true

/-- The previous and the mandatory classes. -/
def Base (ctx : InfoContext) (n : InfoNode) (id : UInt8) : InfoFrame → Prop
  | .nodeInfo _ => n.commandClasses id ≠ none
  | .addNode frame => n.commandClasses id ≠ none ∨
      Mandatory ctx n (frame.kept.bytes.getD 1 0) (frame.kept.bytes.getD 2 0) id

/-- The first frame with information on a node. A node without a generic class does not exist,
and one without any information is asked for it. -/
def First (n : InfoNode) : InfoFrame → Prop
  | .nodeInfo _ => n.nodeInfoReceived = false
  | .addNode frame => n.nodeInfoReceived = false ∧ n.protocolInfoReceived = false ∧
      n.basicprotocolInfoReceived = false ∧ frame.kept.bytes ≠ [] ∧
        frame.kept.bytes[1]? ≠ some 0

/-- No class is removed, and none is created that is there already. -/
structure Grows (n n' : InfoNode) : Prop where
  kept : ∀ id cc, n.commandClasses id = some cc →
    ∃ cc', n'.commandClasses id = some cc' ∧ cc'.toMultiClass = cc.toMultiClass
  created : ∃ ids : List UInt8, n'.created = n.created ++ ids ∧ ids.Nodup ∧
    ∀ id, id ∈ ids ↔ n.commandClasses id = none ∧ n'.commandClasses id ≠ none

/-- What a frame makes of a node: the first one leaves it with the previous and mandatory
classes and those listed, of which the new ones are marked as controlled when they are listed
after the mark only. -/
structure Updated (ctx : InfoContext) (n : InfoNode) (frame : InfoFrame) (n' : InfoNode) : Prop where
  grows : n.Grows n'
  classes : n.First frame → ∀ id, n'.commandClasses id ≠ none ↔
    Base ctx n id frame ∨ id ∈ frame.listed ∧ id ≠ mark ∧ provides ctx id = true
  afterMark : n.First frame → ∀ id cc, ¬ Base ctx n id frame → n'.commandClasses id = some cc →
    (cc.afterMark = true ↔ id ∉ frame.listed.takeWhile (· ≠ mark))
  inNIF : n.First frame → ∀ id cc, id ∈ frame.listed → id ≠ mark → usable ctx id = true →
    n'.commandClasses id = some cc → cc.inNIF = true

/-- The Security class of a secured node that does not have it: the code adds it ahead of the
others, once for each time it is listed. -/
def SecurityFits (ctx : InfoContext) (n : InfoNode) (ids : List UInt8) : Prop :=
  if n.nodeInfoReceived then ctx.networkKeySet = true → ids.count securityId ≤ 1
  else securityId ∈ ids → usable ctx securityId = true ∧ ctx.networkKeySet = true ∧
    ids.count securityId = 1 ∧ securityId ∈ ids.takeWhile (· ≠ mark)

/-- The declared length covers the device classes, where the frame is read at all, and for a
secured node without the Security class it is listed as the code expects. -/
def Fits (ctx : InfoContext) (n : InfoNode) : InfoFrame → Prop
  | .nodeInfo frame => n.nodeInfoReceived = false → 3 ≤ frame.bytes.length
  | .addNode frame =>
      n.protocolInfoReceived = false → n.basicprotocolInfoReceived = false →
        frame.kept.bytes ≠ [] → frame.kept.bytes[1]? ≠ some 0 →
          3 ≤ frame.kept.bytes.length ∧
            (n.secured = true → ¬ Base ctx n securityId (.addNode frame) →
              SecurityFits ctx n (frame.kept.bytes.drop 3))

/-! ## Growth -/

variable {ctx : InfoContext} {n n' n'' : InfoNode}

theorem Grows.refl (n : InfoNode) : n.Grows n where
  kept := fun _ cc hcc => ⟨cc, hcc, rfl⟩
  created := by
    refine ⟨[], (List.append_nil _).symm, List.nodup_nil, fun id => ?_⟩
    simp

theorem Grows.trans (h : n.Grows n') (h' : n'.Grows n'') : n.Grows n'' where
  kept := by
    intro id cc hcc
    obtain ⟨cc', hcc', hsame⟩ := h.kept id cc hcc
    obtain ⟨cc'', hcc'', hsame'⟩ := h'.kept id cc' hcc'
    exact ⟨cc'', hcc'', hsame'.trans hsame⟩
  created := by
    obtain ⟨ids, hids, hnodup, hmem⟩ := h.created
    obtain ⟨ids', hids', hnodup', hmem'⟩ := h'.created
    refine ⟨ids ++ ids', by rw [hids', hids, List.append_assoc], ?_, ?_⟩
    · refine List.Nodup.append hnodup hnodup' fun id hid hid' => ?_
      exact ((hmem id).mp hid).2 ((hmem' id).mp hid').1
    · intro id
      have hkept : n'.commandClasses id ≠ none → n''.commandClasses id ≠ none := by
        intro hsome
        obtain ⟨cc, hcc⟩ := Option.ne_none_iff_exists'.mp hsome
        obtain ⟨cc', hcc', -⟩ := h'.kept id cc hcc
        rw [hcc']
        exact Option.some_ne_none _
      have hback : n'.commandClasses id = none → n.commandClasses id = none := by
        intro hnone
        by_contra hsome
        obtain ⟨cc, hcc⟩ := Option.ne_none_iff_exists'.mp hsome
        obtain ⟨cc', hcc', -⟩ := h.kept id cc hcc
        rw [hnone] at hcc'
        cases hcc'
      rw [List.mem_append, hmem, hmem']
      constructor
      · rintro (⟨hnone, hsome⟩ | ⟨hnone, hsome⟩)
        · exact ⟨hnone, hkept hsome⟩
        · exact ⟨hback hnone, hsome⟩
      · rintro ⟨hnone, hsome⟩
        by_cases hmiddle : n'.commandClasses id = none
        · exact .inr ⟨hmiddle, hsome⟩
        · exact .inl ⟨hnone, hmiddle⟩

/-- A change that leaves the classes alone. -/
theorem grows_of_eq (hclasses : n'.commandClasses = n.commandClasses)
    (hcreated : n'.created = n.created) : n.Grows n' where
  kept := fun _ cc hcc => ⟨cc, (congrFun hclasses _).trans hcc, rfl⟩
  created := by
    refine ⟨[], by rw [hcreated, List.append_nil], List.nodup_nil, fun id => ?_⟩
    simp [hclasses]

/-! ## Lists of classes -/

/-- What a list makes of a class that it has. -/
def entered (ctx : InfoContext) (inNIF afterMark : Bool) (id : UInt8) :
    Option ListedClass → Option ListedClass
  | some cc => some (if inNIF then cc.setInNIF else cc)
  | none =>
      if ctx.registry.creators id then
        let cc := if inNIF then ListedClass.new.setInNIF else .new
        let cc := if afterMark then cc.setAfterMark else cc
        some (cc.setInstance 1)
      else none

theorem grows_addCommandClass (ctx : InfoContext) (n : InfoNode) (id : UInt8) :
    n.Grows (n.addCommandClass ctx id).1 := by
  rw [addCommandClass]
  cases hclass : n.commandClasses id with
  | some cc => exact .refl n
  | none =>
      dsimp only
      split
      · constructor
        · intro id' cc hcc
          have hne : id' ≠ id := by
            rintro rfl
            rw [hclass] at hcc
            cases hcc
          exact ⟨cc, (Function.update_of_ne hne _ _).trans hcc, rfl⟩
        · refine ⟨[id], rfl, List.nodup_singleton id, fun id' => ?_⟩
          rw [List.mem_singleton]
          constructor
          · rintro rfl
            exact ⟨hclass, by simp⟩
          · rintro ⟨hnone, hsome⟩
            by_contra hne
            exact hsome ((Function.update_of_ne hne _ _).trans hnone)
      · exact .refl n

theorem commandClasses_withClass_self (n : InfoNode) (id : UInt8)
    (change : ListedClass → ListedClass) :
    (n.withClass id change).commandClasses id = (n.commandClasses id).map change :=
  Function.update_self _ _ _

theorem commandClasses_withClass_of_ne {id id' : UInt8} (h : id' ≠ id) (n : InfoNode)
    (change : ListedClass → ListedClass) :
    (n.withClass id change).commandClasses id' = n.commandClasses id' :=
  Function.update_of_ne h _ _

/-- A new class may be changed in any way, one that was there only in its mark. -/
theorem Grows.withClass (h : n.Grows n') (id : UInt8) {change : ListedClass → ListedClass}
    (hchange : n.commandClasses id ≠ none →
      ∀ cc, (change cc).toMultiClass = cc.toMultiClass) : n.Grows (n'.withClass id change) where
  kept := by
    intro id' cc hcc
    obtain ⟨cc', hcc', hsame⟩ := h.kept id' cc hcc
    by_cases hid : id' = id
    · subst hid
      refine ⟨change cc', ?_, ?_⟩
      · rw [commandClasses_withClass_self, hcc', Option.map_some]
      · rw [hchange (by rw [hcc]; exact Option.some_ne_none _), hsame]
    · exact ⟨cc', (commandClasses_withClass_of_ne hid n' change).trans hcc', hsame⟩
  created := by
    obtain ⟨ids, hids, hnodup, hmem⟩ := h.created
    refine ⟨ids, hids, hnodup, fun id' => (hmem id').trans ?_⟩
    by_cases hid : id' = id
    · subst hid
      rw [commandClasses_withClass_self, ne_eq, ne_eq, Option.map_eq_none_iff]
    · rw [commandClasses_withClass_of_ne hid]

theorem commandClasses_enterClass (inNIF afterMark : Bool) (n : InfoNode) (id : UInt8) :
    (n.enterClass ctx inNIF afterMark id).commandClasses =
      if usable ctx id then
        Function.update n.commandClasses id (entered ctx inNIF afterMark id (n.commandClasses id))
      else n.commandClasses := by
  rw [enterClass]
  split
  · rw [addCommandClass]
    cases hclass : n.commandClasses id with
    | some cc =>
        cases inNIF with
        | false => simp [entered, ← hclass]
        | true => simp [entered, withClass, hclass]
    | none =>
        by_cases hcreator : ctx.registry.creators id = true
        · simp [entered, hcreator, withClass]
        · cases inNIF with
          | false => simp [entered, hcreator, ← hclass]
          | true => simp [entered, hcreator, withClass, hclass]
  · rfl

theorem grows_enterClass (inNIF afterMark : Bool) (n : InfoNode) (id : UInt8) :
    n.Grows (n.enterClass ctx inNIF afterMark id) := by
  have hadd := grows_addCommandClass ctx n id
  rw [enterClass]
  split
  · split
    · rename_i n' heq
      rw [heq] at hadd
      refine hadd.withClass id fun hsome => ?_
      obtain ⟨cc, hcc⟩ := Option.ne_none_iff_exists'.mp hsome
      rw [addCommandClass, hcc] at heq
      cases heq
    · rename_i n' heq
      rw [heq] at hadd
      split
      · exact hadd.withClass id fun _ _ => rfl
      · exact hadd
  · exact .refl n

theorem grows_enterAll (inNIF afterMark : Bool) (n : InfoNode) (ids : List UInt8) :
    n.Grows (n.enterAll ctx inNIF afterMark ids) := by
  induction ids generalizing n afterMark with
  | nil => exact .refl n
  | cons id ids ih =>
      rw [enterAll]
      split
      · exact ih true n
      · exact (grows_enterClass inNIF afterMark n id).trans (ih afterMark _)

/-- A class that is listed again does not change any more. -/
theorem entered_entered (inNIF afterMark afterMark' : Bool) (id : UInt8)
    (cc : Option ListedClass) :
    entered ctx inNIF afterMark' id (entered ctx inNIF afterMark id cc) =
      entered ctx inNIF afterMark id cc := by
  cases cc with
  | some cc => cases inNIF <;> rfl
  | none =>
      by_cases hcreator : ctx.registry.creators id = true
      · cases inNIF <;> cases afterMark <;> simp only [entered, hcreator, if_true] <;> rfl
      · simp [entered, hcreator]

/-- A class is marked as controlled when it is listed after the mark only. -/
theorem commandClasses_enterAll (inNIF afterMark : Bool) (n : InfoNode) (ids : List UInt8)
    (id : UInt8) :
    (n.enterAll ctx inNIF afterMark ids).commandClasses id =
      if id ∈ ids ∧ id ≠ mark ∧ usable ctx id = true then
        entered ctx inNIF (afterMark || decide (id ∉ ids.takeWhile (· ≠ mark))) id
          (n.commandClasses id)
      else n.commandClasses id := by
  induction ids generalizing n afterMark with
  | nil => simp [enterAll]
  | cons a ids ih =>
      rw [enterAll]
      by_cases hmark : a = mark
      · subst hmark
        rw [if_pos rfl, ih]
        by_cases hid : id = mark
        · simp [hid]
        · simp [hid]
      · rw [if_neg hmark, ih, commandClasses_enterClass]
        by_cases hid : id = a
        · subst hid
          by_cases husable : usable ctx id = true
          · simp only [husable, if_true, Function.update_self, List.mem_cons_self, entered_entered]
            simp [hmark]
          · simp [husable]
        · have hclass : (if usable ctx a = true then Function.update n.commandClasses a
              (entered ctx inNIF afterMark a (n.commandClasses a)) else n.commandClasses) id =
              n.commandClasses id := by
            split
            · exact Function.update_of_ne hid _ _
            · rfl
          rw [hclass]
          simp [hid, hmark]

theorem entered_ne_none_iff (inNIF afterMark : Bool) (id : UInt8) (cc : Option ListedClass) :
    entered ctx inNIF afterMark id cc ≠ none ↔ cc ≠ none ∨ ctx.registry.creators id = true := by
  cases cc with
  | some cc => simp [entered]
  | none => simp [entered]

theorem enterAll_ne_none_iff (inNIF afterMark : Bool) (n : InfoNode) (ids : List UInt8)
    (id : UInt8) :
    (n.enterAll ctx inNIF afterMark ids).commandClasses id ≠ none ↔
      n.commandClasses id ≠ none ∨ id ∈ ids ∧ id ≠ mark ∧ provides ctx id = true := by
  rw [commandClasses_enterAll, provides, Bool.and_eq_true]
  by_cases hlisted : id ∈ ids ∧ id ≠ mark ∧ usable ctx id = true
  · rw [if_pos hlisted, entered_ne_none_iff]
    simp [hlisted]
  · rw [if_neg hlisted]
    refine (or_iff_left ?_).symm
    rintro ⟨hmem, hne, husable, -⟩
    exact hlisted ⟨hmem, hne, husable⟩

/-- The loop of `UpdateNodeInfo` stays within the declared bytes exactly if the list does. -/
theorem readClasses_eq_ok_iff (bytes : List UInt8) (count pos : ℕ) (afterMark : Bool) :
    n.readClasses ctx bytes count pos afterMark = .ok n' ↔
      (count = 0 ∨ pos + count ≤ bytes.length) ∧
        n.enterAll ctx true afterMark ((bytes.drop pos).take count) = n' := by
  induction count generalizing n pos afterMark with
  | zero => simp [readClasses, enterAll]
  | succ count ih =>
      rw [readClasses, readAt_bind_eq_ok 0]
      by_cases hpos : pos < bytes.length
      · have hget : bytes.getD pos 0 = bytes[pos] := by simp [hpos]
        have hdrop : (bytes.drop pos).take (count + 1) =
            bytes[pos] :: (bytes.drop (pos + 1)).take count := by
          rw [List.drop_eq_getElem_cons hpos, List.take_succ_cons]
        have hrest : (count = 0 ∨ pos + 1 + count ≤ bytes.length) ↔
            (count + 1 = 0 ∨ pos + (count + 1) ≤ bytes.length) := by omega
        rw [hdrop, enterAll, hget, ← hrest]
        split
        · rw [ih]
          exact and_iff_right hpos
        · rw [ih]
          exact and_iff_right hpos
      · refine iff_of_false (fun h => hpos h.1) ?_
        rintro ⟨hlength, -⟩
        omega

/-! ## `UpdateNodeInfo` -/

/-- The node at the end of the frame. -/
def finished (n : InfoNode) : InfoNode :=
  { n.setStaticRequests with nodeInfoReceived := true }.wake

@[simp] theorem commandClasses_setStaticRequests (n : InfoNode) :
    n.setStaticRequests.commandClasses = n.commandClasses := by
  rw [setStaticRequests]
  split <;> rfl

@[simp] theorem created_setStaticRequests (n : InfoNode) :
    n.setStaticRequests.created = n.created := by
  rw [setStaticRequests]
  split <;> rfl

@[simp] theorem commandClasses_wake (n : InfoNode) : n.wake.commandClasses = n.commandClasses := by
  rw [wake]
  split <;> rfl

@[simp] theorem created_wake (n : InfoNode) : n.wake.created = n.created := by
  rw [wake]
  split <;> rfl

@[simp] theorem commandClasses_finished (n : InfoNode) :
    n.finished.commandClasses = n.commandClasses :=
  (commandClasses_wake _).trans (commandClasses_setStaticRequests n)

@[simp] theorem created_finished (n : InfoNode) : n.finished.created = n.created :=
  (created_wake _).trans (created_setStaticRequests n)

theorem toNat_length (frame : DeclaredBytes) : frame.length.toNat = frame.bytes.length := by
  rw [DeclaredBytes.length, UInt8.toNat_ofNat']
  exact Nat.mod_eq_of_lt frame.fits

/-- The length of the list wraps around when the declared bytes do not cover the device
classes. -/
theorem toNat_length_sub (frame : DeclaredBytes) :
    (frame.length - 3).toNat =
      if 3 ≤ frame.bytes.length then frame.bytes.length - 3 else frame.bytes.length + 253 := by
  have hlength := toNat_length frame
  have hfits := frame.fits
  rw [UInt8.toNat_sub, hlength]
  split
  · have h3 : (3 : UInt8).toNat = 3 := rfl
    omega
  · have h3 : (3 : UInt8).toNat = 3 := rfl
    omega

/-- The first frame is read within the declared bytes exactly if they cover the device classes. -/
theorem updateNodeInfo_eq_ok_iff (hfirst : n.nodeInfoReceived = false) (frame : DeclaredBytes) :
    n.updateNodeInfo ctx frame.bytes 3 (frame.length - 3) = .ok n' ↔
      3 ≤ frame.bytes.length ∧
        (n.enterAll ctx true false (frame.bytes.drop 3)).finished = n' := by
  rw [updateNodeInfo, hfirst, if_neg Bool.false_ne_true, bind_eq_ok]
  simp only [readClasses_eq_ok_iff, toNat_length_sub]
  by_cases hlength : 3 ≤ frame.bytes.length
  · have htake : (frame.bytes.drop 3).take (frame.bytes.length - 3) = frame.bytes.drop 3 :=
      List.take_of_length_le (by simp)
    simp only [if_pos hlength, htake]
    constructor
    · rintro ⟨n₁, ⟨-, rfl⟩, hok⟩
      exact ⟨hlength, ok_eq_ok.mp hok⟩
    · rintro ⟨-, rfl⟩
      exact ⟨_, ⟨.inr (by omega), rfl⟩, rfl⟩
  · simp only [if_neg hlength]
    refine iff_of_false ?_ fun h => hlength h.1
    rintro ⟨n₁, ⟨hbytes, -⟩, -⟩
    omega

/-! ## The first frame -/

theorem afterMark_setInstance (cc : ListedClass) (inst : UInt8) :
    (cc.setInstance inst).afterMark = cc.afterMark := by
  change (cc.toMultiClass.setInstance inst).afterMark = cc.afterMark
  rw [MultiClass.setInstance]
  split <;> rfl

theorem inNIF_entered {afterMark : Bool} {id : UInt8} {old : Option ListedClass}
    {cc : ListedClass} (h : entered ctx true afterMark id old = some cc) : cc.inNIF = true := by
  cases old with
  | some old =>
      cases h
      rfl
  | none =>
      by_cases hcreator : ctx.registry.creators id = true
      · rw [entered, if_pos hcreator] at h
        cases h
        cases afterMark <;> rfl
      · rw [entered, if_neg hcreator] at h
        cases h

theorem afterMark_entered_none {afterMark : Bool} {id : UInt8} {cc : ListedClass}
    (h : entered ctx true afterMark id none = some cc) : cc.afterMark = afterMark := by
  by_cases hcreator : ctx.registry.creators id = true
  · rw [entered, if_pos hcreator] at h
    cases h
    rw [afterMark_setInstance]
    cases afterMark <;> rfl
  · rw [entered, if_neg hcreator] at h
    cases h

theorem mem_of_mem_takeWhile {ids : List UInt8} {id : UInt8}
    (h : id ∈ ids.takeWhile (· ≠ mark)) : id ∈ ids ∧ id ≠ mark :=
  ⟨(List.takeWhile_prefix _).subset h, by simpa using List.mem_takeWhile_imp h⟩

/-- The list of the first frame is entered into a node that has the previous and mandatory
classes, and perhaps some of those listed before the mark already. -/
theorem updated_enterAll {frame : InfoFrame} {m : InfoNode} {early : UInt8 → Prop}
    (hgrows : n.Grows m)
    (hbase : ∀ id, m.commandClasses id ≠ none ↔ Base ctx n id frame ∨ early id)
    (hearly : ∀ id, early id →
      id ∈ frame.listed.takeWhile (· ≠ mark) ∧ provides ctx id = true)
    (hunmarked : ∀ id cc, ¬ Base ctx n id frame → m.commandClasses id = some cc →
      cc.afterMark = false) :
    Updated ctx n frame (m.enterAll ctx true false frame.listed) where
  grows := hgrows.trans (grows_enterAll true false m frame.listed)
  classes := by
    intro _ id
    rw [enterAll_ne_none_iff, hbase, or_assoc]
    refine or_congr_right (or_iff_right_of_imp fun hid => ?_)
    obtain ⟨hbefore, hprovides⟩ := hearly id hid
    obtain ⟨hlisted, hmark⟩ := mem_of_mem_takeWhile hbefore
    exact ⟨hlisted, hmark, hprovides⟩
  afterMark := by
    intro _ id cc hnew hcc
    rw [commandClasses_enterAll] at hcc
    have hbefore : m.commandClasses id ≠ none → id ∈ frame.listed.takeWhile (· ≠ mark) ∧
        provides ctx id = true := fun hsome =>
      hearly id (((hbase id).mp hsome).resolve_left hnew)
    split at hcc
    · cases hold : m.commandClasses id with
      | none =>
          rw [hold] at hcc
          rw [afterMark_entered_none hcc, Bool.false_or, decide_eq_true_iff]
      | some old =>
          rw [hold] at hcc
          cases hcc
          have hmark := (hbefore (by rw [hold]; exact Option.some_ne_none _)).1
          refine iff_of_false ?_ fun hnot => hnot hmark
          change ¬ old.afterMark = true
          rw [hunmarked id old hnew hold]
          exact Bool.false_ne_true
    · rename_i hunlisted
      obtain ⟨hmark, hprovides⟩ := hbefore (by rw [hcc]; exact Option.some_ne_none _)
      obtain ⟨hlisted, hne⟩ := mem_of_mem_takeWhile hmark
      exact absurd ⟨hlisted, hne, (Bool.and_eq_true_iff.mp hprovides).1⟩ hunlisted
  inNIF := by
    intro _ id cc hlisted hmark husable hcc
    rw [commandClasses_enterAll, if_pos ⟨hlisted, hmark, husable⟩] at hcc
    exact inNIF_entered hcc

/-- What else changes of the node does not matter. -/
theorem Updated.congr {frame : InfoFrame} (h : Updated ctx n frame n')
    (hclasses : n''.commandClasses = n'.commandClasses) (hcreated : n''.created = n'.created) :
    Updated ctx n frame n'' where
  grows := h.grows.trans (grows_of_eq hclasses hcreated)
  classes := by
    rw [hclasses]
    exact h.classes
  afterMark := by
    rw [hclasses]
    exact h.afterMark
  inNIF := by
    rw [hclasses]
    exact h.inNIF

/-- A frame that is not the first only must not take classes away. -/
theorem Grows.updated {frame : InfoFrame} (h : n.Grows n') (hfirst : ¬ n.First frame) :
    Updated ctx n frame n' where
  grows := h
  classes := fun h => absurd h hfirst
  afterMark := fun h => absurd h hfirst
  inNIF := fun h => absurd h hfirst

theorem updated_nodeInfo_iff (frame : DeclaredBytes) :
    (∃ n', n.receive ctx (.nodeInfo frame) = .ok n' ∧ Updated ctx n (.nodeInfo frame) n') ↔
      Fits ctx n (.nodeInfo frame) := by
  cases hreceived : n.nodeInfoReceived with
  | true =>
      refine iff_of_true ⟨_, if_pos hreceived, Grows.updated (grows_of_eq ?_ ?_) ?_⟩ ?_
      · rw [commandClasses_wake]
        split <;> rfl
      · rw [created_wake]
        split <;> rfl
      · intro hfirst
        rw [First, hreceived] at hfirst
        cases hfirst
      · intro hfirst
        rw [hreceived] at hfirst
        cases hfirst
  | false =>
      have hfits : Fits ctx n (.nodeInfo frame) ↔ 3 ≤ frame.bytes.length :=
        forall_prop_of_true hreceived
      rw [hfits]
      simp only [receive, updateNodeInfo_eq_ok_iff hreceived]
      constructor
      · rintro ⟨n', ⟨hlength, -⟩, -⟩
        exact hlength
      · intro hlength
        have hupdated : Updated ctx n (.nodeInfo frame)
            (n.enterAll ctx true false (frame.bytes.drop 3)) :=
          @updated_enterAll ctx n (.nodeInfo frame) n (fun _ => False) (.refl n)
            (fun _ => (or_false _).symm.to_iff) (fun _ => False.elim)
            (fun id cc hnew hcc => absurd (ne_of_eq_of_ne hcc (Option.some_ne_none cc)) hnew)
        exact ⟨_, ⟨hlength, rfl⟩, hupdated.congr (commandClasses_finished _) (created_finished _)⟩

/-! ## The device classes -/

/-- What the functions that add classes do not change. -/
structure SameState (n n' : InfoNode) : Prop where
  listening : n'.listening = n.listening
  frequentListening : n'.frequentListening = n.frequentListening
  secured : n'.secured = n.secured
  nodeInfoReceived : n'.nodeInfoReceived = n.nodeInfoReceived

theorem SameState.refl (n : InfoNode) : n.SameState n := ⟨rfl, rfl, rfl, rfl⟩

theorem SameState.trans (h : n.SameState n') (h' : n'.SameState n'') : n.SameState n'' where
  listening := h'.listening.trans h.listening
  frequentListening := h'.frequentListening.trans h.frequentListening
  secured := h'.secured.trans h.secured
  nodeInfoReceived := h'.nodeInfoReceived.trans h.nodeInfoReceived

theorem sameState_addCommandClass (ctx : InfoContext) (n : InfoNode) (id : UInt8) :
    n.SameState (n.addCommandClass ctx id).1 := by
  rw [addCommandClass]
  split
  · exact .refl n
  · split <;> exact ⟨rfl, rfl, rfl, rfl⟩

theorem sameState_enterClass (inNIF afterMark : Bool) (n : InfoNode) (id : UInt8) :
    n.SameState (n.enterClass ctx inNIF afterMark id) := by
  have hadd := sameState_addCommandClass ctx n id
  rw [enterClass]
  split
  · split
    · rename_i n' heq
      rw [heq] at hadd
      exact hadd.trans ⟨rfl, rfl, rfl, rfl⟩
    · rename_i n' heq
      rw [heq] at hadd
      split
      · exact hadd.trans ⟨rfl, rfl, rfl, rfl⟩
      · exact hadd
  · exact .refl n

theorem sameState_enterAll (inNIF afterMark : Bool) (n : InfoNode) (ids : List UInt8) :
    n.SameState (n.enterAll ctx inNIF afterMark ids) := by
  induction ids generalizing n afterMark with
  | nil => exact .refl n
  | cons id ids ih =>
      rw [enterAll]
      split
      · exact ih true n
      · exact (sameState_enterClass inNIF afterMark n id).trans (ih afterMark _)

theorem addMandatoryCommandClasses_ne_none_iff (n : InfoNode) (entry : DeviceClassEntry)
    (id : UInt8) :
    (n.addMandatoryCommandClasses ctx entry.mandatoryCommandClasses).commandClasses id ≠ none ↔
      n.commandClasses id ≠ none ∨ mandatoryIn entry id ∧ provides ctx id = true := by
  rw [addMandatoryCommandClasses, enterAll_ne_none_iff, mandatoryIn, and_assoc]

theorem addDeviceClasses_ne_none_iff (n : InfoNode) (generic specific id : UInt8) :
    (n.addDeviceClasses ctx generic specific).1.commandClasses id ≠ none ↔
      n.commandClasses id ≠ none ∨ provides ctx id = true ∧ ∃ genericDeviceClass,
        ctx.genericDeviceClasses generic = some genericDeviceClass ∧
          (mandatoryIn genericDeviceClass.toDeviceClassEntry id ∨
            ∃ specificDeviceClass,
              genericDeviceClass.specificDeviceClasses specific = some specificDeviceClass ∧
                mandatoryIn specificDeviceClass id) := by
  rw [addDeviceClasses]
  cases ctx.genericDeviceClasses generic with
  | none => simp
  | some genericDeviceClass =>
      simp only [Option.some.injEq, exists_eq_left']
      cases genericDeviceClass.specificDeviceClasses specific with
      | none =>
          simp only [addMandatoryCommandClasses_ne_none_iff, reduceCtorEq, false_and, exists_false,
            or_false, and_comm]
      | some specificDeviceClass =>
          simp only [addMandatoryCommandClasses_ne_none_iff, Option.some.injEq, exists_eq_left']
          tauto

theorem addDeviceClasses_spec (n : InfoNode) (generic specific : UInt8) :
    n.Grows (n.addDeviceClasses ctx generic specific).1 ∧
      n.SameState (n.addDeviceClasses ctx generic specific).1 := by
  rw [addDeviceClasses]
  split
  · exact ⟨.refl n, .refl n⟩
  · rename_i genericDeviceClass hgeneric
    have hgrows := @grows_enterAll ctx false false n
      (genericDeviceClass.mandatoryCommandClasses.takeWhile (· ≠ 0))
    have hsame := @sameState_enterAll ctx false false n
      (genericDeviceClass.mandatoryCommandClasses.takeWhile (· ≠ 0))
    dsimp only
    split
    · exact ⟨hgrows, hsame⟩
    · exact ⟨hgrows.trans (grows_enterAll _ _ _ _), hsame.trans (sameState_enterAll _ _ _ _)⟩

theorem addWakeUp_ne_none_iff (n : InfoNode) (id : UInt8) :
    (n.addWakeUp ctx).commandClasses id ≠ none ↔ n.commandClasses id ≠ none ∨
      id = wakeUpId ∧ n.listening = false ∧ n.frequentListening = false ∧
        ctx.registry.creators wakeUpId = true := by
  rw [addWakeUp]
  split
  · rename_i hsleeps
    rw [addCommandClass]
    cases hclass : n.commandClasses wakeUpId with
    | some cc =>
        refine (or_iff_left_of_imp ?_).symm
        rintro ⟨rfl, -⟩
        rw [hclass]
        exact Option.some_ne_none cc
    | none =>
        by_cases hcreator : ctx.registry.creators wakeUpId = true
        · simp only [if_pos hcreator]
          by_cases hid : id = wakeUpId
          · subst hid
            simp [withClass, hsleeps, hcreator]
          · simp [withClass, hid]
        · simp [hcreator]
  · rename_i hsleeps
    refine (or_iff_left ?_).symm
    rintro ⟨-, hlistening, hfrequent, -⟩
    exact hsleeps ⟨hlistening, hfrequent⟩

theorem addWakeUp_spec (n : InfoNode) :
    n.Grows (n.addWakeUp ctx) ∧ n.SameState (n.addWakeUp ctx) := by
  have hgrows := grows_addCommandClass ctx n wakeUpId
  have hsame := sameState_addCommandClass ctx n wakeUpId
  rw [addWakeUp]
  split
  · split
    · rename_i n' heq
      rw [heq] at hgrows hsame
      refine ⟨hgrows.withClass wakeUpId fun hsome => ?_, hsame.trans ⟨rfl, rfl, rfl, rfl⟩⟩
      obtain ⟨cc, hcc⟩ := Option.ne_none_iff_exists'.mp hsome
      rw [addCommandClass, hcc] at heq
      cases heq
    · rename_i n' heq
      rw [heq] at hgrows hsame
      exact ⟨hgrows, hsame⟩
  · exact ⟨.refl n, .refl n⟩

/-- The device classes give the node its mandatory classes. -/
theorem setDeviceClasses_spec (n : InfoNode) (basic generic specific : UInt8) :
    n.Grows (n.setDeviceClasses ctx basic generic specific) ∧
      n.SameState (n.setDeviceClasses ctx basic generic specific) ∧
      ∀ id, (n.setDeviceClasses ctx basic generic specific).commandClasses id ≠ none ↔
        n.commandClasses id ≠ none ∨ Mandatory ctx n generic specific id := by
  let start : InfoNode := { n with basic := basic, generic := generic, specific := specific }
  let listed := (start.addDeviceClasses ctx generic specific).1
  obtain ⟨hgrows, hsame⟩ := @addDeviceClasses_spec ctx start generic specific
  obtain ⟨hgrows', hsame'⟩ := @addWakeUp_spec ctx listed
  have hend : ∀ m, m = n.setDeviceClasses ctx basic generic specific →
      (listed.addWakeUp ctx).Grows m ∧ (listed.addWakeUp ctx).SameState m ∧
        m.commandClasses = (listed.addWakeUp ctx).commandClasses := by
    rintro m rfl
    rw [setDeviceClasses]
    dsimp only
    split
    · exact ⟨grows_of_eq rfl rfl, ⟨rfl, rfl, rfl, rfl⟩, rfl⟩
    · exact ⟨.refl _, .refl _, rfl⟩
  obtain ⟨hgrows'', hsame'', hclasses⟩ := hend _ rfl
  have hstart : n.Grows start := grows_of_eq rfl rfl
  have hstart' : n.SameState start := ⟨rfl, rfl, rfl, rfl⟩
  refine ⟨hstart.trans (hgrows.trans (hgrows'.trans hgrows'')),
    hstart'.trans (hsame.trans (hsame'.trans hsame'')), fun id => ?_⟩
  · rw [hclasses, addWakeUp_ne_none_iff, addDeviceClasses_ne_none_iff, hsame.listening,
      hsame.frequentListening, or_assoc]
    rfl

/-! ## The Security class of a secured node -/

/-- The loop does nothing to a node that is not listed with the Security class, or without a
network key to one that has it. -/
theorem exchangeListed_eq {ids : List UInt8}
    (h : securityId ∉ ids ∨ ctx.networkKeySet = false ∧ n.commandClasses securityId ≠ none) :
    n.exchangeListed ctx ids = .ok n := by
  induction ids with
  | nil => rfl
  | cons id ids ih =>
      rw [exchangeListed]
      split
      · rename_i hid
        subst hid
        obtain ⟨hkey, hsome⟩ := h.resolve_left fun hnot => hnot List.mem_cons_self
        obtain ⟨cc, hcc⟩ := Option.ne_none_iff_exists'.mp hsome
        simp only [addCommandClass, hcc, hkey]
        exact ih (.inr ⟨hkey, hsome⟩)
      · exact ih (h.imp_left fun hnot hmem => hnot (List.mem_cons_of_mem _ hmem))

/-- With a network key, a second entry of the Security class uses the class that was not added. -/
theorem exchangeListed_of_mem {ids : List UInt8} (hkey : ctx.networkKeySet = true)
    (hsome : n.commandClasses securityId ≠ none) (hmem : securityId ∈ ids) :
    n.exchangeListed ctx ids = .error .null := by
  induction ids with
  | nil => cases hmem
  | cons id ids ih =>
      rw [exchangeListed]
      split
      · rename_i hid
        subst hid
        obtain ⟨cc, hcc⟩ := Option.ne_none_iff_exists'.mp hsome
        have hfound : n.addCommandClass ctx securityId = (n, false) := by
          rw [addCommandClass, hcc]
        rw [hfound]
        exact if_neg Bool.false_ne_true
      · rename_i hid
        exact ih ((List.mem_cons.mp hmem).resolve_left fun heq => hid heq.symm)

theorem addCommandClass_security (hnone : n.commandClasses securityId = none) :
    n.addCommandClass ctx securityId =
      ({ n with
          commandClasses := Function.update n.commandClasses securityId (some .new)
          created := n.created ++ [securityId] }, true) := by
  rw [addCommandClass, hnone]
  exact if_pos ctx.registry.security

/-- The first entry of the Security class. -/
def exchanged (ctx : InfoContext) (n : InfoNode) : InfoNode :=
  if ctx.networkKeySet then (n.addCommandClass ctx securityId).1.emit .exchangeNetworkKeys
  else (n.addCommandClass ctx securityId).1

theorem grows_exchanged (ctx : InfoContext) (n : InfoNode) : n.Grows (exchanged ctx n) := by
  have hadd := grows_addCommandClass ctx n securityId
  rw [exchanged]
  split
  · exact hadd.trans (grows_of_eq rfl rfl)
  · exact hadd

theorem sameState_exchanged (ctx : InfoContext) (n : InfoNode) :
    n.SameState (exchanged ctx n) := by
  have hadd := sameState_addCommandClass ctx n securityId
  rw [exchanged]
  split
  · exact hadd.trans ⟨rfl, rfl, rfl, rfl⟩
  · exact hadd

theorem commandClasses_exchanged (hnone : n.commandClasses securityId = none) :
    (exchanged ctx n).commandClasses =
      Function.update n.commandClasses securityId (some .new) := by
  rw [exchanged, addCommandClass_security hnone]
  split <;> rfl

/-- What the loop does at the first entry. -/
theorem exchangeListed_rest (hnone : n.commandClasses securityId = none) (ids : List UInt8) :
    (match n.addCommandClass ctx securityId with
      | (n, added) =>
          if ctx.networkKeySet then
            if added then (n.emit .exchangeNetworkKeys).exchangeListed ctx ids else .error .null
          else n.exchangeListed ctx ids) = (exchanged ctx n).exchangeListed ctx ids := by
  rw [exchanged, addCommandClass_security hnone]
  cases ctx.networkKeySet with
  | true => rfl
  | false => rfl

/-- The loop adds the Security class when it is listed once; a second entry is an error when
there is a network key. -/
theorem exchangeListed_of_none {ids : List UInt8} (hnone : n.commandClasses securityId = none)
    (hmem : securityId ∈ ids) :
    n.exchangeListed ctx ids =
      if ctx.networkKeySet = true ∧ 1 < ids.count securityId then .error .null
      else .ok (exchanged ctx n) := by
  induction ids with
  | nil => cases hmem
  | cons id ids ih =>
      rw [exchangeListed]
      by_cases hid : id = securityId
      · subst hid
        have hclass : (exchanged ctx n).commandClasses securityId ≠ none := by
          rw [commandClasses_exchanged hnone, Function.update_self]
          exact Option.some_ne_none _
        have hcount : 1 < (securityId :: ids).count securityId ↔ securityId ∈ ids := by
          rw [List.count_cons_self, ← List.count_pos_iff]
          omega
        have hrest := @exchangeListed_rest ctx n hnone ids
        rw [if_pos rfl]
        by_cases htwice : ctx.networkKeySet = true ∧ securityId ∈ ids
        · rw [if_pos ⟨htwice.1, hcount.mpr htwice.2⟩, hrest]
          exact exchangeListed_of_mem htwice.1 hclass htwice.2
        · rw [if_neg fun h => htwice ⟨h.1, hcount.mp h.2⟩, hrest]
          refine exchangeListed_eq ?_
          by_cases hagain : securityId ∈ ids
          · exact .inr ⟨by simpa [hagain] using htwice, hclass⟩
          · exact .inl hagain
      · have hrest := (List.mem_cons.mp hmem).resolve_left fun heq => hid heq.symm
        rw [if_neg hid, ih hrest, List.count_cons_of_ne hid]

/-! ## `SetProtocolInfo` -/

/-- The node with its device classes. -/
def described (ctx : InfoContext) (n : InfoNode) (frame : DeclaredBytes) : InfoNode :=
  (n.emit .protocolInfo).setDeviceClasses ctx (frame.bytes.getD 0 0) (frame.bytes.getD 1 0)
    (frame.bytes.getD 2 0)

theorem grows_described (ctx : InfoContext) (n : InfoNode) (frame : DeclaredBytes) :
    n.Grows (n.described ctx frame) := by
  have hemit : n.Grows (n.emit .protocolInfo) := grows_of_eq rfl rfl
  exact hemit.trans (setDeviceClasses_spec _ _ _ _).1

theorem sameState_described (ctx : InfoContext) (n : InfoNode) (frame : DeclaredBytes) :
    n.SameState (n.described ctx frame) := by
  have hemit : n.SameState (n.emit .protocolInfo) := ⟨rfl, rfl, rfl, rfl⟩
  exact hemit.trans (setDeviceClasses_spec _ _ _ _).2.1

theorem described_ne_none_iff (ctx : InfoContext) (n : InfoNode) (frame : DeclaredBytes)
    (id : UInt8) :
    (n.described ctx frame.kept).commandClasses id ≠ none ↔ Base ctx n id (.addNode frame) :=
  (setDeviceClasses_spec _ _ _ _).2.2 id

/-- A frame of a node without this information is taken in exactly if the declared bytes cover
the device classes and neither of the two steps fails. -/
theorem setProtocolInfo_eq_ok_iff {frame : DeclaredBytes}
    (hnew : n.protocolInfoReceived = false ∧ n.basicprotocolInfoReceived = false)
    (hgeneric : frame.bytes[1]? ≠ some 0) :
    n.setProtocolInfo ctx frame = .ok n' ↔ 3 ≤ frame.bytes.length ∧ ∃ m,
      (n.described ctx frame).exchangeKeys ctx (frame.bytes.drop 3) = .ok m ∧ ∃ m',
        m.updateNodeInfo ctx frame.bytes 3 (frame.length - 3) = .ok m' ∧
          { m' with basicprotocolInfoReceived := true } = n' := by
  rw [setProtocolInfo, if_neg (by simp [hnew]), readAt_bind_eq_ok 0]
  by_cases hone : 1 < frame.bytes.length
  · have hne : frame.bytes.getD 1 0 ≠ 0 := by
      rw [List.getD_eq_getElem?_getD]
      rw [List.getElem?_eq_getElem hone] at hgeneric ⊢
      simpa using hgeneric
    rw [and_iff_right hone, if_neg hne, readAt_bind_eq_ok 0, readAt_bind_eq_ok 0, bind_eq_ok]
    constructor
    · rintro ⟨-, hlength, m, hkeys, hrest⟩
      obtain ⟨m', hinfo, hok⟩ := bind_eq_ok.mp hrest
      exact ⟨hlength, m, hkeys, m', hinfo, ok_eq_ok.mp hok⟩
    · rintro ⟨hlength, m, hkeys, m', hinfo, hok⟩
      exact ⟨by omega, hlength, m, hkeys, bind_eq_ok.mpr ⟨m', hinfo, ok_eq_ok.mpr hok⟩⟩
  · refine iff_of_false (fun h => hone h.1) ?_
    rintro ⟨hlength, -⟩
    omega

/-- The list of a frame is taken in as expected from a node that has the previous and mandatory
classes, and perhaps some of those listed before the mark already. -/
theorem exists_updated {frame : DeclaredBytes} {m : InfoNode} {early : UInt8 → Prop}
    (hlength : 3 ≤ frame.kept.bytes.length) (hgrows : n.Grows m)
    (hreceived : m.nodeInfoReceived = n.nodeInfoReceived)
    (hbase : ∀ id, m.commandClasses id ≠ none ↔ Base ctx n id (.addNode frame) ∨ early id)
    (hearly : n.nodeInfoReceived = false → ∀ id, early id →
      id ∈ (frame.kept.bytes.drop 3).takeWhile (· ≠ mark) ∧ provides ctx id = true)
    (hunmarked : ∀ id cc, ¬ Base ctx n id (.addNode frame) →
      m.commandClasses id = some cc → cc.afterMark = false) :
    ∃ m', m.updateNodeInfo ctx frame.kept.bytes 3 (frame.kept.length - 3) = .ok m' ∧
      Updated ctx n (.addNode frame) m' := by
  cases hnode : n.nodeInfoReceived with
  | true =>
      rw [hnode] at hreceived
      refine ⟨_, if_pos hreceived, Grows.updated (hgrows.trans (grows_of_eq ?_ ?_)) ?_⟩
      · rw [commandClasses_wake]
        split <;> rfl
      · rw [created_wake]
        split <;> rfl
      · rintro ⟨hfirst, -⟩
        rw [hnode] at hfirst
        cases hfirst
  | false =>
      rw [hnode] at hreceived
      have hupdated := @updated_enterAll ctx n (.addNode frame) m early hgrows hbase
        (hearly hnode) hunmarked
      exact ⟨_, (updateNodeInfo_eq_ok_iff hreceived frame.kept).mpr ⟨hlength, rfl⟩,
        hupdated.congr (commandClasses_finished _) (created_finished _)⟩

/-- The Security class that is added ahead of the others is expected exactly if it is supported
and stands before the mark. -/
theorem updated_exchanged_iff {frame : DeclaredBytes} (hlength : 3 ≤ frame.kept.bytes.length)
    (hfirst : n.nodeInfoReceived = false → n.First (.addNode frame))
    (hnone : ¬ Base ctx n securityId (.addNode frame))
    (hlisted : securityId ∈ frame.kept.bytes.drop 3) :
    (∃ m', (exchanged ctx (n.described ctx frame.kept)).updateNodeInfo ctx frame.kept.bytes 3
        (frame.kept.length - 3) = .ok m' ∧ Updated ctx n (.addNode frame) m') ↔
      (n.nodeInfoReceived = false → usable ctx securityId = true ∧
        securityId ∈ (frame.kept.bytes.drop 3).takeWhile (· ≠ mark)) := by
  have hsame := (sameState_described ctx n frame.kept).trans (sameState_exchanged ctx _)
  have hgrows := (grows_described ctx n frame.kept).trans (grows_exchanged ctx _)
  have hdescribed : (n.described ctx frame.kept).commandClasses securityId = none := by
    by_contra hsome
    exact hnone ((described_ne_none_iff ctx n frame securityId).mp hsome)
  have hclasses := @commandClasses_exchanged ctx (n.described ctx frame.kept) hdescribed
  constructor
  · rintro ⟨m', hok, hupdated⟩ hreceived
    obtain ⟨-, rfl⟩ :=
      (updateNodeInfo_eq_ok_iff (hsame.nodeInfoReceived.trans hreceived) frame.kept).mp hok
    have hsome : ((exchanged ctx (n.described ctx frame.kept)).enterAll ctx true false
        (frame.kept.bytes.drop 3)).finished.commandClasses securityId ≠ none := by
      rw [commandClasses_finished, enterAll_ne_none_iff, hclasses, Function.update_self]
      exact .inl (Option.some_ne_none _)
    obtain ⟨-, hne, hprovides⟩ :=
      ((hupdated.classes (hfirst hreceived) securityId).mp hsome).resolve_left hnone
    have husable : usable ctx securityId = true := (Bool.and_eq_true_iff.mp hprovides).1
    refine ⟨husable, ?_⟩
    -- the class that the loop adds is never marked
    have hnew : ((exchanged ctx (n.described ctx frame.kept)).enterAll ctx true false
        (frame.kept.bytes.drop 3)).finished.commandClasses securityId =
          some ListedClass.new.setInNIF := by
      rw [commandClasses_finished, commandClasses_enterAll, if_pos ⟨hlisted, hne, husable⟩,
        hclasses, Function.update_self]
      rfl
    have hmark := hupdated.afterMark (hfirst hreceived) securityId _ hnone hnew
    by_contra hafter
    exact absurd (hmark.mpr hafter) Bool.false_ne_true
  · intro hsecurity
    refine @exists_updated ctx n frame _ (· = securityId) hlength hgrows hsame.nodeInfoReceived
      ?_ ?_ ?_
    · intro id
      rw [hclasses, ← described_ne_none_iff]
      by_cases hid : id = securityId
      · subst hid
        simp
      · simp [hid]
    · rintro hreceived id rfl
      obtain ⟨husable, hmark⟩ := hsecurity hreceived
      exact ⟨hmark, Bool.and_eq_true_iff.mpr ⟨husable, ctx.registry.security⟩⟩
    · intro id cc hnew hcc
      rw [hclasses] at hcc
      by_cases hid : id = securityId
      · subst hid
        rw [Function.update_self] at hcc
        cases hcc
        rfl
      · rw [Function.update_of_ne hid] at hcc
        refine absurd ((described_ne_none_iff ctx n frame id).mp ?_) hnew
        rw [hcc]
        exact Option.some_ne_none cc

/-- The node with its device classes takes the list in as expected. -/
theorem exists_updated_described {frame : DeclaredBytes} {m : InfoNode}
    (hlength : 3 ≤ frame.kept.bytes.length) (hgrows : (n.described ctx frame.kept).Grows m)
    (hreceived : m.nodeInfoReceived = (n.described ctx frame.kept).nodeInfoReceived)
    (hclasses : m.commandClasses = (n.described ctx frame.kept).commandClasses) :
    ∃ m', m.updateNodeInfo ctx frame.kept.bytes 3 (frame.kept.length - 3) = .ok m' ∧
      Updated ctx n (.addNode frame) m' := by
  refine @exists_updated ctx n frame m (fun _ => False) hlength
    ((grows_described ctx n frame.kept).trans hgrows)
    (hreceived.trans (sameState_described ctx n frame.kept).nodeInfoReceived) ?_
    (fun _ _ => False.elim) ?_
  · intro id
    rw [hclasses, or_false]
    exact described_ne_none_iff ctx n frame id
  · intro id cc hnew hcc
    rw [hclasses] at hcc
    refine absurd ((described_ne_none_iff ctx n frame id).mp ?_) hnew
    rw [hcc]
    exact Option.some_ne_none cc

theorem usable_security (h : usable ctx securityId = true) : ctx.networkKeySet = true := by
  rw [usable, Bool.and_eq_true_iff] at h
  simpa using h.2

/-- A secured node without the Security class takes the list in as expected exactly if the class
is listed as the code expects. -/
theorem updated_exchangeListed_iff {frame : DeclaredBytes} (hlength : 3 ≤ frame.kept.bytes.length)
    (hfirst : n.nodeInfoReceived = false → n.First (.addNode frame))
    (hnone : ¬ Base ctx n securityId (.addNode frame)) :
    (∃ m, (n.described ctx frame.kept).exchangeListed ctx (frame.kept.bytes.drop 3) = .ok m ∧
        ∃ m', m.updateNodeInfo ctx frame.kept.bytes 3 (frame.kept.length - 3) = .ok m' ∧
          Updated ctx n (.addNode frame) m') ↔
      SecurityFits ctx n (frame.kept.bytes.drop 3) := by
  have hdescribed : (n.described ctx frame.kept).commandClasses securityId = none := by
    by_contra hsome
    exact hnone ((described_ne_none_iff ctx n frame securityId).mp hsome)
  rw [SecurityFits]
  by_cases hlisted : securityId ∈ frame.kept.bytes.drop 3
  · rw [exchangeListed_of_none hdescribed hlisted]
    have hpos : 0 < (frame.kept.bytes.drop 3).count securityId := List.count_pos_iff.mpr hlisted
    by_cases htwice : ctx.networkKeySet = true ∧ 1 < (frame.kept.bytes.drop 3).count securityId
    · rw [if_pos htwice]
      refine iff_of_false ?_ ?_
      · rintro ⟨m, herror, -⟩
        cases herror
      · split
        · intro honce
          have hcount := honce htwice.1
          omega
        · intro hsecurity
          have hcount := (hsecurity hlisted).2.2.1
          omega
    · rw [if_neg htwice]
      simp only [Except.ok.injEq, exists_eq_left', updated_exchanged_iff hlength hfirst hnone hlisted]
      cases hreceived : n.nodeInfoReceived with
      | true =>
          refine iff_of_true (fun hfalse => by cases hfalse) ?_
          rw [if_pos rfl]
          intro hkey
          by_contra hcount
          exact htwice ⟨hkey, by omega⟩
      | false =>
          rw [if_neg Bool.false_ne_true]
          constructor
          · intro hsecurity _
            obtain ⟨husable, hmark⟩ := hsecurity rfl
            have hkey := usable_security husable
            refine ⟨husable, hkey, ?_, hmark⟩
            by_contra hcount
            exact htwice ⟨hkey, by omega⟩
          · intro hsecurity _
            obtain ⟨husable, -, -, hmark⟩ := hsecurity hlisted
            exact ⟨husable, hmark⟩
  · rw [exchangeListed_eq (.inl hlisted)]
    refine iff_of_true ⟨_, rfl, exists_updated_described hlength (.refl _) rfl rfl⟩ ?_
    split
    · intro _
      rw [List.count_eq_zero_of_not_mem hlisted]
      exact Nat.zero_le 1
    · exact fun hmem => absurd hmem hlisted

/-- A secured node that has the Security class exchanges the key without a look at the list. -/
theorem exchangeKeys_eq_ok (hsettled : n.secured = true → n.commandClasses securityId ≠ none)
    (ids : List UInt8) :
    ∃ m, n.exchangeKeys ctx ids = .ok m ∧ n.Grows m ∧ m.nodeInfoReceived = n.nodeInfoReceived ∧
      m.commandClasses = n.commandClasses := by
  rw [exchangeKeys]
  split
  · rename_i hsecured
    obtain ⟨cc, hcc⟩ := Option.ne_none_iff_exists'.mp (hsettled hsecured)
    rw [hcc]
    dsimp only
    split
    · exact ⟨_, rfl, grows_of_eq rfl rfl, rfl, rfl⟩
    · exact ⟨_, rfl, .refl n, rfl, rfl⟩
  · exact ⟨_, rfl, .refl n, rfl, rfl⟩

theorem length_ne_zero {frame : DeclaredBytes} (h : frame.bytes ≠ []) : frame.length ≠ 0 := by
  intro hzero
  have hlength := toNat_length frame
  rw [hzero] at hlength
  exact h (List.length_eq_zero_iff.mp hlength.symm)

theorem exists_updated_initNode_iff {frame : DeclaredBytes}
    (hnew : n.protocolInfoReceived = false ∧ n.basicprotocolInfoReceived = false)
    (hbytes : frame.kept.bytes ≠ []) (hgeneric : frame.kept.bytes[1]? ≠ some 0) :
    (∃ n', n.receive ctx (.addNode frame) = .ok n' ∧ Updated ctx n (.addNode frame) n') ↔
      3 ≤ frame.kept.bytes.length ∧
        ∃ m, (n.described ctx frame.kept).exchangeKeys ctx (frame.kept.bytes.drop 3) = .ok m ∧
          ∃ m', m.updateNodeInfo ctx frame.kept.bytes 3 (frame.kept.length - 3) = .ok m' ∧
            Updated ctx n (.addNode frame) m' := by
  simp only [receive, initNode, if_neg (length_ne_zero hbytes),
    setProtocolInfo_eq_ok_iff hnew hgeneric]
  constructor
  · rintro ⟨n', ⟨hlength, m, hkeys, m', hok, rfl⟩, hupdated⟩
    exact ⟨hlength, m, hkeys, m', hok, hupdated.congr rfl rfl⟩
  · rintro ⟨hlength, m, hkeys, m', hok, hupdated⟩
    exact ⟨_, ⟨hlength, m, hkeys, m', hok, rfl⟩, hupdated.congr rfl rfl⟩

/-- The information that is not the first leaves the classes alone. -/
theorem receive_addNode_of_not_first {frame : DeclaredBytes}
    (h : ¬ (n.protocolInfoReceived = false ∧ n.basicprotocolInfoReceived = false ∧
      frame.kept.bytes ≠ [] ∧ frame.kept.bytes[1]? ≠ some 0)) :
    ∃ n', n.receive ctx (.addNode frame) = .ok n' ∧ n.Grows n' := by
  rw [receive, initNode]
  split
  · exact ⟨_, rfl, grows_of_eq rfl rfl⟩
  · rename_i hlength
    have hbytes : frame.kept.bytes ≠ [] := by
      intro hempty
      rw [DeclaredBytes.length, hempty] at hlength
      exact hlength rfl
    rw [setProtocolInfo]
    split
    · exact ⟨n, rfl, .refl n⟩
    · rename_i hreceived
      rw [not_or, Bool.not_eq_true, Bool.not_eq_true] at hreceived
      have hgeneric : frame.kept.bytes[1]? = some 0 := by
        by_contra hne
        exact h ⟨hreceived.1, hreceived.2, hbytes, hne⟩
      refine ⟨n.emit .dead, ?_, grows_of_eq rfl rfl⟩
      rw [readAt, hgeneric]
      rfl

theorem updated_addNode_iff (frame : DeclaredBytes) :
    (∃ n', n.receive ctx (.addNode frame) = .ok n' ∧ Updated ctx n (.addNode frame) n') ↔
      Fits ctx n (.addNode frame) := by
  by_cases hread : n.protocolInfoReceived = false ∧ n.basicprotocolInfoReceived = false ∧
      frame.kept.bytes ≠ [] ∧ frame.kept.bytes[1]? ≠ some 0
  · obtain ⟨hprotocol, hbasic, hbytes, hgeneric⟩ := hread
    have hfits : Fits ctx n (.addNode frame) ↔ 3 ≤ frame.kept.bytes.length ∧
        (n.secured = true → ¬ Base ctx n securityId (.addNode frame) →
          SecurityFits ctx n (frame.kept.bytes.drop 3)) :=
      ⟨fun h => h hprotocol hbasic hbytes hgeneric, fun h _ _ _ _ => h⟩
    rw [exists_updated_initNode_iff ⟨hprotocol, hbasic⟩ hbytes hgeneric, hfits]
    refine and_congr_right fun hlength => ?_
    have hsecured := (sameState_described ctx n frame.kept).secured
    have hfirst : n.nodeInfoReceived = false → n.First (.addNode frame) := fun hreceived =>
      ⟨hreceived, hprotocol, hbasic, hbytes, hgeneric⟩
    by_cases hadds : n.secured = true ∧ ¬ Base ctx n securityId (.addNode frame)
    · have hdescribed : (n.described ctx frame.kept).commandClasses securityId = none := by
        by_contra hsome
        exact hadds.2 ((described_ne_none_iff ctx n frame securityId).mp hsome)
      rw [exchangeKeys, if_pos (hsecured.trans hadds.1), hdescribed,
        updated_exchangeListed_iff hlength hfirst hadds.2]
      exact ⟨fun hsecurity _ _ => hsecurity, fun h => h hadds.1 hadds.2⟩
    · have hsettled : (n.described ctx frame.kept).secured = true →
          (n.described ctx frame.kept).commandClasses securityId ≠ none := by
        intro hnode
        rw [described_ne_none_iff]
        by_contra hbase
        exact hadds ⟨hsecured.symm.trans hnode, hbase⟩
      obtain ⟨m, hkeys, hgrows, hreceived, hclasses⟩ :=
        @exchangeKeys_eq_ok ctx (n.described ctx frame.kept) hsettled (frame.kept.bytes.drop 3)
      refine iff_of_true ⟨m, hkeys, exists_updated_described hlength hgrows hreceived hclasses⟩ ?_
      exact fun hnode hbase => absurd ⟨hnode, hbase⟩ hadds
  · obtain ⟨n', hok, hgrows⟩ := receive_addNode_of_not_first hread
    refine iff_of_true ⟨n', hok, hgrows.updated fun hfirst => hread hfirst.2⟩ ?_
    intro hprotocol hbasic hbytes hgeneric
    exact absurd ⟨hprotocol, hbasic, hbytes, hgeneric⟩ hread

/-- A frame is read within its declared bytes and leaves the node with the classes that are
expected exactly if its length covers the device classes, and the Security class is listed as
the code expects where a secured node does not have it. -/
theorem updated_iff (ctx : InfoContext) (n : InfoNode) (frame : InfoFrame) :
    (∃ n', n.receive ctx frame = .ok n' ∧ Updated ctx n frame n') ↔ Fits ctx n frame := by
  cases frame with
  | nodeInfo frame => exact updated_nodeInfo_iff frame
  | addNode frame => exact updated_addNode_iff frame

/-- A node as its constructor leaves it, apart from the two classes that it adds. -/
def unknown : InfoNode where
  commandClasses := fun _ => none
  created := []
  basic := 0
  generic := 0
  specific := 0
  listening := true
  frequentListening := false
  secured := false
  refreshonNodeInfoFrame := true
  protocolInfoReceived := false
  basicprotocolInfoReceived := false
  nodeInfoReceived := false
  effects := []

/-- With two declared bytes, the length of the list wraps around to 255. -/
theorem short_frame_reads_on :
    ¬ ∃ n', unknown.receive ⟨⟨fun _ => true, fun _ => true, rfl⟩, fun _ => none, false⟩
        (.nodeInfo ⟨[4, 16], by decide⟩) = .ok n' ∧
      Updated ⟨⟨fun _ => true, fun _ => true, rfl⟩, fun _ => none, false⟩ unknown
        (.nodeInfo ⟨[4, 16], by decide⟩) n' := by
  rintro ⟨n', hok, -⟩
  cases hok

end InfoNode

end OpenZWave

import OpenZWave.Node
import OpenZWave.Lib.CallTree

/-!
# Dispatching a received command

`applicationCommandHandler` is `Node::ApplicationCommandHandler`; `unpack` are
the handlers of the four encapsulations, which hand the commands inside them to
the node's classes again. A pointer into the receive buffer is the list of the
bytes from there on, and the zero-filled buffer behind the frame reads as zero.
The handlers of the other classes are where the recursion ends: a run is the
list of the handler calls it makes, and the class table is that of the moment
the frame is received.
-/

namespace OpenZWave

/-- A call of `HandleMsg`, or of `HandleIncomingMsg`, on a class of the node. -/
structure Call where
  cc : UInt8
  incoming : Bool
  data : List UInt8
  length : UInt32
  inst : UInt8
  deriving DecidableEq

namespace Node

/-- The call a handler makes for a class: the mark selects the function. -/
def deliver (node : Node) (commandClassId : UInt8) (data : List UInt8) (length : UInt32)
    (inst : UInt8) : List Call :=
  match node.getCommandClass commandClassId with
  | some cc => [{ cc := commandClassId, incoming := cc.afterMark, data, length, inst }]
  | none => []

/-! ## The encapsulations -/

/-- The loop of `MultiCmd::HandleMsg` over the commands that are left. -/
def multiCmdLoop (node : Node) (data : List UInt8) (highestIndex : Int) : Nat → Nat → List Call
  | 0, _ => []
  | commands + 1, base =>
      if base > highestIndex then []
      else
        let length := data.getD base 0
        if (base + length.toNat : Nat) > highestIndex then []
        else
          node.deliver (data.getD (base + 1) 0) (data.drop (base + 2)) (length.toUInt32 - 1) 1 ++
            multiCmdLoop node data highestIndex commands (base + (length.toNat + 1))

/-- The number of times the loop may run: its counter is a byte, so 255 commands
never end it, and the end of the frame does. -/
def multiCmdCount (commands : UInt8) (highestIndex : Int) : Nat :=
  if commands = 255 then highestIndex.toNat else commands.toNat

/-- `MultiCmd::HandleMsg`. -/
def multiCmdHandleMsg (node : Node) (data : List UInt8) (length : UInt32) : List Call :=
  if data.getD 0 0 = multiCmdEncap then
    if length < 3 then []
    else
      let highestIndex := asInt (length - 2)
      node.multiCmdLoop data highestIndex (multiCmdCount (data.getD 1 0) highestIndex) 2
  else []

/-- One byte of `crc16`. -/
def crc16Step (crc : UInt16) (b : UInt8) : UInt16 :=
  let x := (crc >>> 8).toUInt8 ^^^ b
  let x := x ^^^ (x >>> 4)
  (crc <<< 8) ^^^ (x.toUInt16 <<< 12) ^^^ (x.toUInt16 <<< 5) ^^^ x.toUInt16

/-- `crc16`, with the class byte already in its initial value. -/
def crc16 (data : List UInt8) (length : Nat) : UInt16 :=
  (List.range length).foldl (fun crc i => crc16Step crc (data.getD i 0)) 0xF6AF

/-- The checksum as the message reports it. -/
def reportedCrc (data : List UInt8) (length : UInt32) : UInt16 :=
  ((data.getD (length - 3).toNat 0).toUInt16 <<< 8) + (data.getD (length - 2).toNat 0).toUInt16

/-- `CRC16Encap::HandleMsg`. -/
def crc16HandleMsg (node : Node) (data : List UInt8) (length : UInt32) : List Call :=
  if data.getD 0 0 = crc16EncapCmd then
    if reportedCrc data length ≠ crc16 data (length - 3).toNat then []
    else node.deliver (data.getD 1 0) (data.drop 2) (length - 4) 1
  else []

/-- `MultiInstance::HandleMultiChannelEncap`. -/
def handleMultiChannelEncap (node : Node) (data : List UInt8) (length : UInt32) : List Call :=
  let endPoint := data.getD 1 0 &&& 0x7f
  let commandClassId := data.getD 3 0
  match node.getCommandClass commandClassId with
  | some cc =>
      if endPoint = 0 then
        [{ cc := commandClassId, incoming := false, data := data.drop 4, length := length - 4,
           inst := 1 }]
      else
        let inst := if cc.getInstance endPoint = 0 then 1 else cc.getInstance endPoint
        [{ cc := commandClassId, incoming := cc.afterMark, data := data.drop 4,
           length := length - 4, inst }]
  | none => []

/-- `MultiInstance::HandleMultiInstanceEncap`. -/
def handleMultiInstanceEncap (node : Node) (version : UInt8) (data : List UInt8)
    (length : UInt32) : List Call :=
  let inst := if version > 1 then data.getD 1 0 &&& 0x7f else data.getD 1 0
  let commandClassId := data.getD 2 0
  match node.getCommandClass commandClassId with
  | some _ =>
      [{ cc := commandClassId, incoming := false, data := data.drop 3, length := length - 3, inst }]
  | none => node.handleMultiChannelEncap data length

/-- `MultiInstance::HandleMsg`; its other commands are reports. -/
def multiInstanceHandleMsg (node : Node) (version : UInt8) (data : List UInt8)
    (length : UInt32) : List Call :=
  if data.getD 0 0 = MultiInstanceCmd.instanceEncap then
    node.handleMultiInstanceEncap version data length
  else if data.getD 0 0 = MultiInstanceCmd.channelEncap then
    node.handleMultiChannelEncap data length
  else []

/-- The calls a handler makes itself. `HandleIncomingMsg` of these classes is
`HandleMsg`. -/
def unpack (node : Node) (call : Call) : List Call :=
  if call.cc = ClassId.multiCmd then node.multiCmdHandleMsg call.data call.length
  else if call.cc = ClassId.crc16Encap then node.crc16HandleMsg call.data call.length
  else if call.cc = ClassId.multiInstance then
    match node.getCommandClass call.cc with
    | some cc => node.multiInstanceHandleMsg cc.version call.data call.length
    | none => []
  else []

/-! ## Reception -/

/-- The call `ApplicationCommandHandler` makes, and the node it makes it on: the
Multi Instance class may be loaded first. `enforce` is `EnforceSecureReception`. -/
def receive (node : Node) (enforce encrypted : Bool) (data : List UInt8) : Option (Node × Call) :=
  let commandClassId := data.getD 5 0
  match node.getCommandClass commandClassId with
  | some cc =>
      if cc.secured && !encrypted && enforce then none
      else
        some (node, { cc := commandClassId, incoming := cc.afterMark, data := data.drop 6,
                      length := (data.getD 4 0).toUInt32, inst := 1 })
  | none =>
      if commandClassId = ClassId.multiInstance then
        if node.queryStage ≠ .complete then none
        else
          some (node.addCommandClass ClassId.multiInstance,
            { cc := commandClassId, incoming := CommandClass.new.afterMark, data := data.drop 6,
              length := (data.getD 4 0).toUInt32, inst := 1 })
      else none

/-- `ApplicationCommandHandler`: all handler calls that a frame causes. -/
def applicationCommandHandler (node : Node) (enforce encrypted : Bool) (data : List UInt8) :
    List Call :=
  match node.receive enforce encrypted data with
  | some (node, call) => CallTree.calls node.unpack call.data.length call
  | none => []

end Node

/-! ## Commands inside commands -/

/-- A command in the receive buffer: its class, the bytes behind the class, and
the length its handler is given. -/
structure Command where
  cc : UInt8
  data : List UInt8
  length : UInt32

def Call.command (call : Call) : Command := ⟨call.cc, call.data, call.length⟩

/-- Where the length byte of a part of a multi command stands: behind the parts
before it. -/
def partBase (data : List UInt8) (base : Nat) : Nat → Nat
  | 0 => base
  | k + 1 => partBase data (base + ((data.getD base 0).toNat + 1)) k

/-- The part at `base` ends inside a frame whose last index is `highestIndex`. -/
def PartInside (data : List UInt8) (highestIndex : Int) (base : Nat) : Prop :=
  ((base + (data.getD base 0).toNat : Nat) : Int) ≤ highestIndex

/-- `Wraps node a b`: by the formats of the four encapsulations, the bytes of `a`
hold `b`. -/
inductive Wraps (node : Node) (a : Command) : Command → Prop
  | multiCmd (k : Nat) : a.cc = ClassId.multiCmd → a.data.getD 0 0 = multiCmdEncap →
      ¬ a.length < 3 → (a.data.getD 1 0 = 255 ∨ k < (a.data.getD 1 0).toNat) →
      PartInside a.data (asInt (a.length - 2)) (partBase a.data 2 k) →
      Wraps node a ⟨a.data.getD (partBase a.data 2 k + 1) 0, a.data.drop (partBase a.data 2 k + 2),
        (a.data.getD (partBase a.data 2 k) 0).toUInt32 - 1⟩
  | crc16 : a.cc = ClassId.crc16Encap → a.data.getD 0 0 = crc16EncapCmd →
      Node.reportedCrc a.data a.length = Node.crc16 a.data (a.length - 3).toNat →
      Wraps node a ⟨a.data.getD 1 0, a.data.drop 2, a.length - 4⟩
  | multiInstance : a.cc = ClassId.multiInstance →
      a.data.getD 0 0 = MultiInstanceCmd.instanceEncap →
      (node.getCommandClass (a.data.getD 2 0)).isSome →
      Wraps node a ⟨a.data.getD 2 0, a.data.drop 3, a.length - 3⟩
  | multiInstanceAsChannel : a.cc = ClassId.multiInstance →
      a.data.getD 0 0 = MultiInstanceCmd.instanceEncap →
      node.getCommandClass (a.data.getD 2 0) = none →
      Wraps node a ⟨a.data.getD 3 0, a.data.drop 4, a.length - 4⟩
  | multiChannel : a.cc = ClassId.multiInstance →
      a.data.getD 0 0 = MultiInstanceCmd.channelEncap →
      Wraps node a ⟨a.data.getD 3 0, a.data.drop 4, a.length - 4⟩

/-- The wrapped command is one of a class of the node. -/
def Opens (node : Node) (a b : Command) : Prop :=
  Wraps node a b ∧ (node.getCommandClass b.cc).isSome

namespace Node

/-! ## What a run of the handlers calls -/

theorem mem_deliver {node : Node} {cc : UInt8} {data : List UInt8} {length : UInt32} {inst : UInt8}
    {b : Command} :
    (∃ call ∈ node.deliver cc data length inst, call.command = b) ↔
      b = ⟨cc, data, length⟩ ∧ (node.getCommandClass cc).isSome := by
  unfold deliver
  cases node.getCommandClass cc with
  | none => simp
  | some c =>
      simp only [List.mem_singleton, exists_eq_left, Call.command, Option.isSome_some, and_true]
      exact eq_comm

theorem le_partBase (data : List UInt8) (base k : Nat) : base + k ≤ partBase data base k := by
  induction k generalizing base with
  | zero => exact Nat.le_refl _
  | succ k ih =>
      calc
        base + (k + 1) ≤ base + ((data.getD base 0).toNat + 1) + k := by omega
        _ ≤ partBase data base (k + 1) := ih _

/-- The loop delivers the parts that end inside the frame. -/
theorem mem_multiCmdLoop {node : Node} {data : List UInt8} {highestIndex : Int} {call : Call}
    {commands base : Nat} :
    call ∈ node.multiCmdLoop data highestIndex commands base ↔
      ∃ k < commands, PartInside data highestIndex (partBase data base k) ∧
        call ∈ node.deliver (data.getD (partBase data base k + 1) 0)
          (data.drop (partBase data base k + 2))
          ((data.getD (partBase data base k) 0).toUInt32 - 1) 1 := by
  induction commands generalizing base with
  | zero =>
      constructor
      · intro h
        cases h
      · rintro ⟨k, hk, -⟩
        exact absurd hk (Nat.not_lt_zero k)
  | succ commands ih =>
      rw [multiCmdLoop]
      rcases Classical.em (PartInside data highestIndex base) with hin | hout
      · have hbase : ¬ (base : Int) > highestIndex := by
          unfold PartInside at hin
          omega
        rw [if_neg hbase]
        dsimp only
        rw [if_neg (Int.not_lt.mpr hin), List.mem_append, ih]
        constructor
        · rintro (hfirst | ⟨k, hk, hrest⟩)
          · exact ⟨0, Nat.succ_pos _, hin, hfirst⟩
          · exact ⟨k + 1, Nat.succ_lt_succ hk, hrest⟩
        · rintro ⟨k, hk, hinside, hcall⟩
          cases k with
          | zero => exact Or.inl hcall
          | succ k => exact Or.inr ⟨k, Nat.lt_of_succ_lt_succ hk, hinside, hcall⟩
      · constructor
        · intro h
          split at h
          · cases h
          · rw [if_pos (Int.not_le.mp hout)] at h
            cases h
        · rintro ⟨k, -, hinside, -⟩
          have hle := le_partBase data base k
          cases k with
          | zero => exact absurd hinside hout
          | succ k =>
              have hlater := le_partBase data (base + ((data.getD base 0).toNat + 1)) k
              unfold PartInside at hinside hout
              rw [partBase] at hinside
              omega

/-- A part that ends inside the frame is reached before the counter matters. -/
theorem lt_multiCmdCount {data : List UInt8} {highestIndex : Int} {commands : UInt8} {k : Nat}
    (hinside : PartInside data highestIndex (partBase data 2 k)) :
    k < multiCmdCount commands highestIndex ↔ commands = 255 ∨ k < commands.toNat := by
  have hle := le_partBase data 2 k
  unfold PartInside at hinside
  unfold multiCmdCount
  split
  · rename_i hall
    exact ⟨fun _ => Or.inl hall, fun _ => by omega⟩
  · rename_i hsome
    exact ⟨Or.inr, fun h => h.resolve_left hsome⟩

theorem mem_multiCmdHandleMsg {node : Node} {a b : Command} (hcc : a.cc = ClassId.multiCmd) :
    (∃ call ∈ node.multiCmdHandleMsg a.data a.length, call.command = b) ↔ Opens node a b := by
  unfold multiCmdHandleMsg
  constructor
  · rintro ⟨call, hcall, rfl⟩
    split at hcall
    · rename_i hencap
      split at hcall
      · cases hcall
      · rename_i hlong
        obtain ⟨k, hk, hinside, hdeliver⟩ := mem_multiCmdLoop.mp hcall
        obtain ⟨hcommand, hknown⟩ := mem_deliver.mp ⟨call, hdeliver, rfl⟩
        rw [hcommand]
        exact ⟨Wraps.multiCmd k hcc hencap hlong ((lt_multiCmdCount hinside).mp hk) hinside, hknown⟩
    · cases hcall
  · rintro ⟨hwraps, hknown⟩
    cases hwraps with
    | multiCmd k _ hencap hlong hk hinside =>
        rw [if_pos hencap, if_neg hlong]
        obtain ⟨call, hdeliver, hcommand⟩ := mem_deliver.mpr ⟨rfl, hknown⟩
        exact ⟨call, mem_multiCmdLoop.mpr ⟨k, (lt_multiCmdCount hinside).mpr hk, hinside, hdeliver⟩,
          hcommand⟩
    | crc16 h => exact absurd (hcc.symm.trans h) (by decide)
    | multiInstance h => exact absurd (hcc.symm.trans h) (by decide)
    | multiInstanceAsChannel h => exact absurd (hcc.symm.trans h) (by decide)
    | multiChannel h => exact absurd (hcc.symm.trans h) (by decide)

theorem mem_crc16HandleMsg {node : Node} {a b : Command} (hcc : a.cc = ClassId.crc16Encap) :
    (∃ call ∈ node.crc16HandleMsg a.data a.length, call.command = b) ↔ Opens node a b := by
  unfold crc16HandleMsg
  constructor
  · rintro ⟨call, hcall, rfl⟩
    split at hcall
    · rename_i hencap
      split at hcall
      · cases hcall
      · rename_i hcrc
        obtain ⟨hcommand, hknown⟩ := mem_deliver.mp ⟨call, hcall, rfl⟩
        rw [hcommand]
        exact ⟨Wraps.crc16 hcc hencap (not_not.mp hcrc), hknown⟩
    · cases hcall
  · rintro ⟨hwraps, hknown⟩
    cases hwraps with
    | crc16 _ hencap hcrc =>
        rw [if_pos hencap, if_neg (not_not.mpr hcrc)]
        exact mem_deliver.mpr ⟨rfl, hknown⟩
    | multiCmd k h => exact absurd (hcc.symm.trans h) (by decide)
    | multiInstance h => exact absurd (hcc.symm.trans h) (by decide)
    | multiInstanceAsChannel h => exact absurd (hcc.symm.trans h) (by decide)
    | multiChannel h => exact absurd (hcc.symm.trans h) (by decide)

/-- Whatever the endpoint, one command is handed on. -/
theorem mem_handleMultiChannelEncap {node : Node} {data : List UInt8} {length : UInt32}
    {b : Command} :
    (∃ call ∈ node.handleMultiChannelEncap data length, call.command = b) ↔
      b = ⟨data.getD 3 0, data.drop 4, length - 4⟩ ∧
        (node.getCommandClass (data.getD 3 0)).isSome := by
  unfold handleMultiChannelEncap
  dsimp only
  cases node.getCommandClass (data.getD 3 0) with
  | none => simp
  | some cc =>
      dsimp only
      split <;>
        simp only [List.mem_singleton, exists_eq_left, Call.command, Option.isSome_some,
          and_true] <;>
        exact eq_comm

theorem mem_handleMultiInstanceEncap {node : Node} {version : UInt8} {data : List UInt8}
    {length : UInt32} {b : Command} :
    (∃ call ∈ node.handleMultiInstanceEncap version data length, call.command = b) ↔
      ((node.getCommandClass (data.getD 2 0)).isSome ∧
        b = ⟨data.getD 2 0, data.drop 3, length - 3⟩) ∨
      (node.getCommandClass (data.getD 2 0) = none ∧
        b = ⟨data.getD 3 0, data.drop 4, length - 4⟩ ∧
        (node.getCommandClass (data.getD 3 0)).isSome) := by
  unfold handleMultiInstanceEncap
  dsimp only
  cases node.getCommandClass (data.getD 2 0) with
  | none => simp [mem_handleMultiChannelEncap]
  | some cc =>
      simp only [List.mem_singleton, exists_eq_left, Call.command, Option.isSome_some, true_and,
        reduceCtorEq, false_and, or_false]
      exact eq_comm

theorem mem_multiInstanceHandleMsg {node : Node} {version : UInt8} {a b : Command}
    (hcc : a.cc = ClassId.multiInstance) :
    (∃ call ∈ node.multiInstanceHandleMsg version a.data a.length, call.command = b) ↔
      Opens node a b := by
  have hdiff : MultiInstanceCmd.channelEncap ≠ MultiInstanceCmd.instanceEncap := by decide
  unfold multiInstanceHandleMsg
  constructor
  · intro h
    split at h
    · rename_i hencap
      rcases mem_handleMultiInstanceEncap.mp h with ⟨hknown, rfl⟩ | ⟨hnone, rfl, hknown⟩
      · exact ⟨Wraps.multiInstance hcc hencap hknown, hknown⟩
      · exact ⟨Wraps.multiInstanceAsChannel hcc hencap hnone, hknown⟩
    · split at h
      · rename_i hencap
        obtain ⟨rfl, hknown⟩ := mem_handleMultiChannelEncap.mp h
        exact ⟨Wraps.multiChannel hcc hencap, hknown⟩
      · obtain ⟨call, hcall, -⟩ := h
        cases hcall
  · rintro ⟨hwraps, hknown⟩
    cases hwraps with
    | multiInstance _ hencap h =>
        rw [if_pos hencap]
        exact mem_handleMultiInstanceEncap.mpr (Or.inl ⟨h, rfl⟩)
    | multiInstanceAsChannel _ hencap h =>
        rw [if_pos hencap]
        exact mem_handleMultiInstanceEncap.mpr (Or.inr ⟨h, rfl, hknown⟩)
    | multiChannel _ hencap =>
        rw [if_neg (fun h => hdiff (hencap.symm.trans h)), if_pos hencap]
        exact mem_handleMultiChannelEncap.mpr ⟨rfl, hknown⟩
    | multiCmd k h => exact absurd (hcc.symm.trans h) (by decide)
    | crc16 h => exact absurd (hcc.symm.trans h) (by decide)

/-- A handler hands on only what its command wraps, to classes of the node. -/
theorem opens_of_mem_unpack {node : Node} {call inner : Call} (h : inner ∈ node.unpack call) :
    Opens node call.command inner.command := by
  unfold unpack at h
  split at h
  · rename_i hcc
    exact (mem_multiCmdHandleMsg (a := call.command) hcc).mp ⟨inner, h, rfl⟩
  · split at h
    · rename_i hcc
      exact (mem_crc16HandleMsg (a := call.command) hcc).mp ⟨inner, h, rfl⟩
    · split at h
      · rename_i hcc
        split at h
        · exact (mem_multiInstanceHandleMsg (a := call.command) hcc).mp ⟨inner, h, rfl⟩
        · cases h
      · cases h

/-- A wrapped command lies behind the start of its wrapper. -/
theorem length_lt_of_wraps {node : Node} {a b : Command} (h : Wraps node a b) :
    b.data.length < a.data.length := by
  have hpos : a.data.getD 0 0 ≠ 0 → 0 < a.data.length := by
    intro hne
    rcases Nat.eq_zero_or_pos a.data.length with hzero | hpos
    · rw [List.length_eq_zero_iff.mp hzero] at hne
      exact absurd rfl hne
    · exact hpos
  have hdrop : ∀ k, 0 < k → 0 < a.data.length → (a.data.drop k).length < a.data.length := by
    intro k hk hlen
    rw [List.length_drop]
    omega
  cases h with
  | multiCmd k _ hencap =>
      exact hdrop _ (Nat.succ_pos _) (hpos (by rw [hencap]; decide))
  | crc16 _ hencap => exact hdrop _ (by decide) (hpos (by rw [hencap]; decide))
  | multiInstance _ hencap => exact hdrop _ (by decide) (hpos (by rw [hencap]; decide))
  | multiInstanceAsChannel _ hencap => exact hdrop _ (by decide) (hpos (by rw [hencap]; decide))
  | multiChannel _ hencap => exact hdrop _ (by decide) (hpos (by rw [hencap]; decide))

theorem length_lt_of_mem_unpack (node : Node) (call inner : Call) (h : inner ∈ node.unpack call) :
    inner.data.length < call.data.length :=
  length_lt_of_wraps (opens_of_mem_unpack h).1

/-- The depth of a run is never used up. -/
theorem calls_unpack_eq (node : Node) (call : Call) {depth : Nat}
    (h : call.data.length ≤ depth) :
    CallTree.calls node.unpack depth call =
      CallTree.calls node.unpack call.data.length call :=
  CallTree.calls_eq (length_lt_of_mem_unpack node) h (Nat.le_refl _)

end Node

/-! ## Secured classes -/

/-- The command a frame holds. -/
def frameCommand (data : List UInt8) : Command :=
  ⟨data.getD 5 0, data.drop 6, (data.getD 4 0).toUInt32⟩

/-- The commands encapsulated, at any depth, in a frame that the node handles in
clear text: its class is known and not secured, or it is the Multi Instance
class and can be loaded. -/
inductive Encapsulates (node : Node) (data : List UInt8) (b : Command) : Prop
  | handled : (node.getCommandClass (data.getD 5 0)).isSome →
      node.isSecured (data.getD 5 0) = false →
      Relation.TransGen (Opens node) (frameCommand data) b → Encapsulates node data b
  | loaded : data.getD 5 0 = ClassId.multiInstance →
      node.getCommandClass ClassId.multiInstance = none → node.queryStage = .complete →
      Relation.TransGen (Opens (node.addCommandClass ClassId.multiInstance)) (frameCommand data) b →
      Encapsulates node data b

namespace Node

end Node

end OpenZWave

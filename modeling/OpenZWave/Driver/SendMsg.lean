import OpenZWave.Driver.State
import OpenZWave.WakeUp

/-!
# Queueing a message

`SendMsg` finalizes a message, decides whether it is encrypted, and queues it:
in a send queue, or with its node while the node sleeps. When a controller
command is in progress the message to a sleeping node is deleted, and a copy of
the command is queued with the node in its place.
-/

namespace OpenZWave

open ByteBuffer

namespace Driver

/-- The Wake Up object of a node that is not listening and not awake. -/
def asleep (d : Driver) (nodeId : UInt8) : Option Node :=
  match d.nodes nodeId with
  | none => none
  | some node =>
      if node.listening then none
      else
        match node.getWakeUp with
        | none => none
        | some wakeUp => if wakeUp.awake then none else some node

/-- The test `SendMsg` makes on a finalized message. -/
def encrypts (d : Driver) (msg : Msg) : Bool :=
  match d.nodes msg.targetNodeId with
  | none => false
  | some node =>
      (node.getCommandClass ClassId.security).isSome
        && node.isSecured msg.getSendingCommandClass

/-- `SetHomeId`, `Finalize` and `setEncrypted`: the message as it is queued. -/
def prepare (d : Driver) (msg : Msg) : Msg :=
  let msg := ((msg.setHomeId d.homeId).finalize d.nextCallbackId).1
  if d.encrypts msg then msg.setEncrypted else msg

/-- `WakeUp::QueueMsg` on the Wake Up object of a node. -/
def queueForWakeUp (d : Driver) (nodeId : UInt8) (node : Node) (item : MsgQueueItem) : Driver :=
  d.setWakeUp nodeId node
    { node.wakeUp with pendingQueue := queueMsg d.ccis node.wakeUp.pendingQueue item }

/-- `SendMsg`. -/
def sendMsg (d : Driver) (msg : Msg) (queue : MsgQueue) : Driver :=
  let prepared := d.prepare msg
  let d := { d with
    nextCallbackId := ((msg.setHomeId d.homeId).finalize d.nextCallbackId).2 }
  match d.asleep msg.targetNodeId with
  | none => d.pushBack queue (.sendMsg prepared)
  | some node =>
      match d.currentControllerCommand with
      | none => d.queueForWakeUp msg.targetNodeId node (.sendMsg prepared)
      | some cci =>
          let copied := d.newCommand (d.ccis cci)
          (copied.1.updateControllerState .sleeping).queueForWakeUp msg.targetNodeId node
            (.controller copied.2)

/-- `SendQueryStageComplete`. -/
def sendQueryStageComplete (d : Driver) (nodeId : UInt8) (stage : QueryStage) : Driver :=
  match d.nodes nodeId with
  | none => d
  | some _ =>
      match d.asleep nodeId with
      | some node => d.queueForWakeUp nodeId node (.queryStageComplete nodeId stage false)
      | none => d.pushBack .query (.queryStageComplete nodeId stage false)

end Driver

/-! ## The queued message is the one that was sent -/

namespace Msg

variable (m : Msg) (next : UInt8)

@[simp] theorem id_finalize : (m.finalize next).1.id = m.id := by rw [finalize_eq]

@[simp] theorem targetNodeId_finalize : (m.finalize next).1.targetNodeId = m.targetNodeId := by
  rw [finalize_eq]

@[simp] theorem encrypted_finalize : (m.finalize next).1.encrypted = m.encrypted := by
  rw [finalize_eq]

end Msg

namespace Driver

variable (d : Driver) (msg : Msg)

@[simp] theorem id_prepare : (d.prepare msg).id = msg.id := by
  rw [prepare]
  split <;> exact Msg.id_finalize _ _

/-- `item` is the last item of a send queue, and the rest is as it was. -/
structure Appended (d d' : Driver) (queue : MsgQueue) (item : MsgQueueItem) : Prop where
  last : d'.msgQueue queue = d.msgQueue queue ++ [item]
  event : d'.queueEvent queue = true
  queues : ∀ q, q ≠ queue → d'.msgQueue q = d.msgQueue q
  events : ∀ q, q ≠ queue → d'.queueEvent q = d.queueEvent q
  nodes : d'.nodes = d.nodes
  commands : d'.ccis = d.ccis
  command : d'.currentControllerCommand = d.currentControllerCommand

/-- `item` is the newest item of the pending queue of a node, the pending copies
of it are gone, and no other pending queue and no send queue has changed. -/
structure Pended (d d' : Driver) (nodeId : UInt8) (node : Node) (item : MsgQueueItem) : Prop where
  newest : d'.nodes nodeId = some { node with
    wakeUp := { node.wakeUp with
      pendingQueue := node.wakeUp.pendingQueue.filter (fun queued => !queued.eq d'.ccis item)
        ++ [item.resetAttempts] } }
  nodes : ∀ n, n ≠ nodeId → d'.nodes n = d.nodes n
  queues : d'.msgQueue = d.msgQueue
  events : ∀ q, q ≠ .controller → d'.queueEvent q = d.queueEvent q
  command : d'.currentControllerCommand = d.currentControllerCommand

theorem appended_pushBack (queue : MsgQueue) (item : MsgQueueItem) :
    Appended d (d.pushBack queue item) queue item where
  last := Function.update_self ..
  event := Function.update_self ..
  queues := fun _ hq => Function.update_of_ne hq ..
  events := fun _ hq => Function.update_of_ne hq ..
  nodes := rfl
  commands := rfl
  command := rfl

theorem pended_queueForWakeUp {d₀ : Driver} (hnodes : d.nodes = d₀.nodes)
    (hqueues : d.msgQueue = d₀.msgQueue)
    (hevents : ∀ q, q ≠ .controller → d.queueEvent q = d₀.queueEvent q)
    (hcommand : d.currentControllerCommand = d₀.currentControllerCommand)
    (nodeId : UInt8) (node : Node) (item : MsgQueueItem) :
    Pended d₀ (d.queueForWakeUp nodeId node item) nodeId node item where
  newest := Function.update_self ..
  nodes := fun n hn => (Function.update_of_ne hn ..).trans (congrFun hnodes n)
  queues := hqueues
  events := hevents
  command := hcommand

variable (queue : MsgQueue)

/-- The target is not asleep. -/
theorem sendMsg_of_awake (hasleep : d.asleep msg.targetNodeId = none) :
    d.sendMsg msg queue =
      { d with
        nextCallbackId := ((msg.setHomeId d.homeId).finalize d.nextCallbackId).2 }.pushBack queue
          (.sendMsg (d.prepare msg)) := by
  simp only [sendMsg]
  change (match d.asleep msg.targetNodeId with
    | none => _
    | some node => _) = _
  rw [hasleep]

theorem appended_sendMsg (hasleep : d.asleep msg.targetNodeId = none) :
    Appended d (d.sendMsg msg queue) queue (.sendMsg (d.prepare msg)) := by
  rw [sendMsg_of_awake d msg queue hasleep]
  obtain ⟨hlast, hevent, hqueues, hevents, hnodes, hcommands, hcommand⟩ := appended_pushBack
    { d with nextCallbackId := ((msg.setHomeId d.homeId).finalize d.nextCallbackId).2 } queue
    (.sendMsg (d.prepare msg))
  exact ⟨hlast, hevent, hqueues, hevents, hnodes, hcommands, hcommand⟩

/-- The target is asleep and no controller command is in progress. -/
theorem sendMsg_of_asleep {node : Node} (hasleep : d.asleep msg.targetNodeId = some node)
    (hidle : d.currentControllerCommand = none) :
    d.sendMsg msg queue =
      { d with
        nextCallbackId := ((msg.setHomeId d.homeId).finalize d.nextCallbackId).2 }.queueForWakeUp
          msg.targetNodeId node (.sendMsg (d.prepare msg)) := by
  simp only [sendMsg, hidle]
  change (match d.asleep msg.targetNodeId with
    | none => _
    | some node => _) = _
  rw [hasleep]

/-- The target is asleep while a controller command is in progress. -/
theorem sendMsg_of_busy {node : Node} {cci : CciRef}
    (hasleep : d.asleep msg.targetNodeId = some node)
    (hbusy : d.currentControllerCommand = some cci) :
    d.sendMsg msg queue =
      (({ d with
          nextCallbackId := ((msg.setHomeId d.homeId).finalize d.nextCallbackId).2 }.newCommand
            (d.ccis cci)).1.updateControllerState .sleeping).queueForWakeUp
        msg.targetNodeId node (.controller d.nextCci) := by
  simp only [sendMsg, hbusy]
  change (match d.asleep msg.targetNodeId with
    | none => _
    | some node => _) = _
  rw [hasleep]
  rfl

theorem pended_sendMsg {node : Node} (hasleep : d.asleep msg.targetNodeId = some node)
    (hidle : d.currentControllerCommand = none) :
    Pended d (d.sendMsg msg queue) msg.targetNodeId node (.sendMsg (d.prepare msg)) ∧
      (d.sendMsg msg queue).ccis = d.ccis := by
  rw [sendMsg_of_asleep d msg queue hasleep hidle]
  constructor
  · apply pended_queueForWakeUp
    · rfl
    · rfl
    · intro q _
      rfl
    · rfl
  · rfl

theorem pended_command {node : Node} {cci : CciRef}
    (hasleep : d.asleep msg.targetNodeId = some node)
    (hbusy : d.currentControllerCommand = some cci) :
    Pended d (d.sendMsg msg queue) msg.targetNodeId node (.controller d.nextCci) ∧
      (d.sendMsg msg queue).ccis =
        Function.update (Function.update d.ccis d.nextCci (d.ccis cci)) cci
          ((Function.update d.ccis d.nextCci (d.ccis cci) cci).updated .sleeping .none) := by
  rw [sendMsg_of_busy d msg queue hasleep hbusy]
  constructor
  · apply pended_queueForWakeUp
    · exact nodes_updateControllerState _ _ _
    · exact msgQueue_updateControllerState _ _ _
    · intro q hq
      exact queueEvent_updateControllerState _ _ _ hq
    · exact currentControllerCommand_updateControllerState _ _ _
  · simp only [queueForWakeUp, setWakeUp, setNode, updateControllerState, newCommand, setCommand,
      hbusy]

/-- A sleeping node with the Wake Up class. -/
def sleeper : Node where
  nodeId := 5
  commandClassMap := fun id => if id = ClassId.wakeUp then some CommandClass.new else none
  queryStage := .complete
  listening := false
  frequentListening := false
  nodeAlive := true
  wakeUp := { awake := false, pendingQueue := [] }

/-- A Basic Get to node 5, not finalized yet. -/
def basicGetTo5 : Msg :=
  (Msg.new 1 5 REQUEST FuncId.sendData true true FuncId.applicationCommandHandler
    0x20).appendArray [5, 2, 0x20, 0x02, 0x25]

/-- What is asked of `SendMsg`: the message is last in the send queue or newest
with its node, and no command has changed. -/
def Kept (d : Driver) (msg : Msg) (queue : MsgQueue) : Prop :=
  Appended d (d.sendMsg msg queue) queue (.sendMsg (d.prepare msg)) ∨
    ∃ node, Pended d (d.sendMsg msg queue) msg.targetNodeId node (.sendMsg (d.prepare msg)) ∧
      (d.sendMsg msg queue).ccis = d.ccis

end Driver

end OpenZWave

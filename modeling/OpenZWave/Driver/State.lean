import Mathlib.Logic.Function.Basic
import OpenZWave.Node

/-!
# The state of the driver

The part of `Driver` that sending, queueing and completing messages read and
write. The events of the send queues are flags. A controller command is an
object on the heap of commands; `nextCci` is the address the next `new`
returns. Notifications, the frames given to the controller, and the messages
that were sent with the nodes they went to are kept as histories.
-/

namespace OpenZWave

open ByteBuffer

/-- The notifications of the modelled functions. -/
inductive Notification
  | controllerCommand (nodeId : UInt8) (command : ControllerCommand) (event : ControllerState)
      (error : ControllerError)
  | awake (nodeId : UInt8)
  | sleep (nodeId : UInt8)
  | timeout (nodeId : UInt8)
  | noOperation (nodeId : UInt8)
  | msgComplete (nodeId : UInt8)
  | allNodesQueried
  | allNodesQueriedSomeDead
  | awakeNodesQueried
  | driverFailed (nodeId : UInt8)
  deriving DecidableEq

/-- A frame given to the controller: the buffer of a message, its encapsulation
by `EncryptBuffer` for a node and under a nonce, or one of the two frames of a
nonce exchange. -/
inductive Written
  | clear (id : Nat) (bytes : List UInt8)
  | encapsulated (id : Nat) (nodeId : UInt8) (nonce : Vector UInt8 8)
  | nonceGet (nodeId : UInt8)
  | nonceReport (nodeId : UInt8) (nonce : Vector UInt8 8)
  deriving DecidableEq

/-- `GetBuffer` and `GetLength` of a message that is written. -/
def Msg.written (m : Msg) : Written :=
  if m.encrypted then .encapsulated m.id m.targetNodeId m.nonce
  else .clear m.id (first m.buffer m.length.toNat)

/-- The states after which a controller command is done. -/
def ControllerState.final : ControllerState → Bool
  | .error | .cancel | .failed | .sleeping | .nodeFailed | .nodeOK | .completed => true
  | _ => false

/-- A controller command as `UpdateControllerState` leaves it. -/
def ControllerCommandItem.updated (item : ControllerCommandItem) (state : ControllerState)
    (error : ControllerError) : ControllerCommandItem :=
  let item :=
    if state ≠ item.state then
      { item with stateChanged := true, state := state, done := item.done || state.final }
    else item
  if error ≠ .none then { item with returnError := error } else item

structure Driver where
  homeId : UInt32
  controllerNodeId : UInt8
  nodes : UInt8 → Option Node
  msgQueue : MsgQueue → List MsgQueueItem
  queueEvent : MsgQueue → Bool
  currentMsg : Option Msg
  currentMsgQueueSource : MsgQueue
  currentControllerCommand : Option CciRef
  ccis : CciHeap
  nextCci : CciRef
  waitingForAck : Bool
  expectedCallbackId : UInt8
  expectedReply : UInt8
  expectedCommandClassId : UInt8
  expectedNodeId : UInt8
  nonceReportSent : UInt8
  nonceReportSentAttempt : UInt8
  nextCallbackId : UInt8
  allNodesQueried : Bool
  awakeNodesQueried : Bool
  notifyTransactions : Bool
  notifications : List Notification
  written : List Written
  requests : List (Msg × Option Node)

namespace Driver

/-- The constructor. -/
def new (homeId : UInt32) (controllerNodeId : UInt8) : Driver where
  homeId := homeId
  controllerNodeId := controllerNodeId
  nodes := fun _ => none
  msgQueue := fun _ => []
  queueEvent := fun _ => false
  currentMsg := none
  currentMsgQueueSource := .command
  currentControllerCommand := none
  ccis := fun _ => default
  nextCci := 0
  waitingForAck := false
  expectedCallbackId := 0
  expectedReply := 0
  expectedCommandClassId := 0
  expectedNodeId := 0
  nonceReportSent := 0
  nonceReportSentAttempt := 0
  nextCallbackId := 10
  allNodesQueried := false
  awakeNodesQueried := false
  notifyTransactions := false
  notifications := []
  written := []
  requests := []

/-- `QueueNotification`. -/
def queueNotification (d : Driver) (notification : Notification) : Driver :=
  { d with notifications := d.notifications ++ [notification] }

/-- `m_controller->Write`. -/
def write (d : Driver) (frame : Written) : Driver := { d with written := d.written ++ [frame] }

/-- Replaces a send queue. -/
def setQueue (d : Driver) (queue : MsgQueue) (items : List MsgQueueItem) : Driver :=
  { d with msgQueue := Function.update d.msgQueue queue items }

/-- `Set` and `Reset` of the event of a queue. -/
def setEvent (d : Driver) (queue : MsgQueue) (set : Bool) : Driver :=
  { d with queueEvent := Function.update d.queueEvent queue set }

/-- `push_back` on a send queue, which sets its event. -/
def pushBack (d : Driver) (queue : MsgQueue) (item : MsgQueueItem) : Driver :=
  (d.setQueue queue (d.msgQueue queue ++ [item])).setEvent queue true

/-- The object of a node in `m_nodes`. -/
def setNode (d : Driver) (nodeId : UInt8) (node : Option Node) : Driver :=
  { d with nodes := Function.update d.nodes nodeId node }

/-- The Wake Up object of a node. -/
def setWakeUp (d : Driver) (nodeId : UInt8) (node : Node) (wakeUp : WakeUp) : Driver :=
  d.setNode nodeId (some { node with wakeUp })

/-- Writes a controller command. -/
def setCommand (d : Driver) (cci : CciRef) (item : ControllerCommandItem) : Driver :=
  { d with ccis := Function.update d.ccis cci item }

/-- `new ControllerCommandItem`. -/
def newCommand (d : Driver) (item : ControllerCommandItem) : Driver × CciRef :=
  ({ d.setCommand d.nextCci item with nextCci := d.nextCci + 1 }, d.nextCci)

/-- `UpdateControllerState`. -/
def updateControllerState (d : Driver) (state : ControllerState)
    (error : ControllerError := .none) : Driver :=
  match d.currentControllerCommand with
  | none => d
  | some cci =>
      let item := d.ccis cci
      let done := state ≠ item.state ∧ state.final = true
      { d with
        ccis := Function.update d.ccis cci (item.updated state error)
        queueEvent :=
          if done then Function.update d.queueEvent .controller true else d.queueEvent
        notifications :=
          d.notifications ++ [.controllerCommand item.node item.command state error] }

/-- No callback and no reply is awaited. -/
def clearExpected (d : Driver) : Driver :=
  { d with
    expectedCallbackId := 0
    expectedCommandClassId := 0
    expectedNodeId := 0
    expectedReply := 0
    waitingForAck := false }

/-- `RemoveCurrentMsg`. -/
def removeCurrentMsg (d : Driver) : Driver :=
  { d.clearExpected with
    currentMsg := none
    nonceReportSent := 0
    nonceReportSentAttempt := 0 }

/-- `GetNodeNumber`. -/
def getNodeNumber (msg : Option Msg) : UInt8 :=
  match msg with
  | some msg => msg.targetNodeId
  | none => 0

/-! ## What a change of the controller state leaves alone -/

section

variable (d : Driver) (state : ControllerState) (error : ControllerError)

@[simp] theorem msgQueue_updateControllerState :
    (d.updateControllerState state error).msgQueue = d.msgQueue := by
  unfold updateControllerState
  split <;> rfl

@[simp] theorem nodes_updateControllerState :
    (d.updateControllerState state error).nodes = d.nodes := by
  unfold updateControllerState
  split <;> rfl

@[simp] theorem currentMsg_updateControllerState :
    (d.updateControllerState state error).currentMsg = d.currentMsg := by
  unfold updateControllerState
  split <;> rfl

@[simp] theorem currentControllerCommand_updateControllerState :
    (d.updateControllerState state error).currentControllerCommand =
      d.currentControllerCommand := by
  unfold updateControllerState
  split <;> rfl

@[simp] theorem written_updateControllerState :
    (d.updateControllerState state error).written = d.written := by
  unfold updateControllerState
  split <;> rfl

/-- Only the event of the controller queue may change, and it is set then. -/
theorem queueEvent_updateControllerState {q : MsgQueue} (hq : q ≠ .controller) :
    (d.updateControllerState state error).queueEvent q = d.queueEvent q := by
  unfold updateControllerState
  split
  · rfl
  · dsimp only
    split
    · exact Function.update_of_ne hq _ _
    · rfl

end

end Driver

end OpenZWave

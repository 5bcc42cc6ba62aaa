import OpenZWave.Driver.MoveMessages

/-!
# Calls to the driver

What the application, the handlers of received frames and the command classes
ask of the driver. The code of a node and of its classes is outside the model:
its effect is the list of the calls it makes, among them the changes of the
node itself.
-/

namespace OpenZWave

/-- A call to the driver, or a change of a node. -/
inductive DriverCall
  | sendMsg (msg : Msg) (queue : MsgQueue)
  | sendQueryStageComplete (nodeId : UInt8) (stage : QueryStage)
  | retryQueryStageComplete (nodeId : UInt8) (stage : QueryStage)
  | beginControllerCommand (item : ControllerCommandItem)
  | updateControllerState (state : ControllerState) (error : ControllerError)
  | moveMessagesToWakeUpQueue (target : UInt8) (move : Bool)
  | removeCurrentMsg
  | removeQueues (nodeId : UInt8)
  | wakeUp (nodeId : UInt8)
  | newNode (nodeId : UInt8) (node : Node)
  | changeNode (nodeId : UInt8) (node : Node)
  | deleteNode (nodeId : UInt8)

namespace Driver

/-- The loop of `RetryQueryStageComplete`: the first such item is marked. -/
def markRetry (nodeId : UInt8) (stage : QueryStage) : List MsgQueueItem → List MsgQueueItem
  | [] => []
  | .queryStageComplete nodeId' stage' retry :: items =>
      if nodeId' = nodeId ∧ stage' = stage then .queryStageComplete nodeId' stage' true :: items
      else .queryStageComplete nodeId' stage' retry :: markRetry nodeId stage items
  | item :: items => item :: markRetry nodeId stage items

/-- `BeginControllerCommand`. -/
def beginControllerCommand (d : Driver) (item : ControllerCommandItem) : Driver :=
  if item.command = .none then d
  else
    let created := d.newCommand
      { item with
        state := .normal, stateChanged := false, done := false, returnError := .none,
        added := false }
    created.1.pushBack .controller (.controller created.2)

/-- Whether `RemoveQueues` erases an item. -/
def erases (d : Driver) (nodeId : UInt8) : MsgQueueItem → Bool
  | .sendMsg msg => nodeId == msg.targetNodeId
  | .queryStageComplete nodeId' _ _ => nodeId == nodeId'
  | .controller cci => nodeId == (d.ccis cci).node && d.currentControllerCommand != some cci
  | .reloadNode nodeId' => nodeId == nodeId'

/-- The loops of `RemoveQueues`. -/
def eraseItems (d : Driver) (nodeId : UInt8) : Driver :=
  let left := fun q => (d.msgQueue q).filter fun item => !d.erases nodeId item
  { d with
    msgQueue := left
    queueEvent := fun q => if left q = [] then false else d.queueEvent q }

/-- `RemoveQueues`. -/
def removeQueues (d : Driver) (nodeId : UInt8) : Driver :=
  match d.currentMsg with
  | some msg =>
      if msg.targetNodeId = nodeId then d.removeCurrentMsg.eraseItems nodeId
      else d.eraseItems nodeId
  | none => d.eraseItems nodeId

/-- One item of the loop of `SendPending`. A reload makes a new node and asks it
for everything again, which are calls of their own. -/
def sendPendingItem (d : Driver) : MsgQueueItem → Driver
  | .sendMsg msg => d.sendMsg msg .wakeUp
  | .queryStageComplete nodeId stage _ => d.sendQueryStageComplete nodeId stage
  | .controller cci => d.beginControllerCommand (d.ccis cci)
  | .reloadNode _ => d

/-- `SetAwake(true)` and `SendPending`: the pending queue is emptied, item by
item. What the node asks for when it wakes up, and the message that sends it
back to sleep, are calls of their own. -/
def wakeUp (d : Driver) (nodeId : UInt8) : Driver :=
  match d.nodes nodeId with
  | none => d
  | some node =>
      match node.getWakeUp with
      | none => d
      | some _ =>
          let woken := d.setWakeUp nodeId node { awake := true, pendingQueue := [] }
          let d :=
            if node.wakeUp.awake then woken else woken.queueNotification (.awake nodeId)
          node.wakeUp.pendingQueue.foldl sendPendingItem d

/-- One call. -/
def call (d : Driver) : DriverCall → Driver
  | .sendMsg msg queue =>
      { d.sendMsg msg queue with
        requests := d.requests ++ [(msg, d.nodes msg.targetNodeId)] }
  | .sendQueryStageComplete nodeId stage => d.sendQueryStageComplete nodeId stage
  | .retryQueryStageComplete nodeId stage =>
      d.setQueue .query (markRetry nodeId stage (d.msgQueue .query))
  | .beginControllerCommand item => d.beginControllerCommand item
  | .updateControllerState state error => d.updateControllerState state error
  | .moveMessagesToWakeUpQueue target move => (d.moveMessagesToWakeUpQueue target move).1
  | .removeCurrentMsg => d.removeCurrentMsg
  | .removeQueues nodeId => d.removeQueues nodeId
  | .wakeUp nodeId => d.wakeUp nodeId
  | .newNode nodeId node =>
      d.setNode nodeId (some { node with wakeUp := { awake := node.wakeUp.awake, pendingQueue := [] } })
  | .changeNode nodeId node =>
      match d.nodes nodeId with
      | none => d
      | some old =>
          d.setNode nodeId (some { node with
            wakeUp := { awake := node.wakeUp.awake, pendingQueue := old.wakeUp.pendingQueue } })
  | .deleteNode nodeId => d.setNode nodeId none

/-- The calls of a handler, in order. -/
def calls (d : Driver) (calls : List DriverCall) : Driver := calls.foldl call d

end Driver

end OpenZWave

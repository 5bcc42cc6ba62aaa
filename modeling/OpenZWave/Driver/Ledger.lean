import Mathlib.Data.FinEnum
import OpenZWave.Driver.Held
import OpenZWave.Driver.Trace
import OpenZWave.Lib.Ledger

/-!
# Who owns the messages and the controller commands

A message belongs to an item of a send queue or of the pending queue of a node, or
it is the current message; a controller command belongs to an item. The entries
list, operation by operation, where the source says `new` and `delete`.
`WriteNextMsg` assigns to the current message without looking at it, which loses
the message that is there.
-/

namespace OpenZWave

open Ledger

/-- What is allocated: the message of a request, or a copy of it, and the controller
command at an address. -/
inductive Object
  | msg (id : Nat)
  | command (cci : CciRef)
  deriving DecidableEq

/-- The object that an item owns, if there is one. -/
def MsgQueueItem.objects : MsgQueueItem → List Object
  | .sendMsg msg => [.msg msg.id]
  | .controller cci => [.command cci]
  | _ => []

def objects (items : List MsgQueueItem) : List Object := items.flatMap MsgQueueItem.objects

/-- What `WakeUp::QueueMsg` deletes: the objects of the items that the new one
replaces. -/
def replaced (ccis : CciHeap) (pendingQueue : List MsgQueueItem) (item : MsgQueueItem) :
    List Object :=
  objects (pendingQueue.filter fun queued => queued.eq ccis item)

/-- What is deleted when the items arrive one after the other. -/
def replacedAll (ccis : CciHeap) : List MsgQueueItem → List MsgQueueItem → List Object
  | _, [] => []
  | pendingQueue, item :: items =>
      replaced ccis pendingQueue item ++ replacedAll ccis (queueMsg ccis pendingQueue item) items

instance : Fintype MsgQueue := ⟨⟨MsgQueue.all, MsgQueue.nodup_all⟩, MsgQueue.mem_all⟩

namespace Driver

/-! ## Owners -/

def queuedObjects (d : Driver) (queue : MsgQueue) : List Object := objects (d.msgQueue queue)

/-- What waits with a node. -/
def pendingOf : Option Node → List Object
  | none => []
  | some node => objects node.wakeUp.pendingQueue

def pendingObjects (d : Driver) (nodeId : UInt8) : List Object := pendingOf (d.nodes nodeId)

def currentObjects : Option Msg → List Object
  | none => []
  | some msg => [.msg msg.id]

/-- How many places own an object. -/
def owners (d : Driver) (o : Object) : ℕ :=
  held d.queuedObjects o + held d.pendingObjects o + (currentObjects d.currentMsg).count o

/-! ## Entries of the calls -/

/-- `QueueMsg` for a node. -/
def queueEntry (d : Driver) (node : Node) (item : MsgQueueItem) : Entry Object :=
  .deleting (replaced d.ccis node.wakeUp.pendingQueue item)

/-- `SendMsg`, which takes its message over. -/
def sendEntry (d : Driver) (msg : Msg) : Entry Object :=
  match d.asleep msg.targetNodeId with
  | none => .none
  | some node =>
      match d.currentControllerCommand with
      | none => d.queueEntry node (.sendMsg (d.prepare msg))
      | some cci =>
          let copied := d.newCommand (d.ccis cci)
          ((Entry.deleting [.msg msg.id]).and (.creating [.command copied.2])).and
            ((copied.1.updateControllerState .sleeping).queueEntry node (.controller copied.2))

/-- `SendQueryStageComplete`. -/
def queryEntry (d : Driver) (nodeId : UInt8) (stage : QueryStage) : Entry Object :=
  match d.nodes nodeId with
  | none => .none
  | some _ =>
      match d.asleep nodeId with
      | none => .none
      | some node => d.queueEntry node (.queryStageComplete nodeId stage false)

/-- `BeginControllerCommand`. -/
def beginEntry (d : Driver) (item : ControllerCommandItem) : Entry Object :=
  if item.command = .none then .none else .creating [.command d.nextCci]

/-- `RemoveCurrentMsg`. -/
def removeEntry (d : Driver) : Entry Object := .deleting (currentObjects d.currentMsg)

/-- `RemoveQueues`. -/
def removeQueuesEntry (d : Driver) (nodeId : UInt8) : Entry Object :=
  let erased := MsgQueue.all.flatMap fun q => objects ((d.msgQueue q).filter (d.erases nodeId))
  match d.currentMsg with
  | some msg =>
      if msg.targetNodeId = nodeId then d.removeEntry.and (.deleting erased) else .deleting erased
  | none => .deleting erased

/-- What `MoveMessagesToWakeUpQueue` deletes of the current message. -/
def droppedCurrent (d : Driver) (target : UInt8) : List Object :=
  match d.currentMsg with
  | none => []
  | some msg =>
      if d.currentControllerCommand.isSome then [.msg msg.id]
      else if target = msg.targetNodeId ∧ msg.pends = false then [.msg msg.id]
      else []

/-- The items that are neither moved nor kept. -/
def droppedFrom (ccis : CciHeap) (target : UInt8) (items : List MsgQueueItem) :
    List MsgQueueItem :=
  items.filter fun item => item.isFor ccis target && !item.pends

/-- `MoveMessagesToWakeUpQueue`, when messages are moved. -/
def moveEntry (d : Driver) (target : UInt8) (node : Node) : Entry Object :=
  let dropped := d.droppedCurrent target ++
    MsgQueue.all.flatMap fun q => objects (droppedFrom d.ccis target (d.msgQueue q))
  let copied : List Object := if d.currentControllerCommand.isSome then [.command d.nextCci] else []
  ((Entry.deleting dropped).and
    (.deleting (replacedAll d.ccis node.wakeUp.pendingQueue (movedItems target d)))).and
      (.creating copied)

/-- `MoveMessagesToWakeUpQueue`. -/
def moveMessagesEntry (d : Driver) (target : UInt8) (move : Bool) : Entry Object :=
  match d.nodes target with
  | none => .none
  | some node =>
      if node.listening || node.frequentListening || target == d.controllerNodeId then .none
      else
        match node.getWakeUp with
        | none => .none
        | some _ => if move then d.moveEntry target node else .none

/-- One item of the loop of `SendPending`, whose command is deleted. -/
def pendingItemEntry (d : Driver) : MsgQueueItem → Entry Object
  | .sendMsg msg => d.sendEntry msg
  | .queryStageComplete nodeId stage _ => d.queryEntry nodeId stage
  | .controller cci => (d.beginEntry (d.ccis cci)).and (.deleting [.command cci])
  | .reloadNode _ => .none

/-- The loop of `SendPending`. -/
def pendingEntry (d : Driver) : List MsgQueueItem → Entry Object
  | [] => .none
  | item :: items => (d.pendingItemEntry item).and (pendingEntry (d.sendPendingItem item) items)

/-- `SendPending`. -/
def wakeUpEntry (d : Driver) (nodeId : UInt8) : Entry Object :=
  match d.nodes nodeId with
  | none => .none
  | some node =>
      match node.getWakeUp with
      | none => .none
      | some _ =>
          let woken := d.setWakeUp nodeId node { awake := true, pendingQueue := [] }
          pendingEntry (if node.wakeUp.awake then woken else woken.queueNotification (.awake nodeId))
            node.wakeUp.pendingQueue

/-- One call. The message of `SendMsg` is created by its caller; the destructor of a
node deletes what waits with it. -/
def callEntry (d : Driver) : DriverCall → Entry Object
  | .sendMsg msg _ => (Entry.creating [.msg msg.id]).and (d.sendEntry msg)
  | .sendQueryStageComplete nodeId stage => d.queryEntry nodeId stage
  | .retryQueryStageComplete _ _ => .none
  | .beginControllerCommand item => d.beginEntry item
  | .updateControllerState _ _ => .none
  | .moveMessagesToWakeUpQueue target move => d.moveMessagesEntry target move
  | .removeCurrentMsg => d.removeEntry
  | .removeQueues nodeId => d.removeQueuesEntry nodeId
  | .wakeUp nodeId => d.wakeUpEntry nodeId
  | .newNode nodeId _ => .deleting (d.pendingObjects nodeId)
  | .changeNode _ _ => .none
  | .deleteNode nodeId => .deleting (d.pendingObjects nodeId)

/-! ## Entries of the events -/

/-- `WriteMsg`: the current message is deleted when it is given up. -/
def writeEntry (d : Driver) : Entry Object :=
  match d.currentMsg with
  | none => .none
  | some msg =>
      let report := d.nonceReportSent != 0
      let attempts := if report then d.nonceReportSentAttempt else msg.sendAttempts
      let nodeId := if report then d.nonceReportSent else msg.targetNodeId
      if attempts ≥ msg.maxSendAttempts ∨ d.presumedDead nodeId msg = true then
        .deleting [.msg msg.id]
      else .none

/-- `WriteNextMsg`: a message that is taken, or a query stage, takes the place of the
current message. -/
def writeNextEntry (d : Driver) (queue : MsgQueue) : Entry Object :=
  match d.msgQueue queue with
  | [] => .none
  | .sendMsg msg :: items =>
      let taken : Driver :=
        { d with currentMsg := some msg, currentMsgQueueSource := queue }.popFront queue items
      let copied : List Object := if taken.nonceReportSent ≠ 0 then [.msg msg.id] else []
      ((Entry.losing (currentObjects d.currentMsg)).and (.creating copied)).and taken.writeEntry
  | .queryStageComplete _ _ _ :: _ => .losing (currentObjects d.currentMsg)
  | .controller cci :: _ => if (d.ccis cci).done then .deleting [.command cci] else .none
  | .reloadNode _ :: _ => .none

/-- The calls of a trace. -/
def traceEntry (t : CallTrace) : Entry Object := Entry.total (t.map fun x => x.1.callEntry x.2)

/-- One event. -/
def entry (d : Driver) : Event → Entry Object
  | .call c => d.callEntry c
  | .frame f => if f.isSecurity && f.data.getD 6 0 == SecurityCmd.nonceReport then .none
      else traceEntry (d.frameTrace f)
  | .ack => traceEntry d.ackTrace
  | .can => .none
  | .nak => .none
  | .timeout _ _ => if d.waiting then d.writeEntry else .none
  | .writeNext queue _ _ => if d.offers queue then d.writeNextEntry queue else .none

end Driver

/-! ## Objects of lists of items -/

section

variable {o : Object} {ccis : CciHeap}

end

namespace Driver

section

variable {d d' : Driver} {o : Object}

/-! ## How the owners change -/

end

end Driver

end OpenZWave

import OpenZWave.Msg

/-!
# The queries of a node

`Node::AdvanceQueries` takes a node through its query stages. In each stage it
queues the requests of the command classes and behind them a marker, with which
the driver completes the stage when it comes to it. What the command classes
answer is given with each call. Controller commands, the error counters and
`CheckCompletedNodeQueries` are left out, and a message counts as sent when
`WriteMsg` takes it.

The queues of the requests come before the query queue or are the query queue,
so any waiting request may be taken next, a marker only when nothing waits
before it. Each item carries the number of the visit of a stage that queued it, and
zero when it is not of a stage. The visits, the stages that were left and the
revivals of the node are histories.
-/

namespace OpenZWave

namespace QueryStage

/-- The value of the enumeration. -/
def number : QueryStage → Nat
  | none => 0
  | protocolInfo => 1
  | probe => 2
  | wakeUp => 3
  | nodeInfo => 4
  | nodePlusInfo => 5
  | securityReport => 6
  | versions => 7
  | manufacturerSpecific1 => 8
  | instances => 9
  | manufacturerSpecific2 => 10
  | static => 11
  | cacheLoad => 12
  | associations => 13
  | neighbors => 14
  | session => 15
  | dynamic => 16
  | configuration => 17
  | complete => 18

theorem number_injective {first second : QueryStage} (h : first.number = second.number) :
    first = second := by
  cases first <;> cases second <;> first | rfl | exact absurd h (by decide)

/-- The value plus one, which after the last stage is not a stage. -/
def succ : QueryStage → Option QueryStage
  | none => protocolInfo
  | protocolInfo => probe
  | probe => wakeUp
  | wakeUp => nodeInfo
  | nodeInfo => nodePlusInfo
  | nodePlusInfo => securityReport
  | securityReport => versions
  | versions => manufacturerSpecific1
  | manufacturerSpecific1 => instances
  | instances => manufacturerSpecific2
  | manufacturerSpecific2 => static
  | static => cacheLoad
  | cacheLoad => associations
  | associations => neighbors
  | neighbors => session
  | session => dynamic
  | dynamic => configuration
  | configuration => complete
  | complete => Option.none

end QueryStage

/-- What the command classes did when a stage asked them: the messages they
queued, as `SendMsg` finalizes them, and whether they said that they queued any. -/
structure Asked where
  messages : List Msg
  pending : Bool
  silent : pending = false → messages = []

/-- What `AdvanceQueries` reads of the node and of the driver, stage by stage, and
the messages of the stages. A class that the node does not have is `none`. -/
structure QueryFacts where
  /-- A controller command is in progress. -/
  controllerCommand : Bool
  protocolInfoReceived : Bool
  getNodeProtocolInfo : Msg
  /-- The node is the controller. -/
  isControllerNode : Bool
  noOperation : Msg
  /-- The messages of `Init`, unless the node is a controller or listens frequently. -/
  wakeUp : Option (List Msg)
  nodeInfoReceived : Bool
  nodeInfoSupported : Bool
  requestNodeInfo : Msg
  zWavePlusInfo : Option Asked
  security : Option Msg
  versions : Asked
  manufacturerSpecificInit : Option Asked
  /-- `IsAfterMark` and `RequestInstances`. -/
  multiInstance : Option (Bool × Asked)
  manufacturerSpecificClassReceived : Bool
  manufacturerSpecificState : Option Asked
  static : Asked
  multiChannelAssociation : Option (List Msg)
  association : Option (List Msg)
  neighbors : List Msg
  session : Asked
  dynamic : Asked
  configParams : Asked
  hasWakeUp : Bool

inductive QueryItem
  | sendMsg (visit : Nat) (msg : Msg)
  | queryStageComplete (stage : QueryStage) (retry : Bool) (visit : Nat)
  deriving DecidableEq

inductive QueryNotice
  | essentialNodeQueriesComplete
  | nodeQueriesComplete
  | alive
  | dead
  deriving DecidableEq

/-- A stage that was left, and whether its requests had been sent by then. -/
structure Departure where
  stage : QueryStage
  next : Option QueryStage
  sent : Bool
  deriving DecidableEq

/-- A revival of a node that died in a stage, and whether it made the stage ask again. -/
structure Revival where
  stage : QueryStage
  resent : Bool
  deriving DecidableEq

/-- The query fields of a node, with its items in the queues of the driver and in
the queue of its Wake Up class. A stage past the last one is `none`. -/
structure NodeQueries where
  queryStage : Option QueryStage
  queryPending : Bool
  queryConfiguration : Bool
  queryRetries : UInt8
  nodeAlive : Bool
  asleep : Bool
  msgQueue : List QueryItem
  pendingQueue : List QueryItem
  notified : List QueryNotice
  /-- The stages whose requests were asked for, the last one first. -/
  visits : List QueryStage
  /-- The stage has been visited since the node came to it. -/
  visited : Bool
  /-- The requests of the last visit that were thrown away. -/
  dropped : Nat
  departures : List Departure
  /-- The stage that was pending when the node was declared dead. -/
  diedIn : Option QueryStage
  revivals : List Revival

namespace QueryItem

/-- A request of the visit. -/
def asks (visit : Nat) : QueryItem → Bool
  | sendMsg visit' _ => visit' == visit
  | queryStageComplete .. => false

/-- A marker of the visit. -/
def marks (visit : Nat) : QueryItem → Bool
  | sendMsg .. => false
  | queryStageComplete _ _ visit' => visit' == visit

/-- The visit that queued the item. -/
def visit : QueryItem → Nat
  | sendMsg visit _ => visit
  | queryStageComplete _ _ visit => visit

/-- `MsgQueueItem::operator==`: the messages are compared from the other side. -/
def eq : QueryItem → QueryItem → Bool
  | sendMsg _ msg, sendMsg _ other => other.eq msg
  | queryStageComplete stage _ _, queryStageComplete stage' _ _ => stage' == stage
  | _, _ => false

/-- `SetSendAttempts(0)` on the message. -/
def resetAttempts : QueryItem → QueryItem
  | sendMsg visit msg => sendMsg visit (msg.setSendAttempts 0)
  | item => item

/-- An item of the Wake Up class as it is sent again: the marker is a new one. -/
def renewed : QueryItem → QueryItem
  | sendMsg visit msg => sendMsg visit msg
  | queryStageComplete stage _ visit => queryStageComplete stage false visit

end QueryItem

namespace NodeQueries

/-- The number of the last visit. -/
def visit (n : NodeQueries) : Nat := n.visits.length + 1

/-- The requests of the last visit that wait. -/
def waiting (n : NodeQueries) : Nat :=
  (n.msgQueue ++ n.pendingQueue).countP (QueryItem.asks n.visit)

/-- The requests of the stage were asked for, and all of them were taken to be sent. -/
def stageSent (n : NodeQueries) : Bool := n.visited && n.dropped == 0 && n.waiting == 0

/-! ## The queues -/

def queueNotification (n : NodeQueries) (notice : QueryNotice) : NodeQueries :=
  { n with notified := n.notified ++ [notice] }

/-- A message of the visit is thrown away. -/
def drop (n : NodeQueries) (visit : Nat) : NodeQueries :=
  if visit = n.visit then { n with dropped := n.dropped + 1 } else n

/-- `WakeUp::QueueMsg`. The items it takes for copies of the new one are deleted. -/
def queueMsg (n : NodeQueries) (item : QueryItem) : NodeQueries :=
  { n with
    pendingQueue := n.pendingQueue.filter (fun queued => !queued.eq item) ++ [item.resetAttempts]
    dropped :=
      if item.asks n.visit then n.dropped
      else n.dropped + n.pendingQueue.countP fun queued => queued.eq item && queued.asks n.visit }

/-- `SendMsg`. What is meant for a sleeping node waits in the node, but is deleted
while a controller command is in progress. -/
def sendMsg (n : NodeQueries) (controllerCommand : Bool) (visit : Nat) (msg : Msg) : NodeQueries :=
  if n.asleep then
    if controllerCommand then n.drop visit else n.queueMsg (.sendMsg visit msg)
  else { n with msgQueue := n.msgQueue ++ [.sendMsg visit msg] }

/-- The messages of a stage. -/
def sendMsgs (n : NodeQueries) (controllerCommand : Bool) (messages : List Msg) : NodeQueries :=
  messages.foldl (fun n msg => n.sendMsg controllerCommand n.visit msg) n

/-- `SendQueryStageComplete`. -/
def sendQueryStageComplete (n : NodeQueries) (stage : QueryStage) : NodeQueries :=
  if n.asleep then n.queueMsg (.queryStageComplete stage false n.visit)
  else { n with msgQueue := n.msgQueue ++ [.queryStageComplete stage false n.visit] }

/-- The first marker of the stage is marked for a retry. -/
def markRetry (stage : QueryStage) : List QueryItem → List QueryItem
  | [] => []
  | .sendMsg visit msg :: items => .sendMsg visit msg :: markRetry stage items
  | .queryStageComplete stage' retry visit :: items =>
      if stage' = stage then .queryStageComplete stage' true visit :: items
      else .queryStageComplete stage' retry visit :: markRetry stage items

/-- `RetryQueryStageComplete`, which looks into the query queue only. -/
def retryQueryStageComplete (n : NodeQueries) (stage : QueryStage) : NodeQueries :=
  { n with msgQueue := markRetry stage n.msgQueue }

/-- `WakeUp::SendPending`. -/
def sendPending (n : NodeQueries) : NodeQueries :=
  { n with
    asleep := false
    msgQueue := n.msgQueue ++ n.pendingQueue.map QueryItem.renewed
    pendingQueue := [] }

/-- What `MoveMessagesToWakeUpQueue` does with an item of the send queues. -/
def moveItem (n : NodeQueries) : QueryItem → NodeQueries
  | .sendMsg visit msg =>
      if msg.isWakeUpNoMoreInformationCommand = false ∧ msg.isNoOperation = false then
        n.queueMsg (.sendMsg visit msg)
      else n.drop visit
  | .queryStageComplete stage retry visit => n.queueMsg (.queryStageComplete stage retry visit)

/-- `MoveMessagesToWakeUpQueue` for a node that sleeps. The message that is being sent
comes first. -/
def moveMessagesToWakeUpQueue (n : NodeQueries) (currentMsg : Option Msg) : NodeQueries :=
  let items := (currentMsg.map (QueryItem.sendMsg 0)).toList ++ n.msgQueue
  items.foldl moveItem { n with asleep := true, msgQueue := [] }

/-! ## The stages -/

/-- Leaves the stage for another one. -/
def leave (n : NodeQueries) (stage : QueryStage) (next : Option QueryStage) : NodeQueries :=
  { n with
    queryStage := next
    visited := false
    departures := n.departures ++ [⟨stage, next, n.stageSent⟩] }

/-- The stage has nothing to ask for. -/
def moveTo (n : NodeQueries) (stage next : QueryStage) : NodeQueries :=
  { n.leave stage (some next) with queryRetries := 0 }

/-- A visit of the stage. -/
def enter (n : NodeQueries) (stage : QueryStage) : NodeQueries :=
  { n with visits := stage :: n.visits, visited := true, dropped := 0 }

/-- The stage queues its requests, and waits for them. -/
def ask (n : NodeQueries) (facts : QueryFacts) (messages : List Msg) : NodeQueries :=
  { n.sendMsgs facts.controllerCommand messages with queryPending := true }

/-- The stage moves on when the command classes have nothing to ask for. -/
def asked (n : NodeQueries) (facts : QueryFacts) (stage next : QueryStage) (asked : Asked) :
    NodeQueries :=
  if asked.pending then n.ask facts asked.messages else n.moveTo stage next

/-- The cases of `AdvanceQueries`, but for the last one. -/
def advanceStage (n : NodeQueries) (facts : QueryFacts) : QueryStage → NodeQueries
  | .none => n.moveTo .none .protocolInfo
  | .protocolInfo =>
      if facts.protocolInfoReceived = false then n.ask facts [facts.getNodeProtocolInfo]
      else n.moveTo .protocolInfo .probe
  | .probe =>
      if facts.isControllerNode = false then n.ask facts [facts.noOperation]
      else n.moveTo .probe .wakeUp
  | .wakeUp =>
      match facts.wakeUp with
      | some messages => n.ask facts messages
      | none => n.moveTo .wakeUp .nodeInfo
  | .nodeInfo =>
      if facts.nodeInfoReceived = false ∧ facts.nodeInfoSupported = true ∧
          facts.isControllerNode = false then n.ask facts [facts.requestNodeInfo]
      else n.moveTo .nodeInfo .nodePlusInfo
  | .nodePlusInfo =>
      match facts.zWavePlusInfo with
      | some asked => n.asked facts .nodePlusInfo .securityReport asked
      | none => n.moveTo .nodePlusInfo .securityReport
  | .securityReport =>
      match facts.security with
      | some msg => n.ask facts [msg]
      | none => n.moveTo .securityReport .versions
  | .versions =>
      if facts.isControllerNode then n.moveTo .versions .manufacturerSpecific1
      else n.asked facts .versions .manufacturerSpecific1 facts.versions
  | .manufacturerSpecific1 =>
      if facts.isControllerNode then n.moveTo .manufacturerSpecific1 .instances
      else
        match facts.manufacturerSpecificInit with
        | some asked => n.asked facts .manufacturerSpecific1 .instances asked
        | none => n.moveTo .manufacturerSpecific1 .instances
  | .instances =>
      match facts.multiInstance with
      | some (false, asked) =>
          if asked.pending then n.ask facts asked.messages
          else (n.moveTo .instances .manufacturerSpecific2).queueNotification
            .essentialNodeQueriesComplete
      | some (true, _) | none =>
          (n.moveTo .instances .manufacturerSpecific2).queueNotification
            .essentialNodeQueriesComplete
  | .manufacturerSpecific2 =>
      if facts.manufacturerSpecificClassReceived = false then
        match facts.manufacturerSpecificState with
        | some asked =>
            if facts.isControllerNode = false then
              n.asked facts .manufacturerSpecific2 .static asked
            else n.moveTo .manufacturerSpecific2 .static
        | none => n.moveTo .manufacturerSpecific2 .static
      else n.moveTo .manufacturerSpecific2 .static
  | .static =>
      -- the stage `CacheLoad` is only entered from the cache
      if facts.isControllerNode = false then n.asked facts .static .associations facts.static
      else n.moveTo .static .associations
  | .cacheLoad =>
      if facts.isControllerNode = false then n.ask facts [facts.noOperation]
      else n.moveTo .cacheLoad .associations
  | .associations =>
      match facts.multiChannelAssociation with
      | some messages => n.ask facts messages
      | none =>
          match facts.association with
          | some messages => n.ask facts messages
          | none => n.moveTo .associations .neighbors
  | .neighbors => n.ask facts facts.neighbors
  | .session => n.asked facts .session .dynamic facts.session
  | .dynamic => n.asked facts .dynamic .configuration facts.dynamic
  | .configuration =>
      if n.queryConfiguration then
        { n with queryConfiguration := false }.asked facts .configuration .complete
          facts.configParams
      else n.moveTo .configuration .complete
  | .complete => n

/-- The case of the last stage, which returns. -/
def queriesComplete (n : NodeQueries) (facts : QueryFacts) : NodeQueries :=
  let n := n.queueNotification .nodeQueriesComplete
  if facts.hasWakeUp then n.sendPending else n

/-- The loop of `AdvanceQueries`, for a number of turns, and the marker that is
queued behind it when a stage asked for something. -/
def advanceLoop (facts : QueryFacts) : Nat → NodeQueries → Bool → Option NodeQueries
  | 0, _, _ => none
  | turns + 1, n, addQSC =>
      if n.queryPending = false ∧ n.nodeAlive = true then
        match n.queryStage with
        | none => advanceLoop facts turns n addQSC
        | some .complete => some (n.queriesComplete facts)
        | some stage =>
            let n := (n.enter stage).advanceStage facts stage
            advanceLoop facts turns n n.queryPending
      else if addQSC = true ∧ n.nodeAlive = true then n.queryStage.map n.sendQueryStageComplete
      else some n

/-- `AdvanceQueries`: `none` when it does not return. -/
def advanceQueries (n : NodeQueries) (facts : QueryFacts) : Option NodeQueries :=
  advanceLoop facts 20 n false

/-- `QueryStageComplete`. -/
def queryStageComplete (n : NodeQueries) (stage : QueryStage) : NodeQueries :=
  if n.queryStage ≠ some stage then n
  else if stage = .complete then n
  else
    let next := if stage.succ = some .cacheLoad then some .associations else stage.succ
    { n.leave stage next with queryPending := false, queryRetries := 0 }

/-- `QueryStageRetry`. -/
def queryStageRetry (n : NodeQueries) (stage : QueryStage) (maxAttempts : UInt8) : NodeQueries :=
  if n.queryStage ≠ some stage then n
  else
    let n := { n with queryPending := false }
    let n :=
      if maxAttempts ≠ 0 then
        if n.queryRetries + 1 ≥ maxAttempts then
          let n := { n with queryRetries := 0 }
          -- the probes are never given up
          if stage ≠ .probe ∧ stage ≠ .cacheLoad then n.leave stage stage.succ else n
        else { n with queryRetries := n.queryRetries + 1 }
      else n
    match n.queryStage with
    | some stage => n.retryQueryStageComplete stage
    | none => n

/-- The number of the stage of the node. -/
def stageNumber (n : NodeQueries) : Nat :=
  match n.queryStage with
  | some stage => stage.number
  | none => 19

/-- `SetQueryStage`. -/
def setQueryStage (n : NodeQueries) (stage : QueryStage) (advance : Bool) (facts : QueryFacts) :
    Option NodeQueries :=
  let n :=
    if stage.number < n.stageNumber then
      { n with
        queryStage := some stage
        queryPending := false
        queryConfiguration := n.queryConfiguration || stage == .configuration
        visited := false
        diedIn := none }
    else n
  if advance then n.advanceQueries facts else some n

/-- `SetNodeAlive(false)`. -/
def setNodeDead (n : NodeQueries) : NodeQueries :=
  { n with
    nodeAlive := false
    diedIn := if n.queryPending = true ∧ n.diedIn = none then n.queryStage else n.diedIn
    notified := n.notified ++ [.dead] }

/-- The revival of the node is recorded. -/
def revived (n : NodeQueries) (before : Nat) : NodeQueries :=
  match n.diedIn with
  | none => n
  | some stage =>
      { n with
        diedIn := none
        revivals := n.revivals ++ [⟨stage, stage ∈ n.visits.take (n.visits.length - before)⟩] }

/-- `SetNodeAlive(true)`. -/
def setNodeAlive (n : NodeQueries) (facts : QueryFacts) : Option NodeQueries :=
  let n := { n with nodeAlive := true }
  let restarted :=
    if n.queryStage ≠ some .complete then { n with queryRetries := 0 }.advanceQueries facts
    else some n
  restarted.map fun n' => (n'.revived n.visits.length).queueNotification .alive

/-- `WriteMsg` for a request: a message to a dead node is dropped, unless it is a No
Operation. -/
def writeMsg (n : NodeQueries) (visit : Nat) (msg : Msg) : NodeQueries :=
  if n.nodeAlive = false ∧ msg.isNoOperation = false then n.drop visit else n

/-- `WriteNextMsg` for the item at the position. -/
def writeNextMsg (n : NodeQueries) (position : Nat) (facts : QueryFacts) : Option NodeQueries :=
  match n.msgQueue[position]? with
  | none => some n
  | some (.sendMsg visit msg) =>
      some ({ n with msgQueue := n.msgQueue.eraseIdx position }.writeMsg visit msg)
  | some (.queryStageComplete stage retry _) =>
      if position = 0 then
        let n := { n with msgQueue := n.msgQueue.tail }
        let n := if retry then n else n.queryStageComplete stage
        n.advanceQueries facts
      else some n

end NodeQueries

/-- A new node, or a node read from the cache, with the markers that another node of
its id has left in the query queue. -/
def NodeQueries.start (stage : QueryStage) (left : List (QueryStage × Bool)) : NodeQueries where
  queryStage := some stage
  queryPending := false
  queryConfiguration := stage == .configuration
  queryRetries := 0
  nodeAlive := true
  asleep := false
  msgQueue := left.map fun marker => .queryStageComplete marker.1 marker.2 0
  pendingQueue := []
  notified := []
  visits := []
  visited := false
  dropped := 0
  departures := []
  diedIn := none
  revivals := []

/-! ## Runs -/

inductive QueryEvent
  | advanceQueries (facts : QueryFacts)
  | queryStageRetry (stage : QueryStage) (maxAttempts : UInt8)
  | setQueryStage (stage : QueryStage) (advance : Bool) (facts : QueryFacts)
  | dead
  | alive (facts : QueryFacts)
  | writeNextMsg (position : Nat) (facts : QueryFacts)
  /-- A message that is not of a stage. -/
  | sendMsg (controllerCommand : Bool) (msg : Msg)
  | moveMessagesToWakeUpQueue (currentMsg : Option Msg)
  /-- The node goes to sleep. -/
  | sleep
  | sendPending

namespace NodeQueries

def handle (n : NodeQueries) : QueryEvent → Option NodeQueries
  | .advanceQueries facts => n.advanceQueries facts
  | .queryStageRetry stage maxAttempts => some (n.queryStageRetry stage maxAttempts)
  | .setQueryStage stage advance facts => n.setQueryStage stage advance facts
  | .dead => some n.setNodeDead
  | .alive facts => n.setNodeAlive facts
  | .writeNextMsg position facts => n.writeNextMsg position facts
  | .sendMsg controllerCommand msg => some (n.sendMsg controllerCommand 0 msg)
  | .moveMessagesToWakeUpQueue currentMsg => some (n.moveMessagesToWakeUpQueue currentMsg)
  | .sleep => some { n with asleep := true }
  | .sendPending => some n.sendPending

/-- A step of the system. After a call that does not return there is none. -/
def step (n : Option NodeQueries) (e : QueryEvent) : Option NodeQueries :=
  n.bind fun n => n.handle e

end NodeQueries

/-! ## What `AdvanceQueries` does -/

namespace NodeQueries

/-- Only these two fields differ. -/
def told (n : NodeQueries) (configuration : Bool) (notified : List QueryNotice) : NodeQueries :=
  { n with queryConfiguration := configuration, notified := notified }

/-- A call of `AdvanceQueries` that returns, turn by turn. -/
inductive Advances (facts : QueryFacts) : NodeQueries → NodeQueries → Prop
  | idle {n} (h : ¬(n.queryPending = false ∧ n.nodeAlive = true)) : Advances facts n n
  | complete {n} (hpending : n.queryPending = false) (halive : n.nodeAlive = true)
      (hstage : n.queryStage = some .complete) : Advances facts n (n.queriesComplete facts)
  | ask {n stage} (hpending : n.queryPending = false) (halive : n.nodeAlive = true)
      (hstage : n.queryStage = some stage) (hcomplete : stage ≠ .complete)
      (configuration notified messages) :
      Advances facts n
        ((((n.enter stage).told configuration notified).ask facts
          messages).sendQueryStageComplete stage)
  | move {n stage next n'} (hpending : n.queryPending = false) (halive : n.nodeAlive = true)
      (hstage : n.queryStage = some stage) (hcomplete : stage ≠ .complete)
      (hnext : stage.number < next.number) (configuration notified)
      (rest : Advances facts
        (((n.enter stage).told configuration notified).moveTo stage next) n') :
      Advances facts n n'

/-- Only the queues and what was thrown away differ. -/
def withQueues (n : NodeQueries) (msgQueue pendingQueue : List QueryItem) (dropped : Nat) :
    NodeQueries :=
  { n with msgQueue := msgQueue, pendingQueue := pendingQueue, dropped := dropped }

/-- The node with other queues. -/
def Requeued (n n' : NodeQueries) : Prop :=
  n' = n.withQueues n'.msgQueue n'.pendingQueue n'.dropped

theorem requeued_drop (n : NodeQueries) (visit : Nat) : Requeued n (n.drop visit) := by
  rw [drop]
  split <;> rfl

theorem requeued_sendMsg (n : NodeQueries) (controllerCommand : Bool) (visit : Nat) (msg : Msg) :
    Requeued n (n.sendMsg controllerCommand visit msg) := by
  rw [sendMsg]
  split
  · split
    · exact requeued_drop n visit
    · rfl
  · rfl

theorem Requeued.trans {n n' n'' : NodeQueries} (h : Requeued n n') (h' : Requeued n' n'') :
    Requeued n n'' := by
  rw [Requeued] at h h' ⊢
  rw [h']
  rw [h]
  rfl

theorem requeued_sendMsgs (n : NodeQueries) (controllerCommand : Bool) (messages : List Msg) :
    Requeued n (n.sendMsgs controllerCommand messages) := by
  induction messages generalizing n with
  | nil => rfl
  | cons msg messages ih =>
      exact (requeued_sendMsg n controllerCommand n.visit msg).trans (ih _)

end NodeQueries

end OpenZWave

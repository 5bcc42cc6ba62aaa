import OpenZWave.Driver.SendMsg

/-!
# Moving messages to a sleeping node

`MoveMessagesToWakeUpQueue` marks a node as asleep and moves what waits for it
in the driver to its pending queue. The loops erase items from the send queues
one by one; the theorems say which items go and where they end up.
-/

namespace OpenZWave

/-- The messages that are dropped when their node sleeps. -/
def Msg.pends (m : Msg) : Bool := !m.isWakeUpNoMoreInformationCommand && !m.isNoOperation

namespace MsgQueueItem

/-- The items that leave the send queues for a node. -/
def isFor (ccis : CciHeap) (target : UInt8) : MsgQueueItem → Bool
  | .sendMsg msg => target == msg.targetNodeId
  | .queryStageComplete nodeId _ _ => target == nodeId
  | .controller cci => target == (ccis cci).node
  | .reloadNode _ => false

/-- The items among them that are not dropped. -/
def pends : MsgQueueItem → Bool
  | .sendMsg msg => msg.pends
  | _ => true

end MsgQueueItem

namespace Driver

/-- The loop over one send queue: the pending queue, and what is left. -/
def moveQueue (ccis : CciHeap) (target : UInt8) :
    List MsgQueueItem → List MsgQueueItem → List MsgQueueItem × List MsgQueueItem
  | pendingQueue, [] => (pendingQueue, [])
  | pendingQueue, item :: items =>
      if item.isFor ccis target then
        let pendingQueue :=
          if item.pends then queueMsg ccis pendingQueue item.resetAttempts else pendingQueue
        moveQueue ccis target pendingQueue items
      else
        let rest := moveQueue ccis target pendingQueue items
        (rest.1, item :: rest.2)

/-- The body of the loop over the send queues. -/
def moveStep (target : UInt8) (s : Driver × List MsgQueueItem) (queue : MsgQueue) :
    Driver × List MsgQueueItem :=
  let moved := moveQueue s.1.ccis target s.2 (s.1.msgQueue queue)
  let d := s.1.setQueue queue moved.2
  (if moved.2 = [] then d.setEvent queue false else d, moved.1)

/-- The current message, when it is for the node. -/
def moveCurrent (d : Driver) (target : UInt8) (pendingQueue : List MsgQueueItem) :
    Driver × List MsgQueueItem :=
  match d.currentMsg with
  | none => (d, pendingQueue)
  | some msg =>
      if target = msg.targetNodeId then
        ({ d.clearExpected with currentMsg := none },
          if msg.pends then queueMsg d.ccis pendingQueue (.sendMsg (msg.setSendAttempts 0))
          else pendingQueue)
      else (d, pendingQueue)

/-- `CheckCompletedNodeQueries`. -/
def checkCompletedNodeQueries (d : Driver) : Driver :=
  if d.allNodesQueried then d
  else
    let unqueried := ((List.range 256).filterMap fun i => d.nodes (UInt8.ofNat i)).filter
      fun node => node.queryStage ≠ .complete
    let alive := unqueried.filter fun node => node.nodeAlive
    if alive = [] then
      let d := d.queueNotification
        (if unqueried = [] then .allNodesQueried else .allNodesQueriedSomeDead)
      { d with awakeNodesQueried := true, allNodesQueried := true }
    else if alive.all (fun node => !node.listening) && !d.awakeNodesQueried then
      { d.queueNotification .awakeNodesQueried with awakeNodesQueried := true }
    else d

/-- The end of the move: the command in progress sleeps, and a copy of it takes
its place. -/
def requeueCommand (d : Driver) : Driver :=
  match d.currentControllerCommand with
  | none => d
  | some cci =>
      let d := d.updateControllerState .sleeping
      let copied := d.newCommand (d.ccis cci)
      { copied.1 with currentControllerCommand := some copied.2 }.pushBack .controller
        (.controller copied.2)

/-- The messages of a node that sleeps, with the send mutex held. -/
def moveMessages (d : Driver) (target : UInt8) (node : Node) : Driver :=
  let d := if d.currentControllerCommand.isSome then d.removeCurrentMsg else d
  let current := d.moveCurrent target node.wakeUp.pendingQueue
  let moved := MsgQueue.all.foldl (moveStep target) current
  (moved.1.setWakeUp target node { awake := false, pendingQueue := moved.2 }).requeueCommand

/-- `WakeUp::SetAwake(false)`. -/
def setAsleep (d : Driver) (nodeId : UInt8) (node : Node) : Driver :=
  if node.wakeUp.awake then
    (d.setWakeUp nodeId node { node.wakeUp with awake := false }).queueNotification (.sleep nodeId)
  else d

/-- `MoveMessagesToWakeUpQueue`. -/
def moveMessagesToWakeUpQueue (d : Driver) (target : UInt8) (move : Bool) : Driver × Bool :=
  match d.nodes target with
  | none => (d, false)
  | some node =>
      if node.listening || node.frequentListening || target == d.controllerNodeId then (d, false)
      else
        match node.getWakeUp with
        | none => (d, false)
        | some _ =>
            if move then
              (((d.setAsleep target node).moveMessages target node).checkCompletedNodeQueries, true)
            else (d.setAsleep target node, false)

/-! ## What the loops do -/

variable (ccis : CciHeap) (target : UInt8)

/-- The items of a queue that are moved. -/
def movedFrom (items : List MsgQueueItem) : List MsgQueueItem :=
  items.filter fun item => item.isFor ccis target && item.pends

/-- The items of a queue that stay. -/
def keptIn (items : List MsgQueueItem) : List MsgQueueItem :=
  items.filter fun item => !item.isFor ccis target

/-- `QueueMsg` is one arrival at a queue from which copies are removed. -/
theorem queueMsg_eq_arrive (pendingQueue : List MsgQueueItem) (item : MsgQueueItem) :
    queueMsg ccis pendingQueue item =
      Requeue.arrive (MsgQueueItem.eq ccis) pendingQueue item.resetAttempts := by
  have heq : ∀ queued : MsgQueueItem, queued.eq ccis item.resetAttempts = queued.eq ccis item := by
    intro queued
    cases queued <;> cases item <;> rfl
  simp only [queueMsg, Requeue.arrive, heq]

theorem queueMsg_resetAttempts (pendingQueue : List MsgQueueItem) (item : MsgQueueItem) :
    queueMsg ccis pendingQueue item.resetAttempts = queueMsg ccis pendingQueue item := by
  have hreset : item.resetAttempts.resetAttempts = item.resetAttempts := by
    cases item <;> rfl
  rw [queueMsg_eq_arrive, queueMsg_eq_arrive, hreset]

theorem foldl_queueMsg_eq_arrive (pendingQueue items : List MsgQueueItem) :
    items.foldl (queueMsg ccis) pendingQueue =
      (items.map MsgQueueItem.resetAttempts).foldl (Requeue.arrive (MsgQueueItem.eq ccis))
        pendingQueue := by
  rw [List.foldl_map]
  congr 1
  ext queue item : 2
  exact queueMsg_eq_arrive ccis queue item

/-- The loop over a queue passes the moved items on in order, and keeps the others. -/
theorem moveQueue_eq (pendingQueue items : List MsgQueueItem) :
    moveQueue ccis target pendingQueue items =
      ((movedFrom ccis target items).foldl (queueMsg ccis) pendingQueue,
        keptIn ccis target items) := by
  induction items generalizing pendingQueue with
  | nil => rfl
  | cons item items ih =>
      rw [moveQueue, movedFrom, keptIn, List.filter_cons, List.filter_cons]
      cases hfor : item.isFor ccis target with
      | false =>
          simp only [Bool.false_eq_true, if_false, ih, Bool.false_and, Bool.not_false, if_true]
          rfl
      | true =>
          simp only [if_true, ih, Bool.true_and, Bool.not_true, Bool.false_eq_true, if_false]
          cases hpends : item.pends with
          | false => rfl
          | true =>
              simp only [if_true, List.foldl_cons, queueMsg_resetAttempts]
              rfl

/-- The events after the loop: those of the emptied queues are reset. -/
def eventsAfter (d : Driver) (queues : List MsgQueue) (q : MsgQueue) : Bool :=
  if q ∈ queues ∧ keptIn d.ccis target (d.msgQueue q) = [] then false else d.queueEvent q

/-- The send queues after the loop. -/
def queuesAfter (d : Driver) (queues : List MsgQueue) (q : MsgQueue) : List MsgQueueItem :=
  if q ∈ queues then keptIn d.ccis target (d.msgQueue q) else d.msgQueue q

theorem moveStep_eq (d : Driver) (pendingQueue : List MsgQueueItem) (queue : MsgQueue) :
    moveStep target (d, pendingQueue) queue =
      ({ d with
          msgQueue := queuesAfter target d [queue]
          queueEvent := eventsAfter target d [queue] },
        (movedFrom d.ccis target (d.msgQueue queue)).foldl (queueMsg d.ccis) pendingQueue) := by
  have hqueues : Function.update d.msgQueue queue (keptIn d.ccis target (d.msgQueue queue)) =
      queuesAfter target d [queue] := by
    ext q : 1
    rcases eq_or_ne q queue with rfl | hne
    · simp [queuesAfter]
    · simp [queuesAfter, hne]
  have hevents : (if keptIn d.ccis target (d.msgQueue queue) = [] then
      Function.update d.queueEvent queue false else d.queueEvent) =
      eventsAfter target d [queue] := by
    ext q : 1
    rcases eq_or_ne q queue with rfl | hne
    · split <;> simp [eventsAfter, *]
    · split <;> simp [eventsAfter, hne]
  rw [moveStep, moveQueue_eq, ← hqueues, ← hevents]
  dsimp only
  split <;> rfl

/-- The loop over the queues, one after the other. -/
theorem foldl_moveStep (d : Driver) (pendingQueue : List MsgQueueItem) (queues : List MsgQueue)
    (hnodup : queues.Nodup) :
    queues.foldl (moveStep target) (d, pendingQueue) =
      ({ d with
          msgQueue := queuesAfter target d queues
          queueEvent := eventsAfter target d queues },
        (queues.flatMap fun q => movedFrom d.ccis target (d.msgQueue q)).foldl
          (queueMsg d.ccis) pendingQueue) := by
  induction queues generalizing d pendingQueue with
  | nil =>
      have hqueues : queuesAfter target d [] = d.msgQueue := by
        ext q : 1
        simp [queuesAfter]
      have hevents : eventsAfter target d [] = d.queueEvent := by
        ext q : 1
        simp [eventsAfter]
      rw [hqueues, hevents]
      rfl
  | cons queue queues ih =>
      obtain ⟨hqueue, hnodup⟩ := List.nodup_cons.mp hnodup
      have hne : ∀ q ∈ queues, q ≠ queue := fun q hq heq => hqueue (heq ▸ hq)
      have hother : ∀ q ∈ queues, queuesAfter target d [queue] q = d.msgQueue q := by
        intro q hq
        simp [queuesAfter, hne q hq]
      have hmoved : (queues.flatMap fun q =>
          movedFrom d.ccis target (queuesAfter target d [queue] q)) =
          queues.flatMap fun q => movedFrom d.ccis target (d.msgQueue q) := by
        apply List.flatMap_congr
        intro q hq
        rw [hother q hq]
      rw [List.foldl_cons, moveStep_eq, ih _ _ hnodup, List.flatMap_cons, List.foldl_append]
      dsimp only
      rw [hmoved]
      congr 2
      · ext q : 1
        by_cases hq : q ∈ queues
        · simp [queuesAfter, hq, hne q hq]
        · simp [queuesAfter, hq]
      · ext q : 1
        by_cases hq : q ∈ queues
        · simp [eventsAfter, hq, hne q hq, hother q hq]
        · simp [eventsAfter, hq]

/-! ## The whole move -/

/-- The current message, when it goes to the pending queue. With a controller
command in progress it is dropped, since the command will create it again. -/
def currentItem (d : Driver) : List MsgQueueItem :=
  match d.currentMsg with
  | some msg =>
      if d.currentControllerCommand = none ∧ target = msg.targetNodeId ∧ msg.pends = true then
        [.sendMsg msg]
      else []
  | none => []

/-- What arrives at the pending queue: the current message, then the items of
the send queues in the order of their priority. -/
def movedItems (d : Driver) : List MsgQueueItem :=
  currentItem target d ++ MsgQueue.all.flatMap fun q => movedFrom d.ccis target (d.msgQueue q)

/-- The current message after the move. -/
def leftCurrent (d : Driver) : Option Msg :=
  if d.currentControllerCommand = none then
    d.currentMsg.filter fun msg => target ≠ msg.targetNodeId
  else none

/-- The first step of the move touches the current message only. -/
theorem moveCurrent_spec (d : Driver) (pendingQueue : List MsgQueueItem) :
    ∃ e : Driver,
      (if d.currentControllerCommand.isSome then d.removeCurrentMsg else d).moveCurrent target
        pendingQueue = (e, (currentItem target d).foldl (queueMsg d.ccis) pendingQueue) ∧
      e.currentMsg = leftCurrent target d ∧ e.msgQueue = d.msgQueue ∧
      e.queueEvent = d.queueEvent ∧ e.nodes = d.nodes ∧ e.ccis = d.ccis ∧
      e.currentControllerCommand = d.currentControllerCommand ∧ e.nextCci = d.nextCci := by
  cases hcommand : d.currentControllerCommand with
  | some cci =>
      refine ⟨d.removeCurrentMsg, ?_, ?_, rfl, rfl, rfl, rfl, hcommand, rfl⟩
      · have hnone : currentItem target d = [] := by
          rw [currentItem]
          split
          · exact if_neg (by simp [hcommand])
          · rfl
        rw [hnone]
        rfl
      · rw [leftCurrent, if_neg (by simp [hcommand])]
        rfl
  | none =>
      simp only [Option.isSome_none, Bool.false_eq_true, if_false, moveCurrent]
      cases hcurrent : d.currentMsg with
      | none =>
          refine ⟨d, ?_, ?_, rfl, rfl, rfl, rfl, hcommand, rfl⟩
          · simp [currentItem, hcurrent]
          · simp [leftCurrent, hcommand, hcurrent]
      | some msg =>
          dsimp only
          rcases Decidable.em (target = msg.targetNodeId) with htarget | hother
          · refine ⟨{ d.clearExpected with currentMsg := none }, ?_, ?_, rfl, rfl, rfl, rfl,
              hcommand, rfl⟩
            · rw [if_pos htarget]
              cases hpends : msg.pends with
              | true =>
                  have hitem : currentItem target d = [.sendMsg msg] := by
                    simp [currentItem, hcurrent, hcommand, htarget, hpends]
                  rw [hitem, List.foldl_cons, List.foldl_nil,
                    ← queueMsg_resetAttempts d.ccis pendingQueue (.sendMsg msg)]
                  rfl
              | false => simp [currentItem, hcurrent, hcommand, hpends]
            · simp [leftCurrent, hcommand, hcurrent, htarget, Option.filter]
          · refine ⟨d, ?_, ?_, rfl, rfl, rfl, rfl, hcommand, rfl⟩
            · simp [currentItem, hcurrent, hother]
            · simp [leftCurrent, hcommand, hcurrent, hother, Option.filter]

/-- The effect of the move on everything that holds a message, a query stage or
a controller command. -/
structure Moved (target : UInt8) (node : Node) (d d' : Driver) : Prop where
  current : d'.currentMsg = leftCurrent target d
  queues : ∀ q, q ≠ .controller ∨ d.currentControllerCommand = none →
    d'.msgQueue q = keptIn d.ccis target (d.msgQueue q)
  pending : d'.nodes target = some { node with
    wakeUp :=
      { awake := false
        pendingQueue := (movedItems target d).foldl (queueMsg d.ccis) node.wakeUp.pendingQueue } }
  nodes : ∀ n, n ≠ target → d'.nodes n = d.nodes n
  events : ∀ q, d'.queueEvent q = true → d'.msgQueue q ≠ []
  idle : d.currentControllerCommand = none →
    d'.currentControllerCommand = none ∧ d'.ccis = d.ccis
  busy : ∀ cci, d.currentControllerCommand = some cci → ∃ copy,
    d'.currentControllerCommand = some copy ∧
    d'.msgQueue .controller =
      keptIn d.ccis target (d.msgQueue .controller) ++ [.controller copy] ∧
    d'.ccis copy = (d.ccis cci).updated .sleeping .none

/-- The last step of the move, from a state in which the items have been moved. -/
theorem moved_requeueCommand {target : UInt8} {node node' : Node} {d f : Driver}
    (hcurrent : f.currentMsg = leftCurrent target d)
    (hqueues : ∀ q, f.msgQueue q = keptIn d.ccis target (d.msgQueue q))
    (hevents : ∀ q, f.queueEvent q = true → f.msgQueue q ≠ [])
    (hnode : f.nodes target = some node')
    (hpending : node' = { node with
      wakeUp :=
        { awake := false
          pendingQueue := (movedItems target d).foldl (queueMsg d.ccis)
            node.wakeUp.pendingQueue } })
    (hnodes : ∀ n, n ≠ target → f.nodes n = d.nodes n) (hccis : f.ccis = d.ccis)
    (hcommand : f.currentControllerCommand = d.currentControllerCommand) :
    Moved target node d f.requeueCommand := by
  cases hbusy : d.currentControllerCommand with
  | none =>
      have hidle : f.currentControllerCommand = none := hcommand.trans hbusy
      rw [requeueCommand, hidle]
      refine ⟨hcurrent, fun q _ => hqueues q, hpending ▸ hnode, hnodes, hevents,
        fun _ => ⟨hidle, hccis⟩, ?_⟩
      intro cci hsome
      cases hbusy.symm.trans hsome
  | some cci =>
      have hsome : f.currentControllerCommand = some cci := hcommand.trans hbusy
      generalize hupdated : f.updateControllerState .sleeping = g
      have hrequeue : f.requeueCommand =
          { (g.newCommand (g.ccis cci)).1 with
            currentControllerCommand := some g.nextCci }.pushBack .controller
              (.controller g.nextCci) := by
        rw [requeueCommand, hsome, ← hupdated]
        rfl
      have hqueue : g.msgQueue = f.msgQueue := hupdated ▸ msgQueue_updateControllerState _ _ _
      have hsame : g.nodes = f.nodes := hupdated ▸ nodes_updateControllerState _ _ _
      have hmsg : g.currentMsg = f.currentMsg := hupdated ▸ currentMsg_updateControllerState _ _ _
      have hevent : ∀ q, q ≠ .controller → g.queueEvent q = f.queueEvent q :=
        fun q hq => hupdated ▸ queueEvent_updateControllerState _ _ _ hq
      have hcopy : g.ccis cci = (d.ccis cci).updated .sleeping .none := by
        rw [← hupdated, updateControllerState, hsome, ← hccis]
        exact Function.update_self cci _ f.ccis
      have hcontroller : f.requeueCommand.msgQueue .controller =
          keptIn d.ccis target (d.msgQueue .controller) ++ [.controller g.nextCci] := by
        rw [hrequeue, ← hqueues, ← hqueue]
        exact Function.update_self MsgQueue.controller _ g.msgQueue
      have hother : ∀ q, q ≠ .controller → f.requeueCommand.msgQueue q = f.msgQueue q := by
        intro q hq
        rw [hrequeue, ← hqueue]
        exact Function.update_of_ne hq _ g.msgQueue
      refine ⟨?_, ?_, ?_, ?_, ?_, ?_, ?_⟩
      · rw [hrequeue, ← hcurrent]
        exact hmsg
      · rintro q (hq | hidle)
        · rw [hother q hq, hqueues]
        · cases hbusy.symm.trans hidle
      · rw [← hpending, ← hnode, hrequeue]
        exact congrFun hsame target
      · intro n hn
        rw [← hnodes n hn, hrequeue]
        exact congrFun hsame n
      · intro q hset
        rcases eq_or_ne q .controller with rfl | hq
        · rw [hcontroller]
          exact List.append_ne_nil_of_right_ne_nil _ (List.cons_ne_nil _ _)
        · rw [hother q hq]
          apply hevents
          rw [hrequeue] at hset
          exact (hevent q hq).symm.trans ((Function.update_of_ne hq ..).symm.trans hset)
      · intro hidle
        cases hbusy.symm.trans hidle
      · rintro c hc
        obtain rfl : cci = c := Option.some.inj (hbusy.symm.trans hc)
        refine ⟨g.nextCci, ?_, hcontroller, ?_⟩
        · rw [hrequeue]
          rfl
        · rw [hrequeue, ← hcopy]
          exact Function.update_self g.nextCci _ g.ccis

/-- Before the end of the move: the items have been moved, and the events of the
emptied queues are reset. -/
theorem moveMessages_eq (d : Driver) (node : Node) :
    ∃ f : Driver, d.moveMessages target node = f.requeueCommand ∧
      f.currentMsg = leftCurrent target d ∧
      (∀ q, f.msgQueue q = keptIn d.ccis target (d.msgQueue q)) ∧
      f.queueEvent = eventsAfter target d MsgQueue.all ∧
      f.nodes = Function.update d.nodes target (some { node with
        wakeUp :=
          { awake := false
            pendingQueue := (movedItems target d).foldl (queueMsg d.ccis)
              node.wakeUp.pendingQueue } }) ∧
      f.ccis = d.ccis ∧ f.currentControllerCommand = d.currentControllerCommand ∧
      f.nextCci = d.nextCci := by
  obtain ⟨e, hstep, hcurrent, hqueue, hevent, hnodes, hccis, hcommand, hnext⟩ :=
    moveCurrent_spec target d node.wakeUp.pendingQueue
  have hkept : ∀ q, queuesAfter target e MsgQueue.all q = keptIn d.ccis target (d.msgQueue q) := by
    intro q
    rw [queuesAfter, if_pos (MsgQueue.mem_all q), hqueue, hccis]
  have hevents : eventsAfter target e MsgQueue.all = eventsAfter target d MsgQueue.all := by
    ext q : 1
    rw [eventsAfter, eventsAfter, hqueue, hccis, hevent]
  have hloop : MsgQueue.all.foldl (moveStep target)
      (e, (currentItem target d).foldl (queueMsg d.ccis) node.wakeUp.pendingQueue) =
      ({ e with
          msgQueue := queuesAfter target e MsgQueue.all
          queueEvent := eventsAfter target e MsgQueue.all },
        (movedItems target d).foldl (queueMsg d.ccis) node.wakeUp.pendingQueue) := by
    rw [foldl_moveStep target e _ MsgQueue.all MsgQueue.nodup_all, movedItems, List.foldl_append,
      hccis, hqueue]
  simp only [moveMessages, hstep, hloop]
  exact ⟨_, rfl, hcurrent, hkept, hevents,
    congrArg (fun nodes => Function.update nodes target _) hnodes, hccis, hcommand, hnext⟩

theorem moved_moveMessages (d : Driver) (node : Node) :
    Moved target node d (d.moveMessages target node) := by
  obtain ⟨f, heq, hcurrent, hkept, hevents, hnodes, hccis, hcommand, -⟩ :=
    moveMessages_eq target d node
  have hset : ∀ q, f.queueEvent q = true → f.msgQueue q ≠ [] := by
    intro q hq hempty
    rw [hkept] at hempty
    rw [hevents, eventsAfter, if_pos ⟨MsgQueue.mem_all q, hempty⟩] at hq
    exact Bool.false_ne_true hq
  rw [heq]
  refine moved_requeueCommand hcurrent hkept hset ?_ rfl ?_ hccis hcommand
  · rw [hnodes, Function.update_self]
  · intro n hn
    rw [hnodes, Function.update_of_ne hn]

/-- What the move does with the events, and with a controller command in progress: a
copy of it, at a new address, is the last item of its queue. -/
structure Requeued (target : UInt8) (d d' : Driver) : Prop where
  events : ∀ q, q ≠ .controller ∨ d.currentControllerCommand = none →
    d'.queueEvent q = eventsAfter target d MsgQueue.all q
  idle : d.currentControllerCommand = none → d'.nextCci = d.nextCci
  busy : ∀ cci, d.currentControllerCommand = some cci →
    d'.currentControllerCommand = some d.nextCci ∧ d'.nextCci = d.nextCci + 1 ∧
    d'.queueEvent .controller = true ∧
    d'.msgQueue .controller =
      keptIn d.ccis target (d.msgQueue .controller) ++ [.controller d.nextCci] ∧
    d'.ccis = Function.update (Function.update d.ccis cci ((d.ccis cci).updated .sleeping .none))
      d.nextCci ((d.ccis cci).updated .sleeping .none)

theorem requeued_moveMessages (d : Driver) (node : Node) :
    Requeued target d (d.moveMessages target node) := by
  obtain ⟨f, heq, -, hkept, hevents, -, hccis, hcommand, hnext⟩ := moveMessages_eq target d node
  rw [heq]
  cases hbusy : d.currentControllerCommand with
  | none =>
      have hidle : f.requeueCommand = f := by
        rw [requeueCommand, hcommand, hbusy]
      rw [hidle]
      refine ⟨fun q _ => congrFun hevents q, fun _ => hnext, ?_⟩
      intro cci hsome
      cases hbusy.symm.trans hsome
  | some cci =>
      have hsome : f.currentControllerCommand = some cci := hcommand.trans hbusy
      refine ⟨?_, ?_, ?_⟩
      · rintro q (hq | hnone)
        · rw [← hevents, requeueCommand, hsome]
          exact (Function.update_of_ne hq ..).trans (queueEvent_updateControllerState _ _ _ hq)
        · cases hbusy.symm.trans hnone
      · intro hnone
        cases hbusy.symm.trans hnone
      · rintro c hc
        obtain rfl : cci = c := Option.some.inj (hbusy.symm.trans hc)
        rw [requeueCommand, hsome, ← hnext, ← hkept, ← hccis]
        simp [updateControllerState, hsome, newCommand, setCommand, pushBack, setQueue, setEvent]

theorem setAsleep_eq (d : Driver) (node : Node) :
    ∃ nodes notifications, d.setAsleep target node = { d with nodes, notifications } ∧
      ∀ n, n ≠ target → nodes n = d.nodes n := by
  rw [setAsleep]
  split
  · exact ⟨_, _, rfl, fun n hn => Function.update_of_ne hn ..⟩
  · exact ⟨d.nodes, d.notifications, rfl, fun _ _ => rfl⟩

/-- The check of the node queries changes two flags and the notifications. -/
theorem checkCompletedNodeQueries_eq (d : Driver) :
    ∃ allNodesQueried awakeNodesQueried notifications, d.checkCompletedNodeQueries =
      { d with allNodesQueried, awakeNodesQueried, notifications } := by
  rw [checkCompletedNodeQueries]
  split
  · exact ⟨_, _, _, rfl⟩
  · dsimp only
    split
    · exact ⟨_, _, _, rfl⟩
    · split <;> exact ⟨_, _, _, rfl⟩

/-- The nodes whose messages are moved. -/
def sleeps (d : Driver) (node : Node) : Prop :=
  node.listening = false ∧ node.frequentListening = false ∧ target ≠ d.controllerNodeId ∧
    node.getWakeUp.isSome

theorem moved_moveMessagesToWakeUpQueue {d : Driver} {node : Node}
    (hnode : d.nodes target = some node) (hsleeps : sleeps target d node) :
    (d.moveMessagesToWakeUpQueue target true).2 = true ∧
      Moved target node d (d.moveMessagesToWakeUpQueue target true).1 ∧
      Requeued target d (d.moveMessagesToWakeUpQueue target true).1 := by
  obtain ⟨hlistening, hfrequent, hcontroller, hwakeUp⟩ := hsleeps
  obtain ⟨wakeUp, hwakeUp⟩ := Option.isSome_iff_exists.mp hwakeUp
  have hmove : d.moveMessagesToWakeUpQueue target true =
      (((d.setAsleep target node).moveMessages target node).checkCompletedNodeQueries, true) := by
    simp [moveMessagesToWakeUpQueue, hnode, hlistening, hfrequent, hcontroller, hwakeUp]
  rw [hmove]
  refine ⟨rfl, ?_⟩
  obtain ⟨nodes, notifications, hasleep, hother⟩ := setAsleep_eq target d node
  rw [hasleep]
  have hmoved := moved_moveMessages target { d with nodes, notifications } node
  have hrequeued := requeued_moveMessages target { d with nodes, notifications } node
  generalize moveMessages { d with nodes, notifications } target node = e at hmoved hrequeued ⊢
  obtain ⟨all, awake, queried, hcheck⟩ := checkCompletedNodeQueries_eq e
  rw [hcheck]
  exact ⟨⟨hmoved.current, hmoved.queues, hmoved.pending,
      fun n hn => (hmoved.nodes n hn).trans (hother n hn), hmoved.events, hmoved.idle, hmoved.busy⟩,
    hrequeued.events, hrequeued.idle, hrequeued.busy⟩

/-- The result says that the messages have been moved. -/
theorem sleeps_of_moved {d : Driver} (h : (d.moveMessagesToWakeUpQueue target true).2 = true) :
    ∃ node, d.nodes target = some node ∧ sleeps target d node := by
  cases hnode : d.nodes target with
  | none => simp [moveMessagesToWakeUpQueue, hnode] at h
  | some node =>
      refine ⟨node, rfl, ?_⟩
      simp only [moveMessagesToWakeUpQueue, hnode] at h
      split at h
      · cases h
      · rename_i hkeeps
        split at h
        · cases h
        · rename_i wakeUp hwakeUp
          simp only [Bool.or_eq_true, beq_iff_eq, not_or, Bool.not_eq_true] at hkeeps
          obtain ⟨⟨hlistening, hfrequent⟩, hcontroller⟩ := hkeeps
          exact ⟨hlistening, hfrequent, hcontroller, Option.isSome_of_eq_some hwakeUp⟩

/-- Nothing happens, or the node is marked as asleep, or the messages are moved. -/
theorem moveMessagesToWakeUpQueue_cases (d : Driver) (move : Bool) :
    (d.moveMessagesToWakeUpQueue target move).1 = d ∨
    (∃ node, d.nodes target = some node ∧
      (d.moveMessagesToWakeUpQueue target move).1 = d.setAsleep target node) ∨
    move = true ∧ ∃ node, d.nodes target = some node ∧ sleeps target d node ∧
      Moved target node d (d.moveMessagesToWakeUpQueue target move).1 ∧
      Requeued target d (d.moveMessagesToWakeUpQueue target move).1 := by
  cases hresult : (d.moveMessagesToWakeUpQueue target move).2 with
  | true =>
      cases move with
      | true =>
          obtain ⟨node, hnode, hsleeps⟩ := sleeps_of_moved target hresult
          exact Or.inr (Or.inr ⟨rfl, node, hnode, hsleeps,
            (moved_moveMessagesToWakeUpQueue target hnode hsleeps).2⟩)
      | false =>
          revert hresult
          rw [moveMessagesToWakeUpQueue]
          split
          · exact nofun
          · split
            · exact nofun
            · split <;> exact nofun
  | false =>
      revert hresult
      rw [moveMessagesToWakeUpQueue]
      split
      · exact fun _ => Or.inl rfl
      · rename_i node hnode
        split
        · exact fun _ => Or.inl rfl
        · split
          · exact fun _ => Or.inl rfl
          · split
            · exact nofun
            · exact fun _ => Or.inr (Or.inl ⟨node, hnode, rfl⟩)

end Driver

end OpenZWave

import OpenZWave.Driver.Ledger

/-!
# The events of the send queues

The thread waits for the events of the send queues and takes the first item of a
queue whose event is set. An event is set only while its queue holds an item, and
while the queue holds one it is set, unless a controller command at the front is
in progress. `UpdateControllerState` sets an event without looking at the queue:
the queue is not empty since it holds the command.
-/

namespace OpenZWave

open Ledger Transition

namespace Driver

/-- The queue waits for the controller command at its front, which is in progress. -/
def Blocked (d : Driver) (queue : MsgQueue) : Prop :=
  queue = .controller ∧ ∃ cci items, d.msgQueue queue = .controller cci :: items ∧
    d.currentControllerCommand = some cci ∧ (d.ccis cci).done = false

/-- The events tell which queues hold items. -/
structure EventsMatch (d : Driver) : Prop where
  set : ∀ q, d.queueEvent q = true → d.msgQueue q ≠ []
  unset : ∀ q, d.msgQueue q ≠ [] → d.queueEvent q = true ∨ d.Blocked q

/-- Controller commands are in their own queue, where the current one is too. -/
structure CommandsPlaced (d : Driver) : Prop where
  placed : ∀ q cci, .controller cci ∈ d.msgQueue q → q = .controller ∧ cci < d.nextCci
  current : ∀ cci, d.currentControllerCommand = some cci →
    .controller cci ∈ d.msgQueue .controller

/-- What the events and the controller commands satisfy. -/
structure Signals (d : Driver) : Prop where
  events : d.EventsMatch
  commands : d.CommandsPlaced

section

variable {d d' : Driver}

/-! ## Small changes -/

/-- Only that a command is done matters of the commands. -/
theorem Signals.congr_done (h : d.Signals) (hqueues : d'.msgQueue = d.msgQueue)
    (hevents : d'.queueEvent = d.queueEvent)
    (hcommand : d'.currentControllerCommand = d.currentControllerCommand)
    (hdone : ∀ cci, (d'.ccis cci).done = (d.ccis cci).done) (hnext : d'.nextCci = d.nextCci) :
    d'.Signals where
  events := by
    refine ⟨?_, ?_⟩
    · rw [hqueues, hevents]
      exact h.events.set
    · intro q
      simp only [Blocked, hqueues, hevents, hcommand, hdone]
      exact h.events.unset q
  commands := by
    refine ⟨?_, ?_⟩
    · rw [hqueues, hnext]
      exact h.commands.placed
    · rw [hqueues, hcommand]
      exact h.commands.current

theorem Signals.congr (h : d.Signals) (hqueues : d'.msgQueue = d.msgQueue)
    (hevents : d'.queueEvent = d.queueEvent)
    (hcommand : d'.currentControllerCommand = d.currentControllerCommand)
    (hccis : d'.ccis = d.ccis) (hnext : d'.nextCci = d.nextCci) : d'.Signals :=
  h.congr_done hqueues hevents hcommand (fun cci => congrArg (fun ccis => (ccis cci).done) hccis)
    hnext

theorem Inert.signals (hinert : Inert d d') (h : d.Signals) : d'.Signals :=
  h.congr hinert.msgQueue hinert.queueEvent hinert.command hinert.ccis hinert.nextCci

/-- A queue without a command in progress at its front has its event set. -/
theorem Signals.event_set (h : d.Signals) {queue : MsgQueue} {item : MsgQueueItem}
    {items : List MsgQueueItem} (hqueue : d.msgQueue queue = item :: items)
    (hfree : ¬ d.Blocked queue) : d.queueEvent queue = true :=
  (h.events.unset queue (hqueue ▸ List.cons_ne_nil item items)).resolve_right hfree

theorem not_blocked_of_front {queue : MsgQueue} {item : MsgQueueItem} {items : List MsgQueueItem}
    (hqueue : d.msgQueue queue = item :: items) (hitem : ∀ cci, item ≠ .controller cci) :
    ¬ d.Blocked queue := by
  rintro ⟨-, cci, rest, hfront, -, -⟩
  exact hitem cci (List.cons.inj (hqueue.symm.trans hfront)).1

theorem signals_pushBack (h : d.Signals) {queue : MsgQueue} {item : MsgQueueItem}
    (hitem : ∀ cci, item = .controller cci → queue = .controller ∧ cci < d.nextCci) :
    (d.pushBack queue item).Signals := by
  have happended := appended_pushBack d queue item
  have hmem : ∀ q other, other ∈ (d.pushBack queue item).msgQueue q →
      other ∈ d.msgQueue q ∨ q = queue ∧ other = item := by
    intro q other hother
    rcases eq_or_ne q queue with rfl | hne
    · rw [happended.last] at hother
      rcases List.mem_append.mp hother with hold | hlast
      · exact Or.inl hold
      · exact Or.inr ⟨rfl, List.mem_singleton.mp hlast⟩
    · rw [happended.queues q hne] at hother
      exact Or.inl hother
  refine ⟨⟨fun q hset => ?_, fun q hne => ?_⟩, fun q cci hcci => ?_, fun cci hcommand => ?_⟩
  · rcases eq_or_ne q queue with rfl | hother
    · rw [happended.last]
      exact List.append_ne_nil_of_right_ne_nil _ (List.cons_ne_nil item [])
    · rw [happended.queues q hother]
      exact h.events.set q ((happended.events q hother).symm.trans hset)
  · rcases eq_or_ne q queue with rfl | hother
    · exact Or.inl happended.event
    · rw [happended.queues q hother] at hne
      rw [happended.events q hother, Blocked, happended.queues q hother]
      exact h.events.unset q hne
  · rcases hmem q _ hcci with hold | ⟨rfl, heq⟩
    · exact h.commands.placed q cci hold
    · exact hitem cci heq.symm
  · have hold := h.commands.current cci hcommand
    rcases eq_or_ne MsgQueue.controller queue with rfl | hother
    · rw [happended.last]
      exact List.mem_append_left _ hold
    · rwa [happended.queues _ hother]

/-- A new command at an address that nothing points to. -/
theorem signals_newCommand (h : d.Signals) (item : ControllerCommandItem) :
    (d.newCommand item).1.Signals where
  events := by
    refine ⟨h.events.set, fun q hne => ?_⟩
    rcases h.events.unset q hne with hset | ⟨rfl, cci, items, hfront, hcommand, hdone⟩
    · exact Or.inl hset
    · have hold := (h.commands.placed .controller cci (hfront ▸ List.mem_cons_self)).2
      refine Or.inr ⟨rfl, cci, items, hfront, hcommand, ?_⟩
      exact (congrArg ControllerCommandItem.done
        (Function.update_of_ne (Nat.ne_of_lt hold) ..)).trans hdone
  commands := by
    refine ⟨fun q cci hmem => ?_, h.commands.current⟩
    obtain ⟨hq, hlt⟩ := h.commands.placed q cci hmem
    exact ⟨hq, Nat.lt_succ_of_lt hlt⟩

theorem done_updated (item : ControllerCommandItem) (state : ControllerState)
    (error : ControllerError) :
    (item.updated state error).done =
      (item.done || (decide (state ≠ item.state) && state.final)) := by
  simp only [ControllerCommandItem.updated]
  by_cases hstate : state = item.state <;> by_cases herror : error = .none <;>
    simp [hstate, herror]

theorem signals_updateControllerState (h : d.Signals) (state : ControllerState)
    (error : ControllerError) : (d.updateControllerState state error).Signals := by
  rw [updateControllerState]
  split
  · exact h
  · rename_i cci hcommand
    have hmem := h.commands.current cci hcommand
    refine ⟨⟨fun q hset => ?_, fun q hne => ?_⟩, h.commands.placed, h.commands.current⟩
    · dsimp only at hset
      split at hset
      · rcases eq_or_ne q .controller with rfl | hq
        · exact List.ne_nil_of_mem hmem
        · rw [Function.update_of_ne hq] at hset
          exact h.events.set q hset
      · exact h.events.set q hset
    · dsimp only
      rcases h.events.unset q hne with hset | ⟨rfl, front, items, hfront, hcurrent, hdone⟩
      · refine Or.inl ?_
        split
        · rcases eq_or_ne q .controller with rfl | hq
          · exact Function.update_self ..
          · rw [Function.update_of_ne hq]
            exact hset
        · exact hset
      · obtain rfl := Option.some.inj (hcommand.symm.trans hcurrent)
        split
        · exact Or.inl (Function.update_self ..)
        · rename_i hkeeps
          refine Or.inr ⟨rfl, cci, items, hfront, hcommand, ?_⟩
          dsimp only
          rw [Function.update_self, done_updated, hdone]
          simpa [Bool.and_eq_false_iff] using hkeeps

/-! ## Items that leave their queues -/

/-- Items are taken out of the queues, the events of emptied queues are reset, and the
others are as they were. The command in progress stays, at the front if it was there. -/
theorem signals_left (h : d.Signals) (hqueues : ∀ q, (d'.msgQueue q).Sublist (d.msgQueue q))
    (hevents : ∀ q, d'.queueEvent q = if d'.msgQueue q = [] then false else d.queueEvent q)
    (hcommand : d'.currentControllerCommand = d.currentControllerCommand) (hccis : d'.ccis = d.ccis)
    (hnext : d'.nextCci = d.nextCci)
    (hcurrent : ∀ cci, d.currentControllerCommand = some cci →
      .controller cci ∈ d'.msgQueue .controller)
    (hfront : ∀ cci items, d.msgQueue .controller = .controller cci :: items →
      d.currentControllerCommand = some cci →
        ∃ items', d'.msgQueue .controller = .controller cci :: items') : d'.Signals where
  events := by
    refine ⟨fun q hset hempty => ?_, fun q hne => ?_⟩
    · rw [hevents, if_pos hempty] at hset
      exact Bool.false_ne_true hset
    · rw [hevents, if_neg hne]
      have hold : d.msgQueue q ≠ [] := fun hnil => hne (List.sublist_nil.mp (hnil ▸ hqueues q))
      rcases h.events.unset q hold with hset | ⟨rfl, cci, items, hbefore, hbusy, hdone⟩
      · exact Or.inl hset
      · obtain ⟨items', hafter⟩ := hfront cci items hbefore hbusy
        exact Or.inr ⟨rfl, cci, items', hafter, hcommand.trans hbusy, hccis ▸ hdone⟩
  commands := by
    refine ⟨fun q cci hmem => ?_, fun cci hbusy => hcurrent cci (hcommand.symm.trans hbusy)⟩
    rw [hnext]
    exact h.commands.placed q cci ((hqueues q).subset hmem)

theorem signals_eraseItems (h : d.Signals) (nodeId : UInt8) : (d.eraseItems nodeId).Signals := by
  have hstays : ∀ cci, d.currentControllerCommand = some cci →
      d.erases nodeId (.controller cci) = false := by
    intro cci hbusy
    simp [erases, hbusy]
  refine signals_left h (fun q => List.filter_sublist) (fun q => rfl) rfl rfl rfl ?_ ?_
  · intro cci hbusy
    refine List.mem_filter.mpr ⟨h.commands.current cci hbusy, ?_⟩
    rw [hstays cci hbusy]
    rfl
  · intro cci items hfront hbusy
    refine ⟨items.filter fun item => !d.erases nodeId item, ?_⟩
    change (d.msgQueue .controller).filter _ = _
    rw [hfront, List.filter_cons_of_pos (by rw [hstays cci hbusy]; rfl)]

/-- An event that is set tells that its queue holds an item. -/
theorem Signals.event_of_empty (h : d.Signals) {q : MsgQueue} (hempty : d.msgQueue q = []) :
    d.queueEvent q = false :=
  eq_false_of_ne_true fun hset => h.events.set q hset hempty

theorem queueEvent_popFront (d : Driver) (queue : MsgQueue) (items : List MsgQueueItem) :
    (d.popFront queue items).queueEvent =
      if items = [] then Function.update d.queueEvent queue false else d.queueEvent := by
  rw [popFront]
  split <;> rfl

/-- The first item of a queue, but for a command, is taken out. -/
theorem signals_popFront (h : d.Signals) {queue : MsgQueue} {item : MsgQueueItem}
    {items : List MsgQueueItem} (hqueue : d.msgQueue queue = item :: items)
    (hitem : ∀ cci, item ≠ .controller cci) : (d.popFront queue items).Signals := by
  have hself : (d.popFront queue items).msgQueue queue = items := by
    rw [msgQueue_popFront, Function.update_self]
  have hother : ∀ q, q ≠ queue → (d.popFront queue items).msgQueue q = d.msgQueue q := by
    intro q hne
    rw [msgQueue_popFront, Function.update_of_ne hne]
  have hrest : (d.popFront queue items).currentControllerCommand = d.currentControllerCommand ∧
      (d.popFront queue items).ccis = d.ccis ∧ (d.popFront queue items).nextCci = d.nextCci := by
    rw [popFront]
    split <;> exact ⟨rfl, rfl, rfl⟩
  refine signals_left h (fun q => ?_) (fun q => ?_) hrest.1 hrest.2.1 hrest.2.2 ?_ ?_
  · rcases eq_or_ne q queue with rfl | hne
    · rw [hself, hqueue]
      exact List.sublist_cons_self item items
    · rw [hother q hne]
  · rw [queueEvent_popFront]
    rcases eq_or_ne q queue with rfl | hne
    · rw [hself]
      split
      · exact Function.update_self ..
      · rfl
    · rw [hother q hne]
      have hsame : (if items = [] then Function.update d.queueEvent queue false
          else d.queueEvent) q = d.queueEvent q := by
        split
        · exact Function.update_of_ne hne ..
        · rfl
      rw [hsame]
      split
      · rename_i hempty
        exact h.event_of_empty hempty
      · rfl
  · intro cci hbusy
    have hmem := h.commands.current cci hbusy
    rcases eq_or_ne MsgQueue.controller queue with rfl | hne
    · rw [hqueue] at hmem
      rw [hself]
      exact (List.mem_cons.mp hmem).resolve_left fun heq => hitem cci heq.symm
    · rwa [hother _ hne]
  · intro cci rest hfront _
    rcases eq_or_ne MsgQueue.controller queue with rfl | hne
    · exact absurd (List.cons.inj (hqueue.symm.trans hfront)).1 (hitem cci)
    · exact ⟨rest, (hother _ hne).trans hfront⟩

/-! ## Calls -/

theorem signals_queueForWakeUp (h : d.Signals) (nodeId : UInt8) (node : Node)
    (item : MsgQueueItem) : (d.queueForWakeUp nodeId node item).Signals :=
  h.congr rfl rfl rfl rfl rfl

theorem signals_sendMsg (h : d.Signals) (msg : Msg) (queue : MsgQueue) :
    (d.sendMsg msg queue).Signals := by
  have hcounted : Signals { d with
      nextCallbackId := ((msg.setHomeId d.homeId).finalize d.nextCallbackId).2 } :=
    h.congr rfl rfl rfl rfl rfl
  cases hasleep : d.asleep msg.targetNodeId with
  | none =>
      rw [sendMsg_of_awake d msg queue hasleep]
      exact signals_pushBack hcounted nofun
  | some node =>
      cases hcommand : d.currentControllerCommand with
      | none =>
          rw [sendMsg_of_asleep d msg queue hasleep hcommand]
          exact signals_queueForWakeUp hcounted _ _ _
      | some cci =>
          rw [sendMsg_of_busy d msg queue hasleep hcommand]
          exact signals_queueForWakeUp
            (signals_updateControllerState (signals_newCommand hcounted _) _ _) _ _ _

theorem signals_sendQueryStageComplete (h : d.Signals) (nodeId : UInt8) (stage : QueryStage) :
    (d.sendQueryStageComplete nodeId stage).Signals := by
  rw [sendQueryStageComplete]
  split
  · exact h
  · split
    · exact signals_queueForWakeUp h _ _ _
    · exact signals_pushBack h fun _ hitem => by cases hitem

theorem signals_beginControllerCommand (h : d.Signals) (item : ControllerCommandItem) :
    (d.beginControllerCommand item).Signals := by
  rw [beginControllerCommand]
  split
  · exact h
  · apply signals_pushBack (signals_newCommand h _)
    rintro cci ⟨⟩
    exact ⟨rfl, Nat.lt_succ_self _⟩

theorem signals_removeCurrentMsg (h : d.Signals) : d.removeCurrentMsg.Signals :=
  h.congr rfl rfl rfl rfl rfl

theorem signals_removeQueues (h : d.Signals) (nodeId : UInt8) : (d.removeQueues nodeId).Signals := by
  rw [removeQueues]
  split
  · split
    · exact signals_eraseItems (signals_removeCurrentMsg h) nodeId
    · exact signals_eraseItems h nodeId
  · exact signals_eraseItems h nodeId

/-- The messages of a node that goes to sleep are moved. A command in progress is
replaced by a copy, which is the last item of its queue. -/
theorem signals_moved (h : d.Signals) {target : UInt8} {node : Node} (hmoved : Moved target node d d')
    (hrequeued : Requeued target d d') : d'.Signals := by
  cases hcommand : d.currentControllerCommand with
  | none =>
      have hkept : ∀ q, d'.msgQueue q = keptIn d.ccis target (d.msgQueue q) :=
        fun q => hmoved.queues q (Or.inr hcommand)
      obtain ⟨hidle, hccis⟩ := hmoved.idle hcommand
      refine signals_left h (fun q => ?_) (fun q => ?_) (hidle.trans hcommand.symm) hccis
        (hrequeued.idle hcommand) ?_ ?_
      · rw [hkept]
        exact List.filter_sublist
      · rw [hrequeued.events q (Or.inr hcommand), hkept, eventsAfter]
        simp only [MsgQueue.mem_all, true_and]
      · intro cci hbusy
        cases hcommand.symm.trans hbusy
      · intro cci items _ hbusy
        cases hcommand.symm.trans hbusy
  | some cci =>
      obtain ⟨hcopy, hnext, hset, hcontroller, -⟩ := hrequeued.busy cci hcommand
      have hkept : ∀ q, q ≠ .controller → d'.msgQueue q = keptIn d.ccis target (d.msgQueue q) :=
        fun q hq => hmoved.queues q (Or.inl hq)
      refine ⟨⟨hmoved.events, fun q hne => ?_⟩, fun q other hmem => ?_, fun other hbusy => ?_⟩
      · rcases eq_or_ne q .controller with rfl | hq
        · exact Or.inl hset
        · refine Or.inl ?_
          rw [hkept q hq] at hne
          rw [hrequeued.events q (Or.inl hq), eventsAfter, if_neg (fun hempty => hne hempty.2)]
          have hold : d.msgQueue q ≠ [] := by
            rintro hnil
            exact hne (by rw [hnil]; rfl)
          exact (h.events.unset q hold).resolve_right fun hblocked => hq hblocked.1
      · rw [hnext]
        rcases eq_or_ne q .controller with rfl | hq
        · refine ⟨rfl, ?_⟩
          rw [hcontroller] at hmem
          rcases List.mem_append.mp hmem with hold | hlast
          · exact Nat.lt_succ_of_lt
              (h.commands.placed .controller other (List.mem_of_mem_filter hold)).2
          · obtain rfl := MsgQueueItem.controller.inj (List.mem_singleton.mp hlast)
            exact Nat.lt_succ_self _
        · rw [hkept q hq] at hmem
          exact absurd (h.commands.placed q other (List.mem_of_mem_filter hmem)).1 hq
      · obtain rfl := Option.some.inj (hcopy.symm.trans hbusy)
        rw [hcontroller]
        exact List.mem_append_right _ (List.mem_singleton_self _)

theorem signals_moveMessagesToWakeUpQueue (h : d.Signals) (target : UInt8) (move : Bool) :
    (d.moveMessagesToWakeUpQueue target move).1.Signals := by
  rcases moveMessagesToWakeUpQueue_cases target d move with
    hsame | ⟨node, -, hasleep⟩ | ⟨-, node, -, -, hmoved, hrequeued⟩
  · rwa [hsame]
  · obtain ⟨nodes, notifications, heq, -⟩ := setAsleep_eq target d node
    rw [hasleep, heq]
    exact h.congr rfl rfl rfl rfl rfl
  · exact signals_moved h hmoved hrequeued

theorem signals_sendPendingItem (h : d.Signals) (item : MsgQueueItem) :
    (d.sendPendingItem item).Signals := by
  cases item with
  | sendMsg msg => exact signals_sendMsg h msg .wakeUp
  | queryStageComplete nodeId stage retry => exact signals_sendQueryStageComplete h nodeId stage
  | controller cci => exact signals_beginControllerCommand h (d.ccis cci)
  | reloadNode nodeId => exact h

theorem signals_sendPending (h : d.Signals) (items : List MsgQueueItem) :
    (items.foldl sendPendingItem d).Signals := by
  induction items generalizing d with
  | nil => exact h
  | cons item items ih => exact ih (signals_sendPendingItem h item)

theorem signals_wakeUp (h : d.Signals) (nodeId : UInt8) : (d.wakeUp nodeId).Signals := by
  rw [wakeUp]
  split
  · exact h
  · split
    · exact h
    · apply signals_sendPending
      split <;> exact h.congr rfl rfl rfl rfl rfl

theorem markRetry_eq_nil_iff {nodeId : UInt8} {stage : QueryStage} {items : List MsgQueueItem} :
    markRetry nodeId stage items = [] ↔ items = [] := by
  cases items with
  | nil => rfl
  | cons item items =>
      cases item <;> simp only [markRetry, List.cons_ne_nil]
      split <;> simp

theorem mem_markRetry_controller {nodeId : UInt8} {stage : QueryStage} {items : List MsgQueueItem}
    {cci : CciRef} :
    MsgQueueItem.controller cci ∈ markRetry nodeId stage items ↔
      MsgQueueItem.controller cci ∈ items := by
  induction items with
  | nil => rfl
  | cons item items ih =>
      cases item <;> simp only [markRetry, List.mem_cons, ih]
      split <;> simp [ih]

theorem signals_retryQueryStageComplete (h : d.Signals) (nodeId : UInt8) (stage : QueryStage) :
    (d.setQueue .query (markRetry nodeId stage (d.msgQueue .query))).Signals := by
  have hquery : (d.setQueue .query (markRetry nodeId stage (d.msgQueue .query))).msgQueue .query =
      markRetry nodeId stage (d.msgQueue .query) := Function.update_self MsgQueue.query _ d.msgQueue
  have hother : ∀ q, q ≠ .query →
      (d.setQueue .query (markRetry nodeId stage (d.msgQueue .query))).msgQueue q =
        d.msgQueue q := fun q hq => Function.update_of_ne hq ..
  have hempty : ∀ q,
      (d.setQueue .query (markRetry nodeId stage (d.msgQueue .query))).msgQueue q = [] ↔
        d.msgQueue q = [] := by
    intro q
    rcases eq_or_ne q .query with rfl | hq
    · rw [hquery]
      exact markRetry_eq_nil_iff
    · rw [hother q hq]
  have hcontroller := hother .controller nofun
  refine ⟨⟨fun q hset => ?_, fun q hne => ?_⟩, fun q cci hcci => ?_, fun cci hcommand => ?_⟩
  · exact (not_congr (hempty q)).mpr (h.events.set q hset)
  · rcases h.events.unset q ((not_congr (hempty q)).mp hne) with
      hset | ⟨rfl, cci, items, hfront, hcommand, hdone⟩
    · exact Or.inl hset
    · exact Or.inr ⟨rfl, cci, items, hcontroller.trans hfront, hcommand, hdone⟩
  · rcases eq_or_ne q .query with rfl | hq
    · rw [hquery] at hcci
      exact h.commands.placed .query cci (mem_markRetry_controller.mp hcci)
    · rw [hother q hq] at hcci
      exact h.commands.placed q cci hcci
  · rw [hcontroller]
    exact h.commands.current cci hcommand

theorem signals_call (h : d.Signals) (c : DriverCall) : (d.call c).Signals := by
  cases c with
  | sendMsg msg queue => exact (signals_sendMsg h msg queue).congr rfl rfl rfl rfl rfl
  | sendQueryStageComplete nodeId stage => exact signals_sendQueryStageComplete h nodeId stage
  | retryQueryStageComplete nodeId stage => exact signals_retryQueryStageComplete h nodeId stage
  | beginControllerCommand item => exact signals_beginControllerCommand h item
  | updateControllerState state error => exact signals_updateControllerState h state error
  | moveMessagesToWakeUpQueue target move => exact signals_moveMessagesToWakeUpQueue h target move
  | removeCurrentMsg => exact signals_removeCurrentMsg h
  | removeQueues nodeId => exact signals_removeQueues h nodeId
  | wakeUp nodeId => exact signals_wakeUp h nodeId
  | newNode nodeId node => exact h.congr rfl rfl rfl rfl rfl
  | changeNode nodeId node =>
      rw [call]
      split
      · exact h
      · exact h.congr rfl rfl rfl rfl rfl
  | deleteNode nodeId => exact h.congr rfl rfl rfl rfl rfl

/-! ## Events -/

theorem signals_dropCurrent (h : d.Signals) : d.dropCurrent.Signals :=
  signals_removeCurrentMsg (signals_updateControllerState h .error .failed)

theorem signals_transmit (h : d.Signals) (msg : Msg) (port : Bool) :
    (d.transmit msg port).1.Signals := by
  rw [transmit]
  split
  · split
    · rw [sendEncryptedMessage]
      split
      · exact h
      · exact h.congr rfl rfl rfl rfl rfl
    · exact h.congr rfl rfl rfl rfl rfl
  · dsimp only
    split <;> exact h.congr rfl rfl rfl rfl rfl

theorem signals_writeMsg (h : d.Signals) (nonce : Vector UInt8 8) (port : Bool) :
    (d.writeMsg nonce port).1.Signals := by
  have hcounted : d.countReport.Signals := h.congr rfl rfl rfl rfl rfl
  rcases writeMsg_cases d nonce port with
    ⟨-, hwrite⟩ | ⟨msg, -, ⟨-, ⟨-, hwrite⟩ | ⟨-, hwrite⟩⟩ |
      ⟨-, ⟨-, hwrite⟩ | ⟨-, ⟨-, hwrite⟩ | ⟨-, hwrite⟩⟩⟩⟩ <;> rw [hwrite]
  · exact h.congr rfl rfl rfl rfl rfl
  · exact signals_dropCurrent h
  · exact signals_transmit (d := d.attempt msg) (h.congr rfl rfl rfl rfl rfl) _ port
  · exact signals_dropCurrent hcounted
  · exact hcounted.congr rfl rfl rfl rfl rfl
  · exact signals_transmit hcounted msg port

theorem ccis_popFront (d : Driver) (queue : MsgQueue) (items : List MsgQueueItem) :
    (d.popFront queue items).ccis = d.ccis := by
  rw [popFront]
  split <;> rfl

theorem nextCci_popFront (d : Driver) (queue : MsgQueue) (items : List MsgQueueItem) :
    (d.popFront queue items).nextCci = d.nextCci := by
  rw [popFront]
  split <;> rfl

theorem command_popFront (d : Driver) (queue : MsgQueue) (items : List MsgQueueItem) :
    (d.popFront queue items).currentControllerCommand = d.currentControllerCommand := by
  rw [popFront]
  split <;> rfl

/-- An item that is taken out and put back, with the event. -/
theorem signals_putBack (h : d.Signals) {queue : MsgQueue} {item : MsgQueueItem}
    {items : List MsgQueueItem} (hqueue : d.msgQueue queue = item :: items)
    (hitem : ∀ cci, item ≠ .controller cci) :
    (((d.popFront queue items).setQueue queue (item :: items)).setEvent queue true).Signals := by
  have hset := h.event_set hqueue (not_blocked_of_front hqueue hitem)
  refine h.congr ?_ ?_ (command_popFront d queue items) (ccis_popFront d queue items)
    (nextCci_popFront d queue items)
  · ext1 q
    rcases eq_or_ne q queue with rfl | hne
    · exact (Function.update_self ..).trans hqueue.symm
    · refine (Function.update_of_ne hne ..).trans ?_
      rw [msgQueue_popFront, Function.update_of_ne hne]
  · ext1 q
    rcases eq_or_ne q queue with rfl | hne
    · exact (Function.update_self ..).trans hset.symm
    · refine (Function.update_of_ne hne ..).trans ?_
      change (d.popFront queue items).queueEvent q = _
      rw [queueEvent_popFront]
      split
      · exact Function.update_of_ne hne ..
      · rfl

/-- The command at the front of its queue becomes the current one. -/
theorem signals_takeCommand (h : d.Signals) {cci : CciRef} {items : List MsgQueueItem}
    (hqueue : d.msgQueue .controller = .controller cci :: items) :
    Signals { d with currentControllerCommand := some cci } where
  events := by
    refine ⟨h.events.set, fun q hne => ?_⟩
    rcases h.events.unset q hne with hset | ⟨rfl, front, rest, hfront, -, hdone⟩
    · exact Or.inl hset
    · obtain ⟨heq, -⟩ := List.cons.inj (hqueue.symm.trans hfront)
      obtain rfl := MsgQueueItem.controller.inj heq
      exact Or.inr ⟨rfl, cci, items, hqueue, rfl, hdone⟩
  commands := by
    refine ⟨h.commands.placed, ?_⟩
    rintro _ ⟨⟩
    rw [hqueue]
    exact List.mem_cons_self

/-- A command that is done leaves its queue. -/
theorem signals_endCommand (h : d.Signals) {cci : CciRef} {items : List MsgQueueItem}
    (hqueue : d.msgQueue .controller = .controller cci :: items) (hdone : (d.ccis cci).done = true) :
    Signals { d.popFront .controller items with currentControllerCommand := none } := by
  have hfree : ¬ d.Blocked .controller := by
    rintro ⟨-, front, rest, hfront, -, hrunning⟩
    obtain ⟨heq, -⟩ := List.cons.inj (hqueue.symm.trans hfront)
    obtain rfl := MsgQueueItem.controller.inj heq
    exact Bool.false_ne_true (hrunning.symm.trans hdone)
  have hset := h.event_set hqueue hfree
  have hself : (d.popFront .controller items).msgQueue .controller = items := by
    rw [msgQueue_popFront, Function.update_self]
  have hother : ∀ q, q ≠ .controller → (d.popFront .controller items).msgQueue q = d.msgQueue q := by
    intro q hne
    rw [msgQueue_popFront, Function.update_of_ne hne]
  have hevent : (d.popFront .controller items).queueEvent .controller = decide (items ≠ []) := by
    rw [queueEvent_popFront]
    by_cases hempty : items = []
    · rw [if_pos hempty, Function.update_self, hempty]
      rfl
    · rw [if_neg hempty, hset, decide_eq_true hempty]
  have hevents : ∀ q, q ≠ .controller →
      (d.popFront .controller items).queueEvent q = d.queueEvent q := by
    intro q hne
    rw [queueEvent_popFront]
    split
    · exact Function.update_of_ne hne ..
    · rfl
  refine ⟨⟨fun q hq => ?_, fun q hne => Or.inl ?_⟩, fun q other hmem => ?_, nofun⟩
  · rcases eq_or_ne q .controller with rfl | hqueue'
    · rw [hself]
      exact of_decide_eq_true (hevent.symm.trans hq)
    · rw [hother q hqueue']
      exact h.events.set q ((hevents q hqueue').symm.trans hq)
  · rcases eq_or_ne q .controller with rfl | hqueue'
    · rw [hself] at hne
      exact hevent.trans (decide_eq_true hne)
    · rw [hother q hqueue'] at hne
      exact (hevents q hqueue').trans
        ((h.events.unset q hne).resolve_right fun hblocked => hqueue' hblocked.1)
  · have hold : MsgQueueItem.controller other ∈ d.msgQueue q := by
      rcases eq_or_ne q .controller with rfl | hqueue'
      · rw [hself] at hmem
        rw [hqueue]
        exact List.mem_cons_of_mem _ hmem
      · rwa [hother q hqueue'] at hmem
    have hnext : (d.popFront .controller items).nextCci = d.nextCci := nextCci_popFront ..
    rw [show ({ d.popFront .controller items with currentControllerCommand := none } : Driver).nextCci
      = d.nextCci from hnext]
    exact h.commands.placed q other hold

/-- The command in progress has nothing to do. -/
theorem signals_waitCommand (h : d.Signals) {cci : CciRef} {items : List MsgQueueItem}
    (hqueue : d.msgQueue .controller = .controller cci :: items)
    (hcommand : d.currentControllerCommand = some cci) (hdone : (d.ccis cci).done = false) :
    (d.setEvent .controller false).Signals where
  events := by
    refine ⟨fun q hset => ?_, fun q hne => ?_⟩
    · rcases eq_or_ne q .controller with rfl | hq
      · simp [setEvent] at hset
      · exact h.events.set q ((Function.update_of_ne hq ..).symm.trans hset)
    · rcases eq_or_ne q .controller with rfl | hq
      · exact Or.inr ⟨rfl, cci, items, hqueue, hcommand, hdone⟩
      · refine Or.inl ((Function.update_of_ne hq ..).trans ?_)
        exact (h.events.unset q hne).resolve_right fun hblocked => hq hblocked.1
  commands := ⟨h.commands.placed, h.commands.current⟩

/-- A command is written that is done or not as before. -/
theorem signals_setCommand (h : d.Signals) {cci : CciRef} {item : ControllerCommandItem}
    (hdone : item.done = (d.ccis cci).done) : (d.setCommand cci item).Signals := by
  refine h.congr_done rfl rfl rfl (fun other => ?_) rfl
  change (Function.update d.ccis cci item other).done = _
  rcases eq_or_ne other cci with rfl | hne
  · rw [Function.update_self, hdone]
  · rw [Function.update_of_ne hne]

theorem signals_writeNextMsg (h : d.Signals) (queue : MsgQueue) (nonce : Vector UInt8 8)
    (port : Bool) : (d.writeNextMsg queue nonce port).1.Signals := by
  rw [writeNextMsg]
  cases hqueue : d.msgQueue queue with
  | nil => exact h
  | cons item items =>
      cases item with
      | sendMsg msg =>
          have htaken : Signals { d with currentMsg := some msg, currentMsgQueueSource := queue } :=
            h.congr rfl rfl rfl rfl rfl
          dsimp only
          apply signals_writeMsg
          split
          · exact signals_putBack htaken hqueue fun _ hitem => by cases hitem
          · exact signals_popFront htaken hqueue fun _ hitem => by cases hitem
      | queryStageComplete nodeId stage retry =>
          have hnone : Signals { d with currentMsg := none } := h.congr rfl rfl rfl rfl rfl
          exact signals_popFront hnone hqueue fun _ hitem => by cases hitem
      | controller cci =>
          obtain ⟨rfl, -⟩ := h.commands.placed queue cci (hqueue ▸ List.mem_cons_self)
          have htaken := signals_takeCommand h hqueue
          dsimp only
          split
          · rename_i hdone
            exact signals_endCommand htaken hqueue hdone
          · rename_i hdone
            split
            · exact htaken
            · split
              · exact signals_setCommand htaken rfl
              · exact signals_waitCommand htaken hqueue rfl (eq_false_of_ne_true hdone)
      | reloadNode nodeId => exact signals_popFront h hqueue fun _ hitem => by cases hitem

theorem signals_leads {t : CallTrace} (hleads : Leads d t d') (h : d.Signals) : d'.Signals :=
  hleads.invariant (P := fun _ _ => True) Inert.signals (fun _ c _ hs => signals_call hs c)
    (fun _ _ => trivial) h

theorem signals_processMsg (h : d.Signals) (f : Received) : (d.processMsg f).1.Signals := by
  cases hreport : f.isSecurity && f.data.getD 6 0 == SecurityCmd.nonceReport with
  | true =>
      rw [processMsg_of_isNonceReport d hreport, receiveNonce]
      split
      · exact h
      · exact h.congr rfl rfl rfl rfl rfl
  | false => exact signals_leads (leads_processMsg d f hreport) h

theorem signals_readCanOrNak (h : d.Signals) : d.readCanOrNak.Signals := by
  rw [readCanOrNak]
  split
  · exact h
  · exact h.congr rfl rfl rfl rfl rfl

theorem signals_waitTimeout (h : d.Signals) (nonce : Vector UInt8 8) (port : Bool) :
    (d.waitTimeout nonce port).Signals := by
  rw [waitTimeout]
  apply signals_writeMsg
  split
  · exact h
  · split
    · exact h
    · exact h.congr rfl rfl rfl rfl rfl

theorem signals_step (h : d.Signals) (e : Event) : (d.step e).Signals := by
  cases e with
  | call c => exact signals_call h c
  | frame f => exact signals_processMsg h f
  | ack => exact signals_leads (leads_readAck d) h
  | can => exact signals_readCanOrNak h
  | nak => exact signals_readCanOrNak h
  | timeout nonce port =>
      rw [step]
      split
      · exact signals_waitTimeout h nonce port
      · exact h
  | writeNext queue nonce port =>
      rw [step]
      split
      · exact signals_writeNextMsg h queue nonce port
      · exact h

theorem signals_new (homeId : UInt32) (controllerNodeId : UInt8) :
    (new homeId controllerNodeId).Signals :=
  ⟨⟨nofun, fun _ hne => absurd rfl hne⟩, nofun, nofun⟩

theorem signals_after (homeId : UInt32) (controllerNodeId : UInt8) (events : List Event) :
    (run step (new homeId controllerNodeId) events).Signals :=
  run_invariant step (I := Signals) (fun _ e hs => signals_step hs e)
    (signals_new homeId controllerNodeId) events

end

end Driver

end OpenZWave

import OpenZWave.Driver.Run

/-!
# What is held and what is written

A policy says what holds of every message in the queues, in the Wake Up queues
and in the current message, and of the frames written so far. The lemmas follow
the messages through every operation of the driver: none of them makes a message
that was not held or asked for, and only a nonce report from a node puts a nonce
into one.
-/

namespace OpenZWave

open ByteBuffer

/-- A nonce report: the bytes behind the command are the nonce. -/
def Received.isNonceReport (f : Received) : Bool :=
  f.isSecurity && f.data.getD 6 0 == SecurityCmd.nonceReport

/-- The nonce in a report. -/
def Received.reported (f : Received) : Vector UInt8 8 :=
  Vector.ofFn fun i => f.data.getD (7 + i) 0

def Event.isNonceReport : Event → Bool
  | .frame f => f.isNonceReport
  | _ => false

/-- The message again, with other bytes, other counters or a mark it did not
have. -/
structure Msg.Descends (m m' : Msg) : Prop where
  id : m'.id = m.id
  nonce : m'.nonceRecvd = true → m.nonceRecvd = true
  mark : m.encrypted = true → m'.encrypted = true

/-- What is asked of the messages, of the frames that are written and of the
requests, such that nothing but a nonce report can break it. -/
structure Policy where
  msg : Msg → Prop
  written : List Written → Prop
  request : Msg × Option Node → Prop
  descends : ∀ {m m' : Msg}, m.Descends m' → msg m → msg m'
  admits : ∀ {d : Driver} {m : Msg}, request (m, d.nodes m.targetNodeId) → msg (d.prepare m)
  nonceGet : ∀ {frames : List Written} (nodeId : UInt8), written frames →
    written (frames ++ [.nonceGet nodeId])
  nonceReport : ∀ {frames : List Written} (nodeId : UInt8) (nonce : Vector UInt8 8),
    written frames → written (frames ++ [.nonceReport nodeId nonce])
  frame : ∀ {frames : List Written} {m : Msg}, msg m →
    (m.encrypted = true → m.nonceRecvd = true) → written frames → written (frames ++ [m.written])

def MsgQueueItem.Allowed (p : Policy) : MsgQueueItem → Prop
  | .sendMsg msg => p.msg msg
  | _ => True

/-- Every message that is held, and what has been written, is as the policy asks. -/
structure Driver.Held (p : Policy) (d : Driver) : Prop where
  queues : ∀ q, ∀ item ∈ d.msgQueue q, item.Allowed p
  pending : ∀ n node, d.nodes n = some node → ∀ item ∈ node.wakeUp.pendingQueue, item.Allowed p
  current : ∀ msg, d.currentMsg = some msg → p.msg msg
  written : p.written d.written

section

variable {p : Policy}

theorem MsgQueueItem.allowed_resetAttempts {item : MsgQueueItem} (h : item.Allowed p) :
    item.resetAttempts.Allowed p := by
  cases item with
  | sendMsg msg =>
      have hreset : msg.Descends (msg.setSendAttempts 0) := ⟨rfl, id, id⟩
      exact p.descends hreset h
  | queryStageComplete nodeId stage retry => trivial
  | controller cci => trivial
  | reloadNode nodeId => trivial

theorem allowed_foldl_queueMsg {ccis : CciHeap} {items pendingQueue : List MsgQueueItem}
    (hitems : ∀ item ∈ items, item.Allowed p) (hpending : ∀ item ∈ pendingQueue, item.Allowed p) :
    ∀ item ∈ items.foldl (queueMsg ccis) pendingQueue, item.Allowed p := by
  induction items generalizing pendingQueue with
  | nil => exact hpending
  | cons first items ih =>
      obtain ⟨hfirst, hitems⟩ := List.forall_mem_cons.mp hitems
      apply ih hitems
      intro item hmem
      rcases List.mem_append.mp hmem with hold | hnew
      · exact hpending item (List.mem_of_mem_filter hold)
      · obtain rfl := List.mem_singleton.mp hnew
        exact MsgQueueItem.allowed_resetAttempts hfirst

namespace Driver

variable {d : Driver}

theorem held_setQueue (h : Held p d) (queue : MsgQueue) {items : List MsgQueueItem}
    (hitems : ∀ item ∈ items, item.Allowed p) : Held p (d.setQueue queue items) where
  queues q item hmem := by
    change item ∈ Function.update d.msgQueue queue items q at hmem
    rcases eq_or_ne q queue with rfl | hne
    · rw [Function.update_self] at hmem
      exact hitems item hmem
    · rw [Function.update_of_ne hne] at hmem
      exact h.queues q item hmem
  pending := h.pending
  current := h.current
  written := h.written

theorem held_pushBack (h : Held p d) (queue : MsgQueue) {item : MsgQueueItem}
    (hitem : item.Allowed p) : Held p (d.pushBack queue item) := by
  have hitems : ∀ queued ∈ d.msgQueue queue ++ [item], queued.Allowed p := by
    intro queued hmem
    rcases List.mem_append.mp hmem with hold | hnew
    · exact h.queues queue queued hold
    · exact List.mem_singleton.mp hnew ▸ hitem
  obtain ⟨hqueues, hpending, hcurrent, hwritten⟩ := held_setQueue h queue hitems
  exact ⟨hqueues, hpending, hcurrent, hwritten⟩

theorem held_setNode (h : Held p d) (nodeId : UInt8) {node : Option Node}
    (hnode : ∀ n, node = some n → ∀ item ∈ n.wakeUp.pendingQueue, item.Allowed p) :
    Held p (d.setNode nodeId node) where
  queues := h.queues
  pending n held hheld := by
    change Function.update d.nodes nodeId node n = some held at hheld
    rcases eq_or_ne n nodeId with rfl | hne
    · rw [Function.update_self] at hheld
      exact hnode held hheld
    · rw [Function.update_of_ne hne] at hheld
      exact h.pending n held hheld
  current := h.current
  written := h.written

theorem held_setWakeUp (h : Held p d) (nodeId : UInt8) (node : Node) {wakeUp : WakeUp}
    (hpending : ∀ item ∈ wakeUp.pendingQueue, item.Allowed p) :
    Held p (d.setWakeUp nodeId node wakeUp) := by
  apply held_setNode h
  rintro n ⟨⟩
  exact hpending

theorem held_queueForWakeUp (h : Held p d) {nodeId : UInt8} {node : Node}
    (hnode : d.nodes nodeId = some node) {item : MsgQueueItem} (hitem : item.Allowed p) :
    Held p (d.queueForWakeUp nodeId node item) :=
  held_setWakeUp h nodeId node (allowed_foldl_queueMsg
    (List.forall_mem_singleton.mpr hitem) (h.pending nodeId node hnode))

theorem held_write (h : Held p d) {frame : Written} (hframe : p.written (d.written ++ [frame])) :
    Held p (d.write frame) where
  queues := h.queues
  pending := h.pending
  current := h.current
  written := hframe

theorem held_setCurrent (h : Held p d) {msg : Msg} (hmsg : p.msg msg) :
    Held p { d with currentMsg := some msg } where
  queues := h.queues
  pending := h.pending
  current := by
    rintro _ ⟨⟩
    exact hmsg
  written := h.written

theorem held_removeCurrentMsg (h : Held p d) : Held p d.removeCurrentMsg where
  queues := h.queues
  pending := h.pending
  current := by
    rintro _ ⟨⟩
  written := h.written

theorem held_updateControllerState (h : Held p d) (state : ControllerState)
    (error : ControllerError) : Held p (d.updateControllerState state error) := by
  rw [updateControllerState]
  split
  · exact h
  · exact ⟨h.queues, h.pending, h.current, h.written⟩

theorem requests_updateControllerState (d : Driver) (state : ControllerState)
    (error : ControllerError) : (d.updateControllerState state error).requests = d.requests := by
  rw [updateControllerState]
  split <;> rfl

theorem held_newCommand (h : Held p d) (item : ControllerCommandItem) :
    Held p (d.newCommand item).1 :=
  ⟨h.queues, h.pending, h.current, h.written⟩

/-! ## Sending -/

/-- A message that is sent may be marked, and its nonce stays as it is. -/
theorem descends_prepare (d : Driver) (msg : Msg) : msg.Descends (d.prepare msg) where
  id := id_prepare d msg
  nonce := by
    intro h
    rw [prepare] at h
    split at h
    · rwa [Msg.setEncrypted, Msg.finalize_eq] at h
    · rwa [Msg.finalize_eq] at h
  mark := by
    intro h
    rw [prepare]
    split
    · rfl
    · exact (Msg.encrypted_finalize _ _).trans h

theorem nodes_of_asleep {nodeId : UInt8} {node : Node} (h : d.asleep nodeId = some node) :
    d.nodes nodeId = some node := by
  cases hnode : d.nodes nodeId with
  | none => simp [asleep, hnode] at h
  | some found =>
      simp only [asleep, hnode] at h
      split at h
      · cases h
      · split at h
        · cases h
        · split at h
          · cases h
          · exact h

theorem requests_sendMsg (d : Driver) (msg : Msg) (queue : MsgQueue) :
    (d.sendMsg msg queue).requests = d.requests := by
  simp only [sendMsg]
  split
  · rfl
  · split
    · rfl
    · exact requests_updateControllerState _ _ _

theorem held_sendMsg (h : Held p d) {msg : Msg} (hmsg : p.msg (d.prepare msg))
    (queue : MsgQueue) : Held p (d.sendMsg msg queue) := by
  have hcounted : Held p { d with
      nextCallbackId := ((msg.setHomeId d.homeId).finalize d.nextCallbackId).2 } :=
    ⟨h.queues, h.pending, h.current, h.written⟩
  simp only [sendMsg]
  split
  · exact held_pushBack hcounted queue hmsg
  · rename_i node hasleep
    have hnode := nodes_of_asleep hasleep
    split
    · exact held_queueForWakeUp hcounted hnode hmsg
    · apply held_queueForWakeUp
      · exact held_updateControllerState (held_newCommand hcounted _) _ _
      · rw [nodes_updateControllerState]
        exact hnode
      · trivial

/-- A step that sends no new message and keeps those that are held veiled. -/
structure Tends (p : Policy) (d d' : Driver) : Prop where
  requests : d'.requests = d.requests
  held : Held p d → Held p d'

theorem Tends.refl (d : Driver) : Tends p d d := ⟨rfl, fun h => h⟩

theorem Tends.trans {d d' d'' : Driver} (h : Tends p d d') (h' : Tends p d' d'') : Tends p d d'' :=
  ⟨h'.requests.trans h.requests, fun hheld => h'.held (h.held hheld)⟩

theorem tends_removeCurrentMsg (d : Driver) : Tends p d d.removeCurrentMsg :=
  ⟨rfl, held_removeCurrentMsg⟩

theorem tends_updateControllerState (d : Driver) (state : ControllerState)
    (error : ControllerError) : Tends p d (d.updateControllerState state error) :=
  ⟨requests_updateControllerState d state error,
    fun h => held_updateControllerState h state error⟩

theorem tends_sendQueryStageComplete (d : Driver) (nodeId : UInt8) (stage : QueryStage) :
    Tends p d (d.sendQueryStageComplete nodeId stage) := by
  rw [sendQueryStageComplete]
  split
  · exact Tends.refl d
  · split
    · rename_i hasleep
      exact ⟨rfl, fun h => held_queueForWakeUp h (nodes_of_asleep hasleep) trivial⟩
    · exact ⟨rfl, fun h => held_pushBack h .query trivial⟩

theorem tends_beginControllerCommand (d : Driver) (item : ControllerCommandItem) :
    Tends p d (d.beginControllerCommand item) := by
  rw [beginControllerCommand]
  split
  · exact Tends.refl d
  · exact ⟨rfl, fun h => held_pushBack (held_newCommand h _) .controller trivial⟩

/-! ## Moving -/

theorem tends_setAsleep (d : Driver) {nodeId : UInt8} {node : Node}
    (hnode : d.nodes nodeId = some node) : Tends p d (d.setAsleep nodeId node) := by
  rw [setAsleep]
  split
  · refine ⟨rfl, fun h => ?_⟩
    have hslept : Held p (d.setWakeUp nodeId node { node.wakeUp with awake := false }) :=
      held_setWakeUp h nodeId node (h.pending nodeId node hnode)
    exact ⟨hslept.queues, hslept.pending, hslept.current, hslept.written⟩
  · exact Tends.refl d

/-- What has been written and what was asked for. -/
def history (d : Driver) : List Written × List (Msg × Option Node) := (d.written, d.requests)

theorem history_requeueCommand (d : Driver) : d.requeueCommand.history = d.history := by
  rw [requeueCommand]
  split
  · rfl
  · have hwritten := written_updateControllerState d .sleeping .none
    have hrequests := requests_updateControllerState d .sleeping .none
    generalize d.updateControllerState .sleeping = e at hwritten hrequests ⊢
    exact Prod.ext hwritten hrequests

theorem history_moveCurrent (d : Driver) (target : UInt8) (pendingQueue : List MsgQueueItem) :
    (d.moveCurrent target pendingQueue).1.history = d.history := by
  rw [moveCurrent]
  split
  · rfl
  · split <;> rfl

theorem history_moveMessages (d : Driver) (target : UInt8) (node : Node) :
    (d.moveMessages target node).history = d.history := by
  have hremove : (if d.currentControllerCommand.isSome then d.removeCurrentMsg else d).history =
      d.history := by
    split <;> rfl
  rw [moveMessages]
  generalize (if d.currentControllerCommand.isSome then d.removeCurrentMsg else d) = e at hremove ⊢
  have hcurrent := history_moveCurrent e target node.wakeUp.pendingQueue
  generalize e.moveCurrent target node.wakeUp.pendingQueue = current at hcurrent ⊢
  rw [history_requeueCommand, foldl_moveStep target current.1 current.2 MsgQueue.all
    MsgQueue.nodup_all]
  exact hcurrent.trans hremove

/-- A move keeps what it moves marked. -/
theorem held_of_moved {d' : Driver} {target : UInt8} {node : Node}
    (hmoved : Moved target node d d') (hwritten : d'.written = d.written) (h : Held p d)
    (hpending : ∀ item ∈ node.wakeUp.pendingQueue, item.Allowed p) : Held p d' where
  queues q := by
    have hkept : ∀ item ∈ keptIn d.ccis target (d.msgQueue q), item.Allowed p :=
      fun item hmem => h.queues q item (List.mem_of_mem_filter hmem)
    cases hcommand : d.currentControllerCommand with
    | none =>
        rw [hmoved.queues q (Or.inr hcommand)]
        exact hkept
    | some cci =>
        rcases eq_or_ne q .controller with rfl | hq
        · obtain ⟨copy, -, hcontroller, -⟩ := hmoved.busy cci hcommand
          rw [hcontroller]
          intro item hmem
          rcases List.mem_append.mp hmem with hold | hnew
          · exact hkept item hold
          · obtain rfl := List.mem_singleton.mp hnew
            trivial
        · rw [hmoved.queues q (Or.inl hq)]
          exact hkept
  pending n held hheld := by
    rcases eq_or_ne n target with rfl | hne
    · obtain rfl := Option.some.inj (hmoved.pending.symm.trans hheld)
      apply allowed_foldl_queueMsg _ hpending
      intro item hmem
      rcases List.mem_append.mp hmem with hcurrent | hqueued
      · rw [currentItem] at hcurrent
        split at hcurrent
        · rename_i msg hmsg
          split at hcurrent
          · obtain rfl := List.mem_singleton.mp hcurrent
            exact h.current msg hmsg
          · cases hcurrent
        · cases hcurrent
      · obtain ⟨q, -, hitem⟩ := List.mem_flatMap.mp hqueued
        exact h.queues q item (List.mem_of_mem_filter hitem)
    · rw [hmoved.nodes n hne] at hheld
      exact h.pending n held hheld
  current msg hmsg := by
    rw [hmoved.current, leftCurrent] at hmsg
    split at hmsg
    · exact h.current msg (Option.eq_some_of_filter_eq_some hmsg)
    · cases hmsg
  written := hwritten ▸ h.written

theorem tends_checkCompletedNodeQueries (d : Driver) : Tends p d d.checkCompletedNodeQueries := by
  obtain ⟨all, awake, notifications, heq⟩ := checkCompletedNodeQueries_eq d
  rw [heq]
  exact ⟨rfl, fun h => ⟨h.queues, h.pending, h.current, h.written⟩⟩

/-- The move, when the node has been marked as asleep. -/
theorem tends_moveMessages (d : Driver) {target : UInt8} {node : Node}
    (hnode : d.nodes target = some node) :
    Tends p d ((d.setAsleep target node).moveMessages target node) := by
  have hasleep : Tends p d (d.setAsleep target node) := tends_setAsleep d hnode
  have hhistory := history_moveMessages (d.setAsleep target node) target node
  have hmoved := moved_moveMessages target (d.setAsleep target node) node
  generalize (d.setAsleep target node).moveMessages target node = e at hhistory hmoved ⊢
  obtain ⟨hwritten, hrequests⟩ := Prod.mk.inj hhistory
  exact ⟨hrequests.trans hasleep.requests, fun h =>
    held_of_moved hmoved hwritten (hasleep.held h) (h.pending target node hnode)⟩

theorem tends_moveMessagesToWakeUpQueue (d : Driver) (target : UInt8) (move : Bool) :
    Tends p d (d.moveMessagesToWakeUpQueue target move).1 := by
  rw [moveMessagesToWakeUpQueue]
  split
  · exact Tends.refl d
  · rename_i node hnode
    split
    · exact Tends.refl d
    · split
      · exact Tends.refl d
      · split
        · have hmoves : Tends p d ((d.setAsleep target node).moveMessages target node) :=
            tends_moveMessages d hnode
          generalize (d.setAsleep target node).moveMessages target node = e at hmoves ⊢
          exact hmoves.trans (tends_checkCompletedNodeQueries e)
        · exact tends_setAsleep d hnode

theorem tends_eraseItems (d : Driver) (nodeId : UInt8) : Tends p d (d.eraseItems nodeId) :=
  ⟨rfl, fun h => ⟨fun q item hmem => h.queues q item (List.mem_of_mem_filter hmem), h.pending,
    h.current, h.written⟩⟩

theorem tends_removeQueues (d : Driver) (nodeId : UInt8) : Tends p d (d.removeQueues nodeId) := by
  rw [removeQueues]
  split
  · split
    · exact (tends_removeCurrentMsg d).trans (tends_eraseItems _ nodeId)
    · exact tends_eraseItems d nodeId
  · exact tends_eraseItems d nodeId

/-! ## Waking up -/

theorem requests_sendPendingItem (d : Driver) (item : MsgQueueItem) :
    (d.sendPendingItem item).requests = d.requests := by
  cases item with
  | sendMsg msg => exact requests_sendMsg d msg .wakeUp
  | queryStageComplete nodeId stage retry =>
      simp only [sendPendingItem, sendQueryStageComplete]
      split
      · rfl
      · split <;> rfl
  | controller cci =>
      simp only [sendPendingItem, beginControllerCommand]
      split <;> rfl
  | reloadNode nodeId => rfl

theorem held_sendPendingItem (h : Held p d) {item : MsgQueueItem} (hitem : item.Allowed p) :
    Held p (d.sendPendingItem item) := by
  cases item with
  | sendMsg msg => exact held_sendMsg h (p.descends (descends_prepare d msg) hitem) .wakeUp
  | queryStageComplete nodeId stage retry =>
      exact (tends_sendQueryStageComplete d nodeId stage).held h
  | controller cci => exact (tends_beginControllerCommand d _).held h
  | reloadNode nodeId => exact h

theorem requests_sendPending (d : Driver) (items : List MsgQueueItem) :
    (items.foldl sendPendingItem d).requests = d.requests :=
  Transition.run_invariant sendPendingItem (I := fun e => e.requests = d.requests)
    (fun e item he => (requests_sendPendingItem e item).trans he) rfl items

/-- The messages that waited for the node are sent with their marks. -/
theorem held_sendPending (h : Held p d) {items : List MsgQueueItem}
    (hitems : ∀ item ∈ items, item.Allowed p) : Held p (items.foldl sendPendingItem d) := by
  induction items generalizing d with
  | nil => exact h
  | cons item items ih =>
      obtain ⟨hitem, hitems⟩ := List.forall_mem_cons.mp hitems
      exact ih (held_sendPendingItem h hitem) hitems

theorem tends_wakeUp (d : Driver) (nodeId : UInt8) : Tends p d (d.wakeUp nodeId) := by
  rw [wakeUp]
  split
  · exact Tends.refl d
  · rename_i node hnode
    split
    · exact Tends.refl d
    · have hwoken : Tends p d (d.setWakeUp nodeId node { awake := true, pendingQueue := [] }) := by
        refine ⟨rfl, fun h => held_setWakeUp h nodeId node ?_⟩
        rintro item ⟨⟩
      have hnotified : Tends p d
          (if node.wakeUp.awake then d.setWakeUp nodeId node { awake := true, pendingQueue := [] }
          else (d.setWakeUp nodeId node { awake := true, pendingQueue := [] }).queueNotification
            (.awake nodeId)) := by
        split
        · exact hwoken
        · refine ⟨rfl, fun h => ?_⟩
          have hheld := hwoken.held h
          exact ⟨hheld.queues, hheld.pending, hheld.current, hheld.written⟩
      exact ⟨(requests_sendPending _ _).trans hnotified.requests, fun h =>
        held_sendPending (hnotified.held h) (h.pending nodeId node hnode)⟩

/-! ## Calls -/

/-- A step that may send new messages: if those asked for are as the policy asks,
so are those held. -/
structure Evolves (p : Policy) (d d' : Driver) : Prop where
  requests : d.requests <+: d'.requests
  held : (∀ request ∈ d'.requests, p.request request) → Held p d → Held p d'

theorem Evolves.trans {d d' d'' : Driver} (h : Evolves p d d') (h' : Evolves p d' d'') :
    Evolves p d d'' where
  requests := h.requests.trans h'.requests
  held hrequests hheld :=
    h'.held hrequests (h.held (fun request hmem => hrequests request (h'.requests.subset hmem)) hheld)

theorem Tends.evolves {d d' : Driver} (h : Tends p d d') : Evolves p d d' where
  requests := h.requests ▸ List.prefix_refl _
  held _ := h.held

theorem allowed_markRetry {nodeId : UInt8} {stage : QueryStage} {items : List MsgQueueItem}
    (h : ∀ item ∈ items, item.Allowed p) : ∀ item ∈ markRetry nodeId stage items, item.Allowed p := by
  induction items with
  | nil => exact h
  | cons first items ih =>
      obtain ⟨hfirst, hitems⟩ := List.forall_mem_cons.mp h
      cases first with
      | queryStageComplete nodeId' stage' retry =>
          rw [markRetry]
          split
          · exact List.forall_mem_cons.mpr ⟨trivial, hitems⟩
          · exact List.forall_mem_cons.mpr ⟨trivial, ih hitems⟩
      | sendMsg msg => exact List.forall_mem_cons.mpr ⟨hfirst, ih hitems⟩
      | controller cci => exact List.forall_mem_cons.mpr ⟨hfirst, ih hitems⟩
      | reloadNode nodeId' => exact List.forall_mem_cons.mpr ⟨hfirst, ih hitems⟩

theorem evolves_call (d : Driver) (c : DriverCall) : Evolves p d (d.call c) := by
  cases c with
  | sendMsg msg queue =>
      refine ⟨List.prefix_append _ _, fun hrequests hheld => ?_⟩
      have hsent := held_sendMsg hheld (p.admits (hrequests _ List.mem_concat_self)) queue
      exact ⟨hsent.queues, hsent.pending, hsent.current, hsent.written⟩
  | sendQueryStageComplete nodeId stage =>
      exact (tends_sendQueryStageComplete d nodeId stage).evolves
  | retryQueryStageComplete nodeId stage =>
      have hmarked : Tends p d (d.setQueue .query (markRetry nodeId stage (d.msgQueue .query))) :=
        ⟨rfl, fun hheld => held_setQueue hheld .query (allowed_markRetry (hheld.queues .query))⟩
      exact hmarked.evolves
  | beginControllerCommand item => exact (tends_beginControllerCommand d item).evolves
  | updateControllerState state error => exact (tends_updateControllerState d state error).evolves
  | moveMessagesToWakeUpQueue target move =>
      exact (tends_moveMessagesToWakeUpQueue d target move).evolves
  | removeCurrentMsg => exact (tends_removeCurrentMsg d).evolves
  | removeQueues nodeId => exact (tends_removeQueues d nodeId).evolves
  | wakeUp nodeId => exact (tends_wakeUp d nodeId).evolves
  | newNode nodeId node =>
      have hempty : Tends p d (d.call (.newNode nodeId node)) := by
        refine ⟨rfl, fun hheld => held_setNode hheld nodeId ?_⟩
        rintro _ ⟨⟩ item ⟨⟩
      exact hempty.evolves
  | changeNode nodeId node =>
      rw [call]
      split
      · exact (Tends.refl d).evolves
      · rename_i old hold
        have hkept : Tends p d (d.setNode nodeId (some { node with
            wakeUp := { awake := node.wakeUp.awake, pendingQueue := old.wakeUp.pendingQueue } })) := by
          refine ⟨rfl, fun hheld => held_setNode hheld nodeId ?_⟩
          rintro _ ⟨⟩
          exact hheld.pending nodeId old hold
        exact hkept.evolves
  | deleteNode nodeId =>
      have hdeleted : Tends p d (d.setNode nodeId none) := by
        refine ⟨rfl, fun hheld => held_setNode hheld nodeId ?_⟩
        rintro _ ⟨⟩
      exact hdeleted.evolves

theorem evolves_calls (d : Driver) (calls : List DriverCall) : Evolves p d (d.calls calls) :=
  Transition.run_invariant call (I := Evolves p d) (fun e c he => he.trans (evolves_call e c))
    (Tends.refl d).evolves calls

/-! ## Writing -/

/-- A message with a nonce is written under it, and loses it. -/
theorem tends_sendEncryptedMessage (d : Driver)
    (hnonce : ∀ msg, d.currentMsg = some msg → msg.encrypted = true → msg.nonceRecvd = true) :
    Tends p d d.sendEncryptedMessage := by
  rw [sendEncryptedMessage]
  split
  · exact Tends.refl d
  · rename_i msg hcurrent
    refine ⟨rfl, fun h => ?_⟩
    have hmsg : p.msg msg := h.current msg hcurrent
    have hcleared : msg.Descends msg.clearNonce := ⟨rfl, by rintro ⟨⟩, id⟩
    have hwritten := held_setCurrent (held_write h (p.frame hmsg (hnonce msg hcurrent) h.written))
      (p.descends hcleared hmsg)
    exact ⟨hwritten.queues, hwritten.pending, hwritten.current, hwritten.written⟩

theorem tends_sendNonceKey (d : Driver) (nodeId : UInt8) (nonce : Vector UInt8 8) :
    Tends p d (d.sendNonceKey nodeId nonce) := by
  refine ⟨rfl, fun h => ?_⟩
  have hwritten : Held p (d.write (.nonceReport nodeId nonce)) :=
    held_write h (p.nonceReport nodeId nonce h.written)
  exact ⟨hwritten.queues, hwritten.pending, hwritten.current, hwritten.written⟩

theorem tends_transmit (d : Driver) (msg : Msg) (port : Bool) (hcurrent : d.currentMsg = some msg) :
    Tends p d (d.transmit msg port).1 := by
  rw [transmit]
  split
  · split
    · rename_i hnonce
      refine tends_sendEncryptedMessage d ?_
      intro held hheld _
      obtain rfl := Option.some.inj (hcurrent.symm.trans hheld)
      exact hnonce
    · exact ⟨rfl, fun h => held_write h (p.nonceGet msg.targetNodeId h.written)⟩
  · rename_i hplain
    have hwritten : Tends p d (d.write msg.written) :=
      ⟨rfl, fun h => held_write h (p.frame (h.current msg hcurrent)
        (fun hencrypted => absurd hencrypted hplain) h.written)⟩
    dsimp only
    split
    · exact hwritten
    · refine hwritten.trans ⟨rfl, fun h => ?_⟩
      exact ⟨h.queues, h.pending, h.current, h.written⟩

theorem descends_updateCallbackId (msg : Msg) (next : UInt8) :
    msg.Descends (msg.updateCallbackId next).1 := by
  rw [Msg.updateCallbackId]
  split <;> exact ⟨rfl, id, id⟩

theorem descends_nextAttempt (d : Driver) (msg : Msg) : msg.Descends (d.nextAttempt msg).1 := by
  have hupdated := descends_updateCallbackId msg d.nextCallbackId
  simp only [nextAttempt]
  split
  · split
    · exact hupdated
    · exact ⟨rfl, id, id⟩
  · split
    · exact ⟨hupdated.id, hupdated.nonce, hupdated.mark⟩
    · exact ⟨rfl, id, id⟩

theorem tends_dropCurrent (d : Driver) : Tends p d d.dropCurrent :=
  (tends_updateControllerState d .error .failed).trans (tends_removeCurrentMsg _)

theorem tends_writeMsg (d : Driver) (nonce : Vector UInt8 8) (port : Bool) :
    Tends p d (d.writeMsg nonce port).1 := by
  rw [writeMsg]
  split
  · exact ⟨rfl, fun h => ⟨h.queues, h.pending, h.current, h.written⟩⟩
  · rename_i msg hcurrent
    dsimp only
    rcases eq_or_ne d.nonceReportSent 0 with hzero | hreport
    · simp only [hzero, bne_self_eq_false, Bool.false_eq_true, if_false]
      split
      · exact tends_dropCurrent d
      · have hexpect : Tends p d { d.expect (d.nextAttempt msg).1 with
            nextCallbackId := (d.nextAttempt msg).2 } := by
          refine ⟨rfl, fun h => ?_⟩
          have hmsg := p.descends (descends_nextAttempt d msg) (h.current msg hcurrent)
          have hset := held_setCurrent h hmsg
          exact ⟨hset.queues, hset.pending, hset.current, hset.written⟩
        exact hexpect.trans (tends_transmit _ _ port rfl)
    · have hcounted : Tends p d { d with
          nonceReportSentAttempt := d.nonceReportSentAttempt + 1 } :=
        ⟨rfl, fun h => ⟨h.queues, h.pending, h.current, h.written⟩⟩
      simp only [bne_iff_ne.mpr hreport, if_true]
      split
      · exact hcounted.trans (tends_dropCurrent _)
      · split
        · exact hcounted.trans (tends_sendNonceKey _ _ nonce)
        · exact hcounted.trans (tends_transmit _ msg port hcurrent)

theorem tends_popFront (d : Driver) (queue : MsgQueue) {first : MsgQueueItem}
    {items : List MsgQueueItem} (hqueue : d.msgQueue queue = first :: items) :
    Tends p d (d.popFront queue items) := by
  have hset : Held p d → Held p (d.setQueue queue items) := by
    intro h
    apply held_setQueue h
    intro item hmem
    exact h.queues queue item (hqueue ▸ List.mem_cons_of_mem _ hmem)
  rw [popFront]
  split
  · refine ⟨rfl, fun h => ?_⟩
    exact ⟨(hset h).queues, (hset h).pending, (hset h).current, (hset h).written⟩
  · exact ⟨rfl, hset⟩

/-- The message that is taken from a queue, and its copy, are marked as it was. -/
theorem tends_writeNextMsg (d : Driver) (queue : MsgQueue) (nonce : Vector UInt8 8) (port : Bool) :
    Tends p d (d.writeNextMsg queue nonce port).1 := by
  rw [writeNextMsg]
  split
  · exact Tends.refl d
  · rename_i msg items hqueue
    have hitem : Held p d → p.msg msg := fun h =>
      h.queues queue (.sendMsg msg) (hqueue ▸ List.mem_cons_self)
    have htaken : Tends p d { d with currentMsg := some msg, currentMsgQueueSource := queue } := by
      refine ⟨rfl, fun h => ?_⟩
      have hset := held_setCurrent h (hitem h)
      exact ⟨hset.queues, hset.pending, hset.current, hset.written⟩
    have hpopped := htaken.trans (tends_popFront _ queue hqueue)
    refine Tends.trans ?_ (tends_writeMsg _ nonce port)
    generalize popFront { d with currentMsg := some msg, currentMsgQueueSource := queue } queue
      items = e at hpopped ⊢
    split
    · refine ⟨hpopped.requests, fun h => ?_⟩
      have hitems : ∀ item ∈ MsgQueueItem.sendMsg msg :: items, item.Allowed p :=
        fun item hmem => h.queues queue item (hqueue ▸ hmem)
      have hback := held_setQueue (hpopped.held h) queue hitems
      exact ⟨hback.queues, hback.pending, hback.current, hback.written⟩
    · exact hpopped
  · rename_i items hqueue
    have hnone : Tends p d { d with currentMsg := none } :=
      ⟨rfl, fun h => ⟨h.queues, h.pending, nofun, h.written⟩⟩
    exact hnone.trans (tends_popFront _ queue hqueue)
  · rename_i cci items hqueue
    have htaken : Tends p d { d with currentControllerCommand := some cci } :=
      ⟨rfl, fun h => ⟨h.queues, h.pending, h.current, h.written⟩⟩
    have hpopped := htaken.trans (tends_popFront _ queue hqueue)
    dsimp only
    split
    · refine hpopped.trans ⟨rfl, fun h => ?_⟩
      exact ⟨h.queues, h.pending, h.current, h.written⟩
    · split
      · exact htaken
      · split <;> exact ⟨rfl, fun h => ⟨h.queues, h.pending, h.current, h.written⟩⟩
  · rename_i items hqueue
    exact tends_popFront d queue hqueue

theorem tends_waitTimeout (d : Driver) (nonce : Vector UInt8 8) (port : Bool) :
    Tends p d (d.waitTimeout nonce port) := by
  rw [waitTimeout]
  refine Tends.trans ?_ (tends_writeMsg _ nonce port)
  split
  · exact Tends.refl d
  · split
    · exact Tends.refl d
    · exact ⟨rfl, fun h => ⟨h.queues, h.pending, h.current, h.written⟩⟩

/-! ## Frames -/

theorem tends_reportNonce (d : Driver) (nodeId : UInt8) (nonce : Vector UInt8 8) :
    Tends p d (d.reportNonce nodeId nonce) := by
  rw [reportNonce]
  split
  · exact Tends.refl d
  · exact tends_sendNonceKey d nodeId nonce

theorem tends_handleAcceptance {d' : Driver} {data : List UInt8} {accepted : Bool}
    (h : d.handleAcceptance data = some (d', accepted)) : Tends p d d' := by
  have hcommand : ∀ {accepted' : Bool} {error : ControllerError},
      some (d.handleCommandResponse accepted' error) = some (d', accepted) → Tends p d d' := by
    intro accepted' error heq
    have hstate : d.updateControllerState _ error = d' :=
      congrArg Prod.fst (Option.some.inj heq)
    exact hstate ▸ tends_updateControllerState d _ error
  simp only [handleAcceptance] at h
  iterate 6
    split at h
    · exact hcommand h
  split at h
  · rw [handleSendSlaveNodeInfoResponse] at h
    split at h
    · obtain ⟨rfl, -⟩ := Prod.mk.inj (Option.some.inj h)
      exact Tends.refl d
    · exact hcommand h
  · cases h

theorem evolves_handleResponse (d : Driver) (data : List UInt8) (calls : List DriverCall) :
    Evolves p d (d.handleResponse data calls).1 := by
  have hcalls : Evolves p d (d.calls calls) := evolves_calls d calls
  rw [handleResponse]
  split
  · exact hcalls
  · split
    · rename_i haccept
      exact hcalls.trans (tends_handleAcceptance haccept).evolves
    · rename_i rejected hreject
      have hforced : Tends p rejected (rejected.forceCompletion (data.getD 2 0)) :=
        ⟨rfl, fun h => ⟨h.queues, h.pending, h.current, h.written⟩⟩
      exact hcalls.trans ((tends_handleAcceptance hreject).trans hforced).evolves
    · exact hcalls

theorem tends_handleErrorResponse (d : Driver) (error : UInt8) (sleepCheck : Bool) :
    Tends p d (d.handleErrorResponse error sleepCheck).1 := by
  rw [handleErrorResponse]
  split
  · exact Tends.refl d
  · split
    · exact tends_moveMessagesToWakeUpQueue d _ sleepCheck
    · exact Tends.refl d

theorem tends_notifyNoOperation (d : Driver) : Tends p d d.notifyNoOperation := by
  rw [notifyNoOperation]
  split
  · exact Tends.refl d
  · split
    · exact ⟨rfl, fun h => ⟨h.queues, h.pending, h.current, h.written⟩⟩
    · exact Tends.refl d

theorem evolves_handleSendDataRequest (d : Driver) (data : List UInt8) (replication : Bool)
    (calls : List DriverCall) : Evolves p d (d.handleSendDataRequest data replication calls) := by
  have hnotified : Tends p d d.notifyNoOperation := tends_notifyNoOperation d
  rw [handleSendDataRequest]
  split
  · exact (Tends.refl d).evolves
  · split
    · have hfailed := hnotified.trans (tends_handleErrorResponse d.notifyNoOperation
        (data.getD 3 0) !replication)
      exact hfailed.evolves.trans (evolves_calls _ calls)
    · exact hnotified.evolves.trans (evolves_calls _ calls)

theorem evolves_handleApplicationUpdateRequest (d : Driver) (data : List UInt8)
    (calls : List DriverCall) : Evolves p d (d.handleApplicationUpdateRequest data calls).1 := by
  have hcalls : Evolves p d (d.calls calls) := evolves_calls d calls
  rw [handleApplicationUpdateRequest]
  generalize d.calls calls = e at hcalls ⊢
  dsimp only
  split
  · split
    · exact hcalls
    · rename_i msg _
      have hmoved := tends_moveMessagesToWakeUpQueue (p := p) e msg.targetNodeId true
      split
      · have hcleared : Tends p e (e.moveMessagesToWakeUpQueue msg.targetNodeId true).1.clearExpected :=
          hmoved.trans ⟨rfl, fun h => ⟨h.queues, h.pending, h.current, h.written⟩⟩
        exact hcalls.trans hcleared.evolves
      · exact hcalls.trans hmoved.evolves
  · exact hcalls

theorem evolves_handleRequest (d : Driver) (data : List UInt8) (calls : List DriverCall) :
    Evolves p d (d.handleRequest data calls).1 := by
  rw [handleRequest]
  split
  · exact evolves_handleSendDataRequest d data false calls
  · split
    · exact evolves_handleSendDataRequest d data true calls
    · split
      · exact evolves_handleApplicationUpdateRequest d data calls
      · exact evolves_calls d calls

theorem tends_matchCallback {d' : Driver} {data : List UInt8}
    (hmatch : d.matchCallback data = some d') : Tends p d d' := by
  rw [matchCallback] at hmatch
  split at hmatch
  · obtain rfl := Option.some.inj hmatch
    exact Tends.refl d
  · split at hmatch
    · obtain rfl := Option.some.inj hmatch
      exact ⟨rfl, fun h => ⟨h.queues, h.pending, h.current, h.written⟩⟩
    · split at hmatch
      · cases hmatch
      · obtain rfl := Option.some.inj hmatch
        exact Tends.refl d

theorem tends_matchReply (d : Driver) (data : List UInt8) : Tends p d (d.matchReply data) := by
  rw [matchReply]
  split
  · exact Tends.refl d
  · split
    · split
      · exact ⟨rfl, fun h => ⟨h.queues, h.pending, h.current, h.written⟩⟩
      · exact Tends.refl d
    · split
      · exact ⟨rfl, fun h => ⟨h.queues, h.pending, h.current, h.written⟩⟩
      · exact Tends.refl d

theorem tends_complete (d : Driver) : Tends p d d.complete := by
  rw [complete]
  refine Tends.trans ?_ (tends_removeCurrentMsg _)
  split
  · exact ⟨rfl, fun h => ⟨h.queues, h.pending, h.current, h.written⟩⟩
  · exact Tends.refl d

theorem tends_handleCallback (d : Driver) (data : List UInt8) :
    Tends p d (d.handleCallback data).1 := by
  rw [handleCallback]
  split
  · exact Tends.refl d
  · split
    · exact Tends.refl d
    · rename_i d' hmatch
      have hmatched : Tends p d (d'.matchReply data) :=
        (tends_matchCallback hmatch).trans (tends_matchReply d' data)
      dsimp only
      split
      · exact hmatched.trans (tends_complete _)
      · exact hmatched

theorem evolves_dispatch (d : Driver) (data : List UInt8) (calls : List DriverCall) :
    Evolves p d (d.dispatch data calls).1 := by
  have hhandled : Evolves p d (if data.getD 0 0 = RESPONSE then d.handleResponse data calls
      else if data.getD 0 0 = REQUEST then d.handleRequest data calls else (d, true)).1 := by
    split
    · exact evolves_handleResponse d data calls
    · split
      · exact evolves_handleRequest d data calls
      · exact (Tends.refl d).evolves
  rw [dispatch]
  generalize (if data.getD 0 0 = RESPONSE then d.handleResponse data calls
    else if data.getD 0 0 = REQUEST then d.handleRequest data calls else (d, true)) = handled
    at hhandled
  split
  · exact hhandled.trans (tends_handleCallback _ data).evolves
  · exact hhandled

/-- Every frame but a nonce report. -/
theorem evolves_processMsg (d : Driver) (f : Received) (hreport : f.isNonceReport = false) :
    Evolves p d (d.processMsg f).1 := by
  rw [processMsg]
  dsimp only
  split
  · rename_i h
    exact absurd h (ne_true_of_eq_false hreport)
  · split
    · exact (tends_reportNonce d _ _).evolves
    · split
      · have hcleared : Tends p d { d with nonceReportSent := 0, nonceReportSentAttempt := 0 } :=
          ⟨rfl, fun h => ⟨h.queues, h.pending, h.current, h.written⟩⟩
        generalize hanswered :
          (if f.data.getD 6 0 = SecurityCmd.messageEncapNonceGet then _ else _) = answered
        have hcleaned : Tends p d answered := by
          rw [← hanswered]
          split
          · exact hcleared.trans (tends_reportNonce _ _ _)
          · exact hcleared
        split
        · exact hcleared.evolves
        · split
          · exact hcleared.evolves
          · exact (hcleaned.trans (tends_removeCurrentMsg _)).evolves
          · exact hcleaned.evolves.trans (evolves_dispatch _ _ _)
      · exact evolves_dispatch d _ _

/-- What a nonce report does. -/
theorem processMsg_of_isNonceReport (d : Driver) {f : Received} (h : f.isNonceReport = true) :
    (d.processMsg f).1 = d.receiveNonce f.reported := by
  rw [processMsg]
  exact congrArg Prod.fst (if_pos h)

/-- A policy that does not care for nonces is kept by a nonce report too. -/
theorem tends_receiveNonce
    (hnonce : ∀ msg nonce next, p.msg msg → p.msg (Msg.setNonce msg nonce next).1) (d : Driver)
    (nonce : Vector UInt8 8) : Tends p d (d.receiveNonce nonce) := by
  rw [receiveNonce]
  split
  · exact Tends.refl d
  · rename_i msg hcurrent
    have hset : Tends p d { d with
        currentMsg := some (msg.setNonce nonce d.nextCallbackId).1
        nextCallbackId := (msg.setNonce nonce d.nextCallbackId).2 } := by
      refine ⟨rfl, fun h => ?_⟩
      have hmsg := held_setCurrent h (hnonce msg nonce d.nextCallbackId (h.current msg hcurrent))
      exact ⟨hmsg.queues, hmsg.pending, hmsg.current, hmsg.written⟩
    refine hset.trans (tends_sendEncryptedMessage _ ?_)
    intro held hheld _
    obtain rfl := Option.some.inj hheld
    rw [Msg.setNonce, Msg.updateCallbackId]
    split <;> rfl

/-! ## Runs -/

theorem tends_readAck (d : Driver) : Tends p d d.readAck := by
  have hacked : Tends p d { d with waitingForAck := false } :=
    ⟨rfl, fun h => ⟨h.queues, h.pending, h.current, h.written⟩⟩
  rw [readAck]
  dsimp only
  split
  · exact hacked.trans (tends_removeCurrentMsg _)
  · exact hacked

theorem tends_readCanOrNak (d : Driver) : Tends p d d.readCanOrNak := by
  rw [readCanOrNak]
  split
  · exact Tends.refl d
  · rename_i msg hcurrent
    refine ⟨rfl, fun h => held_setCurrent h ?_⟩
    refine p.descends ?_ (h.current msg hcurrent)
    rw [Msg.setMaxSendAttempts]
    split <;> exact ⟨rfl, id, id⟩

/-- Every event but a nonce report. -/
theorem evolves_step (d : Driver) (e : Event) (hreport : e.isNonceReport = false) :
    Evolves p d (d.step e) := by
  cases e with
  | call c => exact evolves_call d c
  | frame f => exact evolves_processMsg d f hreport
  | ack => exact (tends_readAck d).evolves
  | can => exact (tends_readCanOrNak d).evolves
  | nak => exact (tends_readCanOrNak d).evolves
  | timeout nonce port =>
      rw [step]
      split
      · exact (tends_waitTimeout d nonce port).evolves
      · exact (Tends.refl d).evolves
  | writeNext queue nonce port =>
      rw [step]
      split
      · exact (tends_writeNextMsg d queue nonce port).evolves
      · exact (Tends.refl d).evolves

end Driver

end

end OpenZWave

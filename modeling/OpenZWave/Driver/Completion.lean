import OpenZWave.Driver.Run

/-!
# When a transaction completes

Received frames come in any order, and the handlers may remove the current
message. What the driver still waits for is at every moment what the current
message needs, less what has arrived since the message was written.
-/

namespace OpenZWave

open ByteBuffer

namespace Driver

/-! ## What calls leave alone -/

/-- The current message and what is awaited for it. -/
structure Transaction where
  msg : Option Msg
  callbackId : UInt8
  reply : UInt8
  commandClassId : UInt8
  nodeId : UInt8

def transaction (d : Driver) : Transaction where
  msg := d.currentMsg
  callbackId := d.expectedCallbackId
  reply := d.expectedReply
  commandClassId := d.expectedCommandClassId
  nodeId := d.expectedNodeId

/-- There is no current message, and nothing is awaited. -/
structure Transaction.Over (t : Transaction) : Prop where
  msg : t.msg = none
  callback : t.callbackId = 0
  reply : t.reply = 0

/-- The transaction goes on as it is, or it is over. -/
def Keeps (d d' : Driver) : Prop := d'.transaction = d.transaction ∨ d'.transaction.Over

theorem Keeps.refl (d : Driver) : Keeps d d := Or.inl rfl

theorem Keeps.trans {d d' d'' : Driver} (h : Keeps d d') (h' : Keeps d' d'') : Keeps d d'' := by
  rcases h' with hsame | hover
  · rw [Keeps, hsame]
    exact h
  · exact Or.inr hover

theorem over_removeCurrentMsg (d : Driver) : d.removeCurrentMsg.transaction.Over := ⟨rfl, rfl, rfl⟩

section

variable (d : Driver)

@[simp] theorem transaction_queueForWakeUp (nodeId : UInt8) (node : Node) (item : MsgQueueItem) :
    (d.queueForWakeUp nodeId node item).transaction = d.transaction := rfl

@[simp] theorem transaction_newCommand (item : ControllerCommandItem) :
    (d.newCommand item).1.transaction = d.transaction := rfl

@[simp] theorem transaction_updateControllerState (state : ControllerState)
    (error : ControllerError) :
    (d.updateControllerState state error).transaction = d.transaction := by
  rw [updateControllerState]
  split <;> rfl

@[simp] theorem transaction_sendMsg (msg : Msg) (queue : MsgQueue) :
    (d.sendMsg msg queue).transaction = d.transaction := by
  simp only [sendMsg]
  split
  · rfl
  · split
    · rfl
    · rw [transaction_queueForWakeUp, transaction_updateControllerState]
      rfl

@[simp] theorem transaction_sendQueryStageComplete (nodeId : UInt8) (stage : QueryStage) :
    (d.sendQueryStageComplete nodeId stage).transaction = d.transaction := by
  rw [sendQueryStageComplete]
  split
  · rfl
  · split <;> rfl

@[simp] theorem transaction_beginControllerCommand (item : ControllerCommandItem) :
    (d.beginControllerCommand item).transaction = d.transaction := by
  rw [beginControllerCommand]
  split <;> rfl

@[simp] theorem transaction_requeueCommand :
    d.requeueCommand.transaction = d.transaction := by
  rw [requeueCommand]
  split
  · rfl
  · rename_i cci _
    have hupdated := transaction_updateControllerState d .sleeping .none
    generalize d.updateControllerState .sleeping = e at hupdated ⊢
    exact (transaction_newCommand e (e.ccis cci)).trans hupdated

end

theorem keeps_moveCurrent (d : Driver) (target : UInt8) (pendingQueue : List MsgQueueItem) :
    Keeps d (d.moveCurrent target pendingQueue).1 := by
  rw [moveCurrent]
  split
  · exact Keeps.refl d
  · split
    · exact Or.inr ⟨rfl, rfl, rfl⟩
    · exact Keeps.refl d

theorem keeps_moveMessages (d : Driver) (target : UInt8) (node : Node) :
    Keeps d (d.moveMessages target node) := by
  have hremove : Keeps d (if d.currentControllerCommand.isSome then d.removeCurrentMsg else d) := by
    split
    · exact Or.inr (over_removeCurrentMsg d)
    · exact Keeps.refl d
  rw [moveMessages]
  generalize (if d.currentControllerCommand.isSome then d.removeCurrentMsg else d) = e at hremove ⊢
  have hcurrent := hremove.trans (keeps_moveCurrent e target node.wakeUp.pendingQueue)
  generalize e.moveCurrent target node.wakeUp.pendingQueue = current at hcurrent ⊢
  apply hcurrent.trans
  apply Or.inl
  rw [transaction_requeueCommand, foldl_moveStep target current.1 current.2 MsgQueue.all
    MsgQueue.nodup_all]
  rfl

theorem transaction_setAsleep (d : Driver) (target : UInt8) (node : Node) :
    (d.setAsleep target node).transaction = d.transaction := by
  obtain ⟨nodes, notifications, heq, -⟩ := setAsleep_eq target d node
  rw [heq]
  rfl

theorem transaction_checkCompletedNodeQueries (d : Driver) :
    d.checkCompletedNodeQueries.transaction = d.transaction := by
  obtain ⟨all, awake, notifications, heq⟩ := checkCompletedNodeQueries_eq d
  rw [heq]
  rfl

theorem keeps_moveMessagesToWakeUpQueue (d : Driver) (target : UInt8) (move : Bool) :
    Keeps d (d.moveMessagesToWakeUpQueue target move).1 := by
  rw [moveMessagesToWakeUpQueue]
  split
  · exact Keeps.refl d
  · rename_i node _
    have hasleep : Keeps d (d.setAsleep target node) := Or.inl (transaction_setAsleep d target node)
    have hmoved := hasleep.trans (keeps_moveMessages _ target node)
    split
    · exact Keeps.refl d
    · split
      · exact Keeps.refl d
      · split
        · generalize (d.setAsleep target node).moveMessages target node = e at hmoved ⊢
          exact hmoved.trans (Or.inl (transaction_checkCompletedNodeQueries e))
        · exact hasleep

@[simp] theorem transaction_eraseItems (d : Driver) (nodeId : UInt8) :
    (d.eraseItems nodeId).transaction = d.transaction := rfl

theorem keeps_removeQueues (d : Driver) (nodeId : UInt8) : Keeps d (d.removeQueues nodeId) := by
  rw [removeQueues]
  split
  · split
    · exact Or.inr (over_removeCurrentMsg d)
    · exact Or.inl (transaction_eraseItems d nodeId)
  · exact Or.inl (transaction_eraseItems d nodeId)

theorem transaction_sendPendingItem (d : Driver) (item : MsgQueueItem) :
    (d.sendPendingItem item).transaction = d.transaction := by
  cases item with
  | sendMsg msg => exact transaction_sendMsg d msg _
  | queryStageComplete nodeId stage retry => exact transaction_sendQueryStageComplete d nodeId stage
  | controller cci => exact transaction_beginControllerCommand d _
  | reloadNode nodeId => rfl

theorem transaction_wakeUp (d : Driver) (nodeId : UInt8) :
    (d.wakeUp nodeId).transaction = d.transaction := by
  rw [wakeUp]
  split
  · rfl
  · split
    · rfl
    · apply Transition.run_invariant sendPendingItem (I := fun e => e.transaction = d.transaction)
      · intro e item he
        exact (transaction_sendPendingItem e item).trans he
      · split <;> rfl

/-- No call starts a transaction or changes what is awaited; some end it. -/
theorem keeps_call (d : Driver) (c : DriverCall) : Keeps d (d.call c) := by
  cases c with
  | sendMsg msg queue => exact Or.inl (transaction_sendMsg d msg queue)
  | sendQueryStageComplete nodeId stage =>
      exact Or.inl (transaction_sendQueryStageComplete d nodeId stage)
  | retryQueryStageComplete nodeId stage => exact Or.inl rfl
  | beginControllerCommand item => exact Or.inl (transaction_beginControllerCommand d item)
  | updateControllerState state error =>
      exact Or.inl (transaction_updateControllerState d state error)
  | moveMessagesToWakeUpQueue target move => exact keeps_moveMessagesToWakeUpQueue d target move
  | removeCurrentMsg => exact Or.inr (over_removeCurrentMsg d)
  | removeQueues nodeId => exact keeps_removeQueues d nodeId
  | wakeUp nodeId => exact Or.inl (transaction_wakeUp d nodeId)
  | newNode nodeId node => exact Or.inl rfl
  | changeNode nodeId node =>
      rw [call]
      split <;> exact Or.inl rfl
  | deleteNode nodeId => exact Or.inl rfl

theorem keeps_calls (d : Driver) (calls : List DriverCall) : Keeps d (d.calls calls) :=
  Transition.run_invariant call (fun e c h => h.trans (keeps_call e c)) (Keeps.refl d) calls

/-! ## What the frames have brought -/

end Driver

namespace Msg

/-- The callback of the message: a request of its function with its callback
id. -/
def IsCallback (m : Msg) (data : List UInt8) : Prop :=
  data.getD 0 0 = REQUEST ∧ data.getD 1 0 = peek m.buffer 3 ∧ data.getD 2 0 = m.callbackId

instance (m : Msg) (data : List UInt8) : Decidable (m.IsCallback data) :=
  inferInstanceAs (Decidable (_ ∧ _ ∧ _))

/-- A reply to the message. A command is of the expected class and comes from
the target; another reply names the target as its source, unless replies of its
function name no node or the target is the controller. -/
def Replies (m : Msg) (data : List UInt8) : Prop :=
  data.getD 1 0 = m.expectedReply ∧
    if m.expectedCommandClassId ≠ 0 ∧ m.expectedReply = FuncId.applicationCommandHandler then
      data.getD 5 0 = m.expectedCommandClassId ∧ data.getD 3 0 = m.targetNodeId
    else
      data.getD 3 0 = m.targetNodeId ∨ m.targetNodeId = 255 ∨ data.getD 3 0 = 0 ∨
        m.expectedReply ∈ Driver.anonymousReplies

end Msg

namespace Driver

/-- What is awaited for the current message is what it needs, less what the
frames have brought. -/
structure Progress (heard : List (List UInt8)) (msg : Msg) (t : Transaction) : Prop where
  current : t.msg = some msg
  callback : t.callbackId = msg.callbackId ∨
    t.callbackId = 0 ∧ ∃ data ∈ heard, data.getD 2 0 = msg.callbackId
  reply : t.reply = msg.expectedReply ∧ t.commandClassId = msg.expectedCommandClassId ∧
      t.nodeId = msg.targetNodeId ∨
    t.reply = 0 ∧ ∃ data ∈ heard, msg.Replies data

/-- There is no transaction, or it has come as far as the frames tell. -/
def Underway (heard : List (List UInt8)) (d : Driver) : Prop :=
  d.transaction.Over ∨ ∃ msg, Progress heard msg d.transaction

/-- The frames have brought all that the message needs. -/
structure Answered (heard : List (List UInt8)) (msg : Msg) : Prop where
  callback : msg.callbackId ≠ 0 → ∃ data ∈ heard, data.getD 2 0 = msg.callbackId
  reply : msg.expectedReply ≠ 0 → ∃ data ∈ heard, msg.Replies data

section

variable {heard heard' : List (List UInt8)} {d d' : Driver} {msg : Msg}

theorem Progress.mono {t : Transaction} (hsub : heard ⊆ heard') (h : Progress heard msg t) :
    Progress heard' msg t where
  current := h.current
  callback := h.callback.imp_right fun ⟨hzero, data, hmem, hid⟩ => ⟨hzero, data, hsub hmem, hid⟩
  reply := h.reply.imp_right fun ⟨hzero, data, hmem, hreply⟩ => ⟨hzero, data, hsub hmem, hreply⟩

theorem Underway.mono (hsub : heard ⊆ heard') (h : Underway heard d) : Underway heard' d :=
  h.imp_right fun ⟨msg, hprogress⟩ => ⟨msg, hprogress.mono hsub⟩

theorem underway_of_transaction_eq (htransaction : d'.transaction = d.transaction)
    (h : Underway heard d) : Underway heard d' := by
  rw [Underway, htransaction]
  exact h

theorem Keeps.underway (hkeeps : Keeps d d') (h : Underway heard d) : Underway heard d' := by
  rcases hkeeps with hsame | hover
  · exact underway_of_transaction_eq hsame h
  · exact Or.inl hover

/-- When nothing more is awaited, everything has come. -/
theorem Progress.answered {t : Transaction} (h : Progress heard msg t) (hcallback : t.callbackId = 0)
    (hreply : t.reply = 0) : Answered heard msg where
  callback hneeds := by
    rcases h.callback with hsame | ⟨-, hheard⟩
    · exact absurd (hsame.symm.trans hcallback) hneeds
    · exact hheard
  reply hneeds := by
    rcases h.reply with ⟨hsame, -⟩ | ⟨-, hheard⟩
    · exact absurd (hsame.symm.trans hreply) hneeds
    · exact hheard

/-! ## Writing the message -/

theorem underway_sendEncryptedMessage (h : Underway heard d) :
    Underway heard d.sendEncryptedMessage := by
  rw [sendEncryptedMessage]
  split
  · exact h
  · rename_i msg hcurrent
    rcases h with hover | ⟨current, hprogress⟩
    · cases hcurrent.symm.trans hover.msg
    · obtain rfl : current = msg := Option.some.inj (hprogress.current.symm.trans hcurrent)
      exact Or.inr ⟨current.clearNonce, rfl, Or.inl rfl, hprogress.reply⟩

theorem underway_transmit (h : Underway heard d) (msg : Msg) (port : Bool) :
    Underway heard (d.transmit msg port).1 := by
  rw [transmit]
  split
  · split
    · exact underway_sendEncryptedMessage h
    · exact h
  · dsimp only
    split <;> exact h

/-- `WriteMsg` starts the transaction, or goes on with it while it writes a nonce
report. -/
theorem underway_writeMsg (d : Driver) (nonce : Vector UInt8 8) (port : Bool)
    (h : d.nonceReportSent = 0 ∨ Underway heard d) : Underway heard (d.writeMsg nonce port).1 := by
  rw [writeMsg]
  split
  · rename_i hcurrent
    exact Or.inl ⟨hcurrent, rfl, rfl⟩
  · rename_i msg hcurrent
    dsimp only
    rcases eq_or_ne d.nonceReportSent 0 with hzero | hreport
    · simp only [hzero, bne_self_eq_false, Bool.false_eq_true, if_false]
      split
      · exact Or.inl (over_removeCurrentMsg _)
      · apply underway_transmit
        exact Or.inr ⟨_, rfl, Or.inl rfl, Or.inl ⟨rfl, rfl, rfl⟩⟩
    · have hunderway : Underway heard { d with
          nonceReportSentAttempt := d.nonceReportSentAttempt + 1 } :=
        h.resolve_left hreport
      simp only [bne_iff_ne.mpr hreport, if_true]
      split
      · exact Or.inl (over_removeCurrentMsg _)
      · split
        · exact hunderway
        · exact underway_transmit hunderway msg port

theorem transaction_popFront (d : Driver) (queue : MsgQueue) (items : List MsgQueueItem) :
    (d.popFront queue items).transaction = d.transaction := by
  rw [popFront]
  split <;> rfl

theorem nonceReportSent_popFront (d : Driver) (queue : MsgQueue) (items : List MsgQueueItem) :
    (d.popFront queue items).nonceReportSent = d.nonceReportSent := by
  rw [popFront]
  split <;> rfl

/-- The next item is taken when nothing is awaited and no nonce report is
outstanding. -/
theorem underway_writeNextMsg (d : Driver) (queue : MsgQueue) (nonce : Vector UInt8 8) (port : Bool)
    (hreport : d.nonceReportSent = 0) (hcallback : d.expectedCallbackId = 0)
    (hreply : d.expectedReply = 0) (h : Underway heard d) :
    Underway heard (d.writeNextMsg queue nonce port).1 := by
  rw [writeNextMsg]
  split
  · exact h
  · rename_i msg items _
    apply underway_writeMsg
    apply Or.inl
    split
    · exact (nonceReportSent_popFront _ queue items).trans hreport
    · exact (nonceReportSent_popFront _ queue items).trans hreport
  · rename_i items _
    apply underway_of_transaction_eq (transaction_popFront { d with currentMsg := none } queue items)
    exact Or.inl ⟨rfl, hcallback, hreply⟩
  · rename_i cci items _
    have hpop := transaction_popFront { d with currentControllerCommand := some cci } queue items
    dsimp only
    split
    · exact underway_of_transaction_eq hpop h
    · split
      · exact h
      · split <;> exact h
  · exact underway_of_transaction_eq (transaction_popFront d queue _) h

/-! ## Matching a frame -/

theorem progress_matchCallback {data : List UInt8} (hdata : data ∈ heard)
    (h : Progress heard msg d.transaction) (hmatch : d.matchCallback data = some d') :
    Progress heard msg d'.transaction := by
  rw [matchCallback] at hmatch
  split at hmatch
  · obtain rfl := Option.some.inj hmatch
    exact h
  · rename_i hawaited
    split at hmatch
    · rename_i hid
      obtain rfl := Option.some.inj hmatch
      have hown : d.expectedCallbackId = msg.callbackId :=
        h.callback.resolve_right fun hbrought => hawaited hbrought.1
      exact ⟨h.current, Or.inr ⟨rfl, data, hdata, hid.symm.trans hown⟩, h.reply⟩
    · split at hmatch
      · cases hmatch
      · obtain rfl := Option.some.inj hmatch
        exact h

theorem isExpectedReply_iff {nodeId : UInt8} :
    d.isExpectedReply nodeId = true ↔
      nodeId = d.expectedNodeId ∨ d.expectedNodeId = 255 ∨ nodeId = 0 ∨
        d.expectedReply ∈ anonymousReplies := by
  simp only [isExpectedReply, Bool.or_eq_true, beq_iff_eq, List.contains_iff_mem]
  constructor
  · rintro (((hcontroller | hzero) | hanonymous) | hsource)
    · exact Or.inr (Or.inl hcontroller)
    · exact Or.inr (Or.inr (Or.inl hzero))
    · exact Or.inr (Or.inr (Or.inr hanonymous))
    · exact Or.inl hsource.symm
  · rintro (hsource | hcontroller | hzero | hanonymous)
    · exact Or.inr hsource.symm
    · exact Or.inl (Or.inl (Or.inl hcontroller))
    · exact Or.inl (Or.inl (Or.inr hzero))
    · exact Or.inl (Or.inr hanonymous)

theorem progress_matchReply {data : List UInt8} (hdata : data ∈ heard)
    (h : Progress heard msg d.transaction) :
    Progress heard msg (d.matchReply data).transaction := by
  rw [matchReply]
  split
  · exact h
  · rename_i hskip
    obtain ⟨hawaited, hfunction⟩ := not_or.mp hskip
    have hfunction : d.expectedReply = data.getD 1 0 := not_not.mp hfunction
    obtain ⟨hreply, hclass, hnode⟩ : d.expectedReply = msg.expectedReply ∧
        d.expectedCommandClassId = msg.expectedCommandClassId ∧
        d.expectedNodeId = msg.targetNodeId :=
      h.reply.resolve_right fun hbrought => hawaited hbrought.1
    have hexpected : data.getD 1 0 = msg.expectedReply := hfunction.symm.trans hreply
    split
    · rename_i hcommand
      split
      · rename_i hfrom
        have hreplies : msg.Replies data := by
          refine ⟨hexpected, ?_⟩
          rw [← hclass, ← hreply, ← hnode, if_pos hcommand]
          exact ⟨hfrom.2.1.symm, hfrom.2.2.symm⟩
        exact ⟨h.current, h.callback, Or.inr ⟨rfl, data, hdata, hreplies⟩⟩
      · exact h
    · rename_i hcommand
      split
      · rename_i hsource
        have hreplies : msg.Replies data := by
          refine ⟨hexpected, ?_⟩
          rw [← hclass, ← hreply, ← hnode, if_neg hcommand]
          exact isExpectedReply_iff.mp hsource
        exact ⟨h.current, h.callback, Or.inr ⟨rfl, data, hdata, hreplies⟩⟩
      · exact h

/-- The generic callback handling brings the transaction forward, and completes
it when everything has come. -/
theorem underway_handleCallback {data : List UInt8} (hdata : data ∈ heard)
    (h : Underway heard d) :
    Underway heard (d.handleCallback data).1 ∧
      ((d.handleCallback data).2 = true → ∃ msg, d.currentMsg = some msg ∧ Answered heard msg) := by
  rw [handleCallback]
  split
  · exact ⟨h, fun hcomplete => absurd hcomplete Bool.false_ne_true⟩
  · rename_i hawaits
    rcases h with hover | ⟨msg, hprogress⟩
    · exact absurd ⟨hover.callback, hover.reply⟩ hawaits
    · split
      · exact ⟨Or.inr ⟨msg, hprogress⟩, fun hcomplete => absurd hcomplete Bool.false_ne_true⟩
      · rename_i d' hmatch
        have hmatched := progress_matchReply hdata (progress_matchCallback hdata hprogress hmatch)
        dsimp only
        split
        · rename_i hdone
          exact ⟨Or.inl (over_removeCurrentMsg _),
            fun _ => ⟨msg, hprogress.current, hmatched.answered hdone.1 hdone.2⟩⟩
        · exact ⟨Or.inr ⟨msg, hmatched⟩, fun hcomplete => absurd hcomplete Bool.false_ne_true⟩

/-! ## Handling a frame -/

/-- The frame is a response by which the controller rejects a command. -/
def rejects (d : Driver) (data : List UInt8) (calls : List DriverCall) : Bool :=
  data.getD 0 0 == RESPONSE &&
    match (d.calls calls).handleAcceptance data with
    | some (_, accepted) => !accepted
    | none => false

theorem rejects_of_not_response (d : Driver) {data : List UInt8} (calls : List DriverCall)
    (h : data.getD 0 0 ≠ RESPONSE) : d.rejects data calls = false := by
  rw [rejects, beq_eq_false_iff_ne.mpr h]
  rfl

theorem transaction_handleCommandResponse (d : Driver) (accepted : Bool) (error : ControllerError) :
    (d.handleCommandResponse accepted error).1.transaction = d.transaction :=
  transaction_updateControllerState d _ error

theorem transaction_handleAcceptance {data : List UInt8} {accepted : Bool}
    (h : d.handleAcceptance data = some (d', accepted)) : d'.transaction = d.transaction := by
  have hcommand : ∀ {accepted' : Bool} {error : ControllerError},
      some (d.handleCommandResponse accepted' error) = some (d', accepted) →
        d'.transaction = d.transaction := by
    intro accepted' error heq
    rw [← transaction_handleCommandResponse d accepted' error, Option.some.inj heq]
  simp only [handleAcceptance] at h
  iterate 6
    split at h
    · exact hcommand h
  split at h
  · rw [handleSendSlaveNodeInfoResponse] at h
    split at h
    · obtain ⟨rfl, -⟩ := Prod.mk.inj (Option.some.inj h)
      rfl
    · exact hcommand h
  · cases h

theorem keeps_handleResponse {data : List UInt8} {calls : List DriverCall}
    (hresponse : data.getD 0 0 = RESPONSE) (hrejects : d.rejects data calls = false) :
    Keeps d (d.handleResponse data calls).1 := by
  have hcalls := keeps_calls d calls
  simp only [rejects, hresponse, beq_self_eq_true, Bool.true_and] at hrejects
  rw [handleResponse]
  split
  · exact hcalls
  · split
    · rename_i accepted haccept
      exact hcalls.trans (Or.inl (transaction_handleAcceptance haccept))
    · rename_i rejected hreject
      rw [hreject] at hrejects
      cases hrejects
    · exact hcalls

theorem keeps_handleErrorResponse (d : Driver) (error : UInt8) (sleepCheck : Bool) :
    Keeps d (d.handleErrorResponse error sleepCheck).1 := by
  rw [handleErrorResponse]
  split
  · exact Keeps.refl d
  · split
    · exact keeps_moveMessagesToWakeUpQueue d _ sleepCheck
    · exact Keeps.refl d

theorem transaction_notifyNoOperation (d : Driver) :
    d.notifyNoOperation.transaction = d.transaction := by
  rw [notifyNoOperation]
  split
  · rfl
  · split <;> rfl

theorem keeps_handleSendDataRequest (d : Driver) (data : List UInt8) (replication : Bool)
    (calls : List DriverCall) : Keeps d (d.handleSendDataRequest data replication calls) := by
  have hnotified : Keeps d d.notifyNoOperation := Or.inl (transaction_notifyNoOperation d)
  rw [handleSendDataRequest]
  split
  · exact Keeps.refl d
  · split
    · exact (hnotified.trans (keeps_handleErrorResponse _ _ _)).trans (keeps_calls _ calls)
    · exact hnotified.trans (keeps_calls _ calls)

/-- The current message is among those that are moved. -/
theorem keeps_handleApplicationUpdateRequest (d : Driver) (data : List UInt8)
    (calls : List DriverCall) : Keeps d (d.handleApplicationUpdateRequest data calls).1 := by
  rw [handleApplicationUpdateRequest]
  apply (keeps_calls d calls).trans
  generalize d.calls calls = e
  dsimp only
  split
  · split
    · exact Keeps.refl e
    · rename_i msg hcurrent
      split
      · rename_i hmoved
        obtain ⟨node, hnode, hsleeps⟩ := sleeps_of_moved msg.targetNodeId hmoved
        have hleft := (moved_moveMessagesToWakeUpQueue msg.targetNodeId hnode hsleeps).2.1.current
        have hnone : leftCurrent msg.targetNodeId e = none := by
          rw [leftCurrent]
          split
          · simp [hcurrent, Option.filter]
          · rfl
        exact Or.inr ⟨hleft.trans hnone, rfl, rfl⟩
      · exact keeps_moveMessagesToWakeUpQueue e msg.targetNodeId true
  · exact Keeps.refl e

theorem keeps_handleRequest (d : Driver) (data : List UInt8) (calls : List DriverCall) :
    Keeps d (d.handleRequest data calls).1 := by
  rw [handleRequest]
  split
  · exact keeps_handleSendDataRequest d data false calls
  · split
    · exact keeps_handleSendDataRequest d data true calls
    · split
      · exact keeps_handleApplicationUpdateRequest d data calls
      · exact keeps_calls d calls

/-- A frame that rejects nothing brings the transaction forward, and completes it
when everything has come. -/
theorem underway_dispatch {data : List UInt8} {calls : List DriverCall} (hdata : data ∈ heard)
    (hrejects : d.rejects data calls = false) (h : Underway heard d) :
    Underway heard (d.dispatch data calls).1 ∧
      ((d.dispatch data calls).2 = true → ∃ msg, d.currentMsg = some msg ∧ Answered heard msg) := by
  have hkeeps : Keeps d (if data.getD 0 0 = RESPONSE then d.handleResponse data calls
      else if data.getD 0 0 = REQUEST then d.handleRequest data calls else (d, true)).1 := by
    split
    · rename_i hresponse
      exact keeps_handleResponse hresponse hrejects
    · split
      · exact keeps_handleRequest d data calls
      · exact Keeps.refl d
  rw [dispatch]
  generalize (if data.getD 0 0 = RESPONSE then d.handleResponse data calls
    else if data.getD 0 0 = REQUEST then d.handleRequest data calls else (d, true)) = handled
    at hkeeps
  have hhandled := hkeeps.underway h
  split
  · obtain ⟨hafter, hcomplete⟩ := underway_handleCallback hdata hhandled
    refine ⟨hafter, fun htrue => ?_⟩
    obtain ⟨msg, hcurrent, hanswered⟩ := hcomplete htrue
    rcases hkeeps with hsame | hover
    · exact ⟨msg, (congrArg Transaction.msg hsame).symm.trans hcurrent, hanswered⟩
    · cases hover.msg.symm.trans hcurrent
  · exact ⟨hhandled, fun hcomplete => absurd hcomplete Bool.false_ne_true⟩

theorem underway_receiveNonce (h : Underway heard d) (nonce : Vector UInt8 8) :
    Underway heard (d.receiveNonce nonce) := by
  rw [receiveNonce]
  split
  · exact h
  · rename_i msg hcurrent
    rcases h with hover | ⟨current, hprogress⟩
    · cases hcurrent.symm.trans hover.msg
    · obtain rfl : current = msg := Option.some.inj (hprogress.current.symm.trans hcurrent)
      simp only [sendEncryptedMessage, Msg.setNonce, Msg.updateCallbackId]
      split <;> exact Or.inr ⟨_, rfl, Or.inl rfl, hprogress.reply⟩

theorem transaction_reportNonce (d : Driver) (nodeId : UInt8) (nonce : Vector UInt8 8) :
    (d.reportNonce nodeId nonce).transaction = d.transaction := by
  rw [reportNonce]
  split <;> rfl

/-- `ProcessMsg` brings the transaction forward with the frame as it is handled. -/
theorem underway_processMsg {f : Received} (hcontent : f.content ∈ heard)
    (hrejects : d.rejects f.data f.calls = false) (h : Underway heard d) :
    Underway heard (d.processMsg f).1 ∧
      ((d.processMsg f).2 = true → ∃ msg, d.currentMsg = some msg ∧ Answered heard msg) := by
  rw [processMsg]
  dsimp only
  split
  · exact ⟨underway_receiveNonce h _, fun hcomplete => absurd hcomplete Bool.false_ne_true⟩
  · split
    · exact ⟨underway_of_transaction_eq (transaction_reportNonce d _ _) h,
        fun hcomplete => absurd hcomplete Bool.false_ne_true⟩
    · split
      · rename_i hencap
        generalize hanswered : (if f.data.getD 6 0 = SecurityCmd.messageEncapNonceGet then _ else _) = answered
        have hsame : answered.transaction = d.transaction := by
          rw [← hanswered]
          split
          · exact transaction_reportNonce _ _ _
          · rfl
        split
        · exact ⟨h, fun hcomplete => absurd hcomplete Bool.false_ne_true⟩
        · split
          · exact ⟨h, fun hcomplete => absurd hcomplete Bool.false_ne_true⟩
          · exact ⟨Or.inl (over_removeCurrentMsg _),
              fun hcomplete => absurd hcomplete Bool.false_ne_true⟩
          · have hrequest : answered.rejects f.content f.calls = false := by
              apply rejects_of_not_response
              rw [Received.request_of_isEncap hencap]
              decide
            obtain ⟨hafter, hcomplete⟩ :=
              underway_dispatch hcontent hrequest (underway_of_transaction_eq hsame h)
            refine ⟨hafter, fun htrue => ?_⟩
            obtain ⟨msg, hcurrent, hall⟩ := hcomplete htrue
            exact ⟨msg, (congrArg Transaction.msg hsame).symm.trans hcurrent, hall⟩
      · rename_i hplain
        rw [Received.content_of_not_isEncap (Bool.not_eq_true _ ▸ hplain)] at hcontent
        exact underway_dispatch hcontent hrejects h

/-! ## Runs -/

theorem underway_readAck (h : Underway heard d) : Underway heard d.readAck := by
  rw [readAck]
  split
  · exact Or.inl (over_removeCurrentMsg _)
  · exact h

theorem underway_readCanOrNak (h : Underway heard d) : Underway heard d.readCanOrNak := by
  rw [readCanOrNak]
  split
  · exact h
  · rename_i msg hcurrent
    rcases h with hover | ⟨current, hprogress⟩
    · cases hcurrent.symm.trans hover.msg
    · obtain rfl : current = msg := Option.some.inj (hprogress.current.symm.trans hcurrent)
      simp only [Msg.setMaxSendAttempts]
      split <;> exact Or.inr ⟨_, rfl, hprogress.callback, hprogress.reply⟩

theorem underway_waitTimeout (h : Underway heard d) (nonce : Vector UInt8 8) (port : Bool) :
    Underway heard (d.waitTimeout nonce port) := by
  rw [waitTimeout]
  apply underway_writeMsg
  apply Or.inr
  split
  · exact h
  · split <;> exact h

/-- The frames among the events, as they are handled. -/
def contents (events : List Event) : List (List UInt8) :=
  events.filterMap fun
    | .frame f => some f.content
    | _ => none

theorem contents_subset_append (past : List Event) (e : Event) :
    contents past ⊆ contents (past ++ [e]) := by
  rw [contents, contents, List.filterMap_append]
  exact List.subset_append_left _ _

theorem content_mem_contents (past : List Event) (f : Received) :
    f.content ∈ contents (past ++ [.frame f]) := by
  rw [contents, List.filterMap_append]
  exact List.mem_append_right _ (List.mem_singleton_self _)

/-- No controller command is rejected, and the next message is not taken while a
nonce report is outstanding. -/
def Undisturbed (d : Driver) : Event → Prop
  | .frame f => d.rejects f.data f.calls = false
  | .writeNext _ _ _ => d.nonceReportSent = 0
  | _ => True

theorem offers_iff {queue : MsgQueue} (h : d.offers queue = true) :
    d.expectedCallbackId = 0 ∧ d.expectedReply = 0 := by
  simp only [offers, waiting, Bool.and_eq_true, Bool.not_eq_true', Bool.or_eq_false_iff,
    bne_eq_false_iff_eq] at h
  exact ⟨h.1.1.1.2, h.1.1.2⟩

theorem underway_step {past : List Event} {e : Event} (hundisturbed : Undisturbed d e)
    (h : Underway (contents past) d) : Underway (contents (past ++ [e])) (d.step e) := by
  have h := h.mono (contents_subset_append past e)
  cases e with
  | call c => exact (keeps_call d c).underway h
  | frame f => exact (underway_processMsg (content_mem_contents past f) hundisturbed h).1
  | ack => exact underway_readAck h
  | can => exact underway_readCanOrNak h
  | nak => exact underway_readCanOrNak h
  | timeout nonce port =>
      rw [step]
      split
      · exact underway_waitTimeout h nonce port
      · exact h
  | writeNext queue nonce port =>
      rw [step]
      split
      · rename_i hoffers
        obtain ⟨hcallback, hreply⟩ := offers_iff hoffers
        exact underway_writeNextMsg d queue nonce port hundisturbed hcallback hreply h
      · exact h

/-- From the moment the message is written, whatever happens and in whichever
order: a frame completes the transaction only when a frame with the callback id
of the message and a reply to it have come, as far as they are needed. The frame
with the callback id is the callback of the message, unless a frame of another
kind has the same byte in its place. -/
theorem transaction_sound (d : Driver) (nonce : Vector UInt8 8) (port : Bool)
    (hreport : d.nonceReportSent = 0) (events : List Event) (f : Received) (msg : Msg)
    (hundisturbed :
      Transition.Along step Undisturbed (d.writeMsg nonce port).1 (events ++ [.frame f]))
    (hcurrent : (Transition.run step (d.writeMsg nonce port).1 events).currentMsg = some msg)
    (hcomplete :
      ((Transition.run step (d.writeMsg nonce port).1 events).processMsg f).2 = true) :
    (msg.callbackId ≠ 0 →
      (∀ data ∈ contents (events ++ [.frame f]),
        data.getD 2 0 = msg.callbackId → msg.IsCallback data) →
      ∃ data ∈ contents (events ++ [.frame f]), msg.IsCallback data) ∧
    (msg.expectedReply ≠ 0 → ∃ data ∈ contents (events ++ [.frame f]), msg.Replies data) := by
  have hwritten : Underway (contents []) (d.writeMsg nonce port).1 :=
    underway_writeMsg d nonce port (Or.inl hreport)
  obtain ⟨hbefore, hframe, -⟩ := Transition.along_append.mp hundisturbed
  have hunderway : Underway (contents events)
      (Transition.run step (d.writeMsg nonce port).1 events) :=
    Transition.run_history_invariant (I := fun past s => Underway (contents past) s)
      (fun past s e h hu => underway_step hu h) hwritten hbefore
  obtain ⟨current, hsame, hanswered⟩ := (underway_processMsg (content_mem_contents events f) hframe
    (hunderway.mono (contents_subset_append events _))).2 hcomplete
  obtain rfl : current = msg := Option.some.inj (hsame.symm.trans hcurrent)
  refine ⟨fun hneeds hown => ?_, hanswered.reply⟩
  obtain ⟨data, hmem, hid⟩ := hanswered.callback hneeds
  exact ⟨data, hmem, hown data hmem hid⟩

end

/-- A frame whose handler makes no calls. -/
def plain (data : List UInt8) : Received :=
  { data, nonce := Vector.replicate 8 0, opened := .noNonce, calls := [] }

/-- A driver with a message to write. -/
def withMsg (msg : Msg) : Driver := { Driver.new 1 1 with currentMsg := some (msg.finalize 10).1 }

set_option maxRecDepth 2000 in
/-- The callback of the Basic Get, and then the report. -/
theorem transaction_sound_basicGet :
    let events : List Event := [.ack, .frame (plain [REQUEST, FuncId.sendData, 10, 0])]
    let report := plain [REQUEST, FuncId.applicationCommandHandler, 0, 5, 3, 0x20, 3, 0xff]
    let msg := (basicGetTo5.finalize 10).1.setSendAttempts 1
    (∃ data ∈ contents (events ++ [.frame report]), msg.IsCallback data) ∧
      ∃ data ∈ contents (events ++ [.frame report]), msg.Replies data := by
  have hsound := transaction_sound (withMsg basicGetTo5) (Vector.replicate 8 0) true rfl
    [.ack, .frame (plain [REQUEST, FuncId.sendData, 10, 0])]
    (plain [REQUEST, FuncId.applicationCommandHandler, 0, 5, 3, 0x20, 3, 0xff])
    ((basicGetTo5.finalize 10).1.setSendAttempts 1)
    ⟨trivial, rejects_of_not_response _ _ (by decide), rejects_of_not_response _ _ (by decide),
      trivial⟩
    rfl (by decide)
  exact ⟨hsound.1 (by decide) (by decide), hsound.2 (by decide)⟩

/-- A frame that completes the transaction of a message that has just been
written. -/
def Completes (msg : Msg) (data : List UInt8) : Prop :=
  (((withMsg msg).writeMsg (Vector.replicate 8 0) true).1.processMsg (plain data)).2 = true

instance (msg : Msg) (data : List UInt8) : Decidable (Completes msg data) :=
  inferInstanceAs (Decidable (_ = true))

/-- The request to remove a failed node 5, and one for the routing of node 5. -/
def removeFailedNode5 : Msg :=
  (Msg.new 3 255 REQUEST FuncId.removeFailedNodeId true).append 5
def getRoutingInfo5 : Msg :=
  (Msg.new 4 5 REQUEST FuncId.getRoutingInfo false).appendArray [5, 0, 0, 3]

/-- The Basic Get is taken while a nonce report to its node is outstanding; then
a nonce report comes from the node. -/
def reportOutstanding : List Event :=
  [.call (.newNode 5 { sleeper with listening := true }),
    .frame (plain [REQUEST, FuncId.applicationCommandHandler, 0, 5, 2, ClassId.security,
      SecurityCmd.nonceGet]),
    .call (.sendMsg basicGetTo5 .send),
    .writeNext .send (Vector.replicate 8 0) true,
    .frame (plain [REQUEST, FuncId.applicationCommandHandler, 0, 5, 10, ClassId.security,
      SecurityCmd.nonceReport])]

/-- Completed without what the message needs: the removal of a failed node by a
response that rejects it, without its callback; the Basic Get by a report whose
status byte is the callback id, without its callback; the request for routing by
a frame that has 7 where other replies have the source; and the Basic Get by its
callback, without the report, after it was taken with a nonce report outstanding. -/
theorem transaction_not_sound :
    (Completes removeFailedNode5 [RESPONSE, FuncId.removeFailedNodeId, 0x08] ∧
      ¬ (removeFailedNode5.finalize 10).1.IsCallback
        [RESPONSE, FuncId.removeFailedNodeId, 0x08]) ∧
    (Completes basicGetTo5 [REQUEST, FuncId.applicationCommandHandler, 10, 5, 3, 0x20, 3, 0xff] ∧
      ¬ (basicGetTo5.finalize 10).1.IsCallback
        [REQUEST, FuncId.applicationCommandHandler, 10, 5, 3, 0x20, 3, 0xff]) ∧
    (Completes getRoutingInfo5 [RESPONSE, FuncId.getRoutingInfo, 0, 7] ∧
      getRoutingInfo5.targetNodeId = 5) ∧
    ((Transition.run step (Driver.new 1 1) reportOutstanding).processMsg
        (plain [REQUEST, FuncId.sendData, 11, 0])).2 = true := by
  refine ⟨⟨?_, ?_⟩, ⟨?_, ?_⟩, ⟨?_, rfl⟩, ?_⟩
  · decide
  · exact fun hcallback => absurd hcallback.1 (by decide)
  · decide
  · exact fun hcallback => absurd hcallback.2.1 (by decide +kernel)
  · decide
  · decide +kernel

end Driver

end OpenZWave

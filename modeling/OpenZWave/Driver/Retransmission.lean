import Mathlib.Algebra.Order.BigOperators.Group.List
import OpenZWave.Driver.Held
import OpenZWave.Driver.Completion
import OpenZWave.Driver.NonceExchange
import OpenZWave.Driver.Trace

/-!
# Bounded retransmission

A message is in a send queue, then it is the current message, and then it is
gone. While it is current its count of attempts bounds the number of times it has
been written: an attempt is counted when the message is written in plain form or
when a nonce is requested for it, and a nonce report answers one request.
-/

namespace OpenZWave

/-- The frame is the message of a request, in plain or encrypted form. -/
def Written.isOf (id : Nat) : Written → Bool
  | .clear id' _ => id' == id
  | .encapsulated id' _ _ => id' == id
  | _ => false

/-- The item is the message of a request. -/
def MsgQueueItem.isOf (id : Nat) : MsgQueueItem → Bool
  | .sendMsg msg => msg.id == id
  | _ => false

/-- A message as the constructor and `SetMaxSendAttempts` leave it. -/
structure Msg.Unsent (m : Msg) : Prop where
  attempts : m.sendAttempts = 0
  limit : m.maxSendAttempts < maxMaxTries
  nonce : m.nonceRecvd = false

/-- The message is not sent again, and no node is woken up. -/
def DriverCall.Spares (id : Nat) : DriverCall → Prop
  | .sendMsg msg _ => msg.id ≠ id
  | .wakeUp _ => False
  | _ => True

/-- Timeouts, ACKs, NAKs, CANs, frames, and the other work of the thread and the
application. -/
def Event.Spares (id : Nat) : Event → Prop
  | .call c => c.Spares id
  | .frame f => ∀ c ∈ f.calls, c.Spares id
  | _ => True

namespace Driver

/-- How many times the message has been written to the controller. -/
def timesWritten (id : Nat) (d : Driver) : Nat := d.written.countP (Written.isOf id)

/-- How many items of the send queues are the message. -/
def copies (id : Nat) (d : Driver) : Nat :=
  (MsgQueue.all.map fun q => (d.msgQueue q).countP (MsgQueueItem.isOf id)).sum

/-- The message is neither in a send queue nor current. -/
structure Gone (id : Nat) (d : Driver) : Prop where
  queues : d.copies id = 0
  current : ∀ msg, d.currentMsg = some msg → msg.id ≠ id

/-- The attempts that `WriteMsg` compares with the limit. -/
def usedAttempts (d : Driver) (msg : Msg) : UInt8 :=
  if d.nonceReportSent ≠ 0 then d.nonceReportSentAttempt else msg.sendAttempts

/-- The message has been removed, and nothing is awaited any more. -/
structure GivenUp (id : Nat) (d : Driver) : Prop where
  gone : d.Gone id
  removed : d.currentMsg = none
  settled : d.transaction.Over
  acked : d.waitingForAck = false

/-- What is asked of the retransmission of a message in a state: it has not been
written more often than its limit, and only a step that leaves it current writes
it; a timeout gives it up when its attempts are used up, and else uses one of them
or gives it up early. -/
structure Bounded (id : Nat) (d : Driver) : Prop where
  limit : ∀ msg, d.currentMsg = some msg → msg.id = id →
    d.timesWritten id ≤ msg.maxSendAttempts.toNat
  writes : ∀ e : Event, (d.step e).timesWritten id = d.timesWritten id ∨
    ∃ msg, (d.step e).currentMsg = some msg ∧ msg.id = id
  givenUp : ∀ (msg : Msg) (nonce : Vector UInt8 8) (port : Bool), d.currentMsg = some msg →
    msg.id = id → d.waiting = true → d.usedAttempts msg ≥ msg.maxSendAttempts →
      (d.step (.timeout nonce port)).GivenUp id
  counts : ∀ (msg : Msg) (nonce : Vector UInt8 8) (port : Bool), d.currentMsg = some msg →
    msg.id = id → d.waiting = true → d.usedAttempts msg < msg.maxSendAttempts →
      (d.step (.timeout nonce port)).GivenUp id ∨
        ∃ msg', (d.step (.timeout nonce port)).currentMsg = some msg' ∧ msg'.id = id ∧
          msg'.maxSendAttempts = msg.maxSendAttempts ∧
          (d.step (.timeout nonce port)).usedAttempts msg' = d.usedAttempts msg + 1

/-- A nonce report for the message answers a request that has not been answered;
the message is not taken while a nonce report is outstanding; and a report that is
outstanding when the message times out is for a known node. -/
def Answers (id : Nat) (d : Driver) : Event → Prop
  | .frame f => f.isNonceReport = true → ∀ msg, d.currentMsg = some msg → msg.id = id →
      d.timesWritten id < msg.sendAttempts.toNat
  | .writeNext queue _ _ => ∀ msg items, d.msgQueue queue = .sendMsg msg :: items →
      msg.id = id → d.nonceReportSent = 0
  | .timeout _ _ => ∀ msg, d.currentMsg = some msg → msg.id = id → d.nonceReportSent ≠ 0 →
      d.nodes d.nonceReportSent ≠ none
  | _ => True

/-! ## Operations that leave the message alone -/

/-- The current message is the same or removed, no copy of the message comes into a
queue, and the message is not written. -/
structure Quiet (id : Nat) (d d' : Driver) : Prop where
  current : d'.currentMsg = d.currentMsg ∨ d'.currentMsg = none
  queues : ∀ q, ((d'.msgQueue q).filter (MsgQueueItem.isOf id)).Sublist
    ((d.msgQueue q).filter (MsgQueueItem.isOf id))
  written : d'.timesWritten id = d.timesWritten id

section

variable {lives : Prop} {id : Nat} {msg : Msg} {d d' d'' : Driver}

theorem Quiet.trans (h : Quiet id d d') (h' : Quiet id d' d'') : Quiet id d d'' where
  current := by
    rcases h'.current with hsame | hnone
    · rw [hsame]
      exact h.current
    · exact Or.inr hnone
  queues q := (h'.queues q).trans (h.queues q)
  written := h'.written.trans h.written

theorem Inert.quiet (id : Nat) (h : Inert d d') : Quiet id d d' where
  current := Or.inl h.currentMsg
  queues q := by rw [h.msgQueue]
  written := by
    obtain ⟨frames, heq, hframes⟩ := h.written
    have hnone : frames.countP (Written.isOf id) = 0 := by
      apply List.countP_eq_zero.mpr
      intro frame hframe
      have hexchange := hframes frame hframe
      cases frame with
      | clear id' bytes => exact hexchange.elim
      | encapsulated id' nodeId nonce => exact hexchange.elim
      | nonceGet nodeId => exact Bool.false_ne_true
      | nonceReport nodeId nonce => exact Bool.false_ne_true
    rw [timesWritten, heq, List.countP_append, hnone]
    rfl

theorem copies_le_of_sublist
    (h : ∀ q, ((d'.msgQueue q).filter (MsgQueueItem.isOf id)).Sublist
      ((d.msgQueue q).filter (MsgQueueItem.isOf id))) : d'.copies id ≤ d.copies id := by
  apply List.sum_le_sum
  intro q _
  rw [List.countP_eq_length_filter, List.countP_eq_length_filter]
  exact (h q).length_le

theorem Quiet.gone (h : Quiet id d d') (hgone : d.Gone id) : d'.Gone id where
  queues := Nat.le_zero.mp (hgone.queues ▸ copies_le_of_sublist h.queues)
  current msg hmsg := by
    rcases h.current with hsame | hnone
    · exact hgone.current msg (hsame.symm.trans hmsg)
    · cases hnone.symm.trans hmsg

/-! ### Calls -/

theorem written_moveMessagesToWakeUpQueue (d : Driver) (target : UInt8) (move : Bool) :
    (d.moveMessagesToWakeUpQueue target move).1.written = d.written := by
  have hasleep : ∀ node, (d.setAsleep target node).written = d.written := by
    intro node
    obtain ⟨nodes, notifications, heq, -⟩ := setAsleep_eq target d node
    rw [heq]
  rw [moveMessagesToWakeUpQueue]
  split
  · rfl
  · rename_i node _
    split
    · rfl
    · split
      · rfl
      · split
        · have hhistory := history_moveMessages (d.setAsleep target node) target node
          generalize (d.setAsleep target node).moveMessages target node = e at hhistory ⊢
          obtain ⟨all, awake, notifications, heq⟩ := checkCompletedNodeQueries_eq e
          rw [heq]
          exact (congrArg Prod.fst hhistory).trans (hasleep node)
        · exact hasleep node

theorem written_sendMsg (d : Driver) (msg : Msg) (queue : MsgQueue) :
    (d.sendMsg msg queue).written = d.written := by
  simp only [sendMsg]
  split
  · rfl
  · split
    · rfl
    · exact written_updateControllerState _ _ _

theorem filter_markRetry (nodeId : UInt8) (stage : QueryStage) (items : List MsgQueueItem) :
    (markRetry nodeId stage items).filter (MsgQueueItem.isOf id) =
      items.filter (MsgQueueItem.isOf id) := by
  induction items with
  | nil => rfl
  | cons first items ih =>
      cases first with
      | queryStageComplete nodeId' stage' retry =>
          rw [markRetry]
          split
          · rfl
          · exact ih
      | sendMsg msg => simp only [markRetry, List.filter_cons, ih]
      | controller cci => exact ih
      | reloadNode nodeId' => exact ih

/-- Another item at the end of a queue. -/
theorem sublist_pushBack (d : Driver) (queue : MsgQueue) {item : MsgQueueItem}
    (hitem : item.isOf id = false) (q : MsgQueue) :
    (((d.pushBack queue item).msgQueue q).filter (MsgQueueItem.isOf id)).Sublist
      ((d.msgQueue q).filter (MsgQueueItem.isOf id)) := by
  rcases eq_or_ne q queue with rfl | hne
  · rw [(appended_pushBack d q item).last, List.filter_append, List.filter_cons_of_neg
      (by simp [hitem]), List.filter_nil, List.append_nil]
  · rw [(appended_pushBack d queue item).queues q hne]

theorem quiet_moveMessagesToWakeUpQueue (d : Driver) (target : UInt8) (move : Bool) :
    Quiet id d (d.moveMessagesToWakeUpQueue target move).1 where
  current := by
    rcases keeps_moveMessagesToWakeUpQueue d target move with hsame | hover
    · exact Or.inl (congrArg Transaction.msg hsame)
    · exact Or.inr hover.msg
  queues q := by
    rcases moveMessagesToWakeUpQueue_cases target d move with
      hsame | ⟨node, -, hasleep⟩ | ⟨-, node, -, -, hmoved, -⟩
    · rw [hsame]
    · obtain ⟨nodes, notifications, heq, -⟩ := setAsleep_eq target d node
      rw [hasleep, heq]
    · have hkept : ((keptIn d.ccis target (d.msgQueue q)).filter (MsgQueueItem.isOf id)).Sublist
          ((d.msgQueue q).filter (MsgQueueItem.isOf id)) := List.filter_sublist.filter _
      cases hcommand : d.currentControllerCommand with
      | none =>
          rw [hmoved.queues q (Or.inr hcommand)]
          exact hkept
      | some cci =>
          rcases eq_or_ne q .controller with rfl | hq
          · obtain ⟨copy, -, hcontroller, -⟩ := hmoved.busy cci hcommand
            rw [hcontroller, List.filter_append, List.filter_cons_of_neg Bool.false_ne_true,
              List.filter_nil, List.append_nil]
            exact hkept
          · rw [hmoved.queues q (Or.inl hq)]
            exact hkept
  written := congrArg (List.countP (Written.isOf id))
    (written_moveMessagesToWakeUpQueue d target move)

theorem quiet_sendMsg (d : Driver) {msg : Msg} (hother : msg.id ≠ id) (queue : MsgQueue) :
    Quiet id d (d.sendMsg msg queue) where
  current := Or.inl (congrArg Transaction.msg (transaction_sendMsg d msg queue))
  queues q := by
    cases hasleep : d.asleep msg.targetNodeId with
    | none =>
        have hitem : (MsgQueueItem.sendMsg (d.prepare msg)).isOf id = false := by
          rw [MsgQueueItem.isOf, id_prepare]
          exact beq_eq_false_iff_ne.mpr hother
        rw [sendMsg_of_awake d msg queue hasleep]
        exact sublist_pushBack { d with
          nextCallbackId := ((msg.setHomeId d.homeId).finalize d.nextCallbackId).2 } queue hitem q
    | some node =>
        cases hcommand : d.currentControllerCommand with
        | none => rw [(pended_sendMsg d msg queue hasleep hcommand).1.queues]
        | some cci => rw [(pended_command d msg queue hasleep hcommand).1.queues]
  written := congrArg (List.countP (Written.isOf id)) (written_sendMsg d msg queue)

theorem quiet_updateControllerState (d : Driver) (state : ControllerState)
    (error : ControllerError) : Quiet id d (d.updateControllerState state error) where
  current := Or.inl (currentMsg_updateControllerState d state error)
  queues q := by rw [msgQueue_updateControllerState]
  written := congrArg (List.countP (Written.isOf id)) (written_updateControllerState d state error)

theorem quiet_removeCurrentMsg (d : Driver) : Quiet id d d.removeCurrentMsg :=
  ⟨Or.inr rfl, fun _ => List.Sublist.refl _, rfl⟩

theorem quiet_beginControllerCommand (d : Driver) (item : ControllerCommandItem) :
    Quiet id d (d.beginControllerCommand item) := by
  rw [beginControllerCommand]
  split
  · exact (Inert.refl d).quiet id
  · exact ⟨Or.inl rfl, sublist_pushBack (d.newCommand _).1 .controller rfl, rfl⟩

theorem quiet_sendQueryStageComplete (d : Driver) (nodeId : UInt8) (stage : QueryStage) :
    Quiet id d (d.sendQueryStageComplete nodeId stage) := by
  rw [sendQueryStageComplete]
  split
  · exact (Inert.refl d).quiet id
  · split
    · exact ⟨Or.inl rfl, fun _ => List.Sublist.refl _, rfl⟩
    · exact ⟨Or.inl rfl, sublist_pushBack d .query rfl, rfl⟩

theorem quiet_eraseItems (d : Driver) (nodeId : UInt8) : Quiet id d (d.eraseItems nodeId) :=
  ⟨Or.inl rfl, fun _ => List.filter_sublist.filter _, rfl⟩

/-- No call but for the message itself, or to wake its node up, concerns it. -/
theorem quiet_call (d : Driver) {c : DriverCall} (h : c.Spares id) : Quiet id d (d.call c) := by
  cases c with
  | sendMsg msg queue =>
      obtain ⟨hcurrent, hqueues, hwritten⟩ := quiet_sendMsg d h queue
      exact ⟨hcurrent, hqueues, hwritten⟩
  | sendQueryStageComplete nodeId stage => exact quiet_sendQueryStageComplete d nodeId stage
  | retryQueryStageComplete nodeId stage =>
      refine ⟨Or.inl rfl, fun q => ?_, rfl⟩
      have hqueue : (d.call (.retryQueryStageComplete nodeId stage)).msgQueue q =
          Function.update d.msgQueue .query (markRetry nodeId stage (d.msgQueue .query)) q := rfl
      rw [hqueue]
      rcases eq_or_ne q .query with rfl | hne
      · rw [Function.update_self, filter_markRetry]
      · rw [Function.update_of_ne hne]
  | beginControllerCommand item => exact quiet_beginControllerCommand d item
  | updateControllerState state error => exact quiet_updateControllerState d state error
  | moveMessagesToWakeUpQueue target move => exact quiet_moveMessagesToWakeUpQueue d target move
  | removeCurrentMsg => exact quiet_removeCurrentMsg d
  | removeQueues nodeId =>
      rw [call, removeQueues]
      split
      · split
        · exact (quiet_removeCurrentMsg d).trans (quiet_eraseItems _ nodeId)
        · exact quiet_eraseItems d nodeId
      · exact quiet_eraseItems d nodeId
  | wakeUp nodeId => exact h.elim
  | newNode nodeId node => exact ⟨Or.inl rfl, fun _ => List.Sublist.refl _, rfl⟩
  | changeNode nodeId node =>
      rw [call]
      split
      · exact (Inert.refl d).quiet id
      · exact ⟨Or.inl rfl, fun _ => List.Sublist.refl _, rfl⟩
  | deleteNode nodeId => exact ⟨Or.inl rfl, fun _ => List.Sublist.refl _, rfl⟩

theorem Leads.quiet {t : CallTrace} (h : Leads d t d') (hspares : ∀ x ∈ t, x.2.Spares id) :
    Quiet id d d' :=
  Trace.Leads.invariant (I := fun e => Quiet id d e)
    (fun hinert hquiet => hquiet.trans (hinert.quiet id))
    (fun e _ hc hquiet => hquiet.trans (quiet_call e hc)) h hspares ((Inert.refl d).quiet id)

/-- A frame but for a nonce report. -/
theorem quiet_processMsg (d : Driver) {f : Received} (hreport : f.isNonceReport = false)
    (hspares : ∀ c ∈ f.calls, c.Spares id) : Quiet id d (d.processMsg f).1 :=
  Leads.quiet (leads_processMsg d f hreport)
    (forall_frameTrace (fun _ _ => trivial) (fun _ _ => trivial) trivial hspares)

theorem quiet_readAck (d : Driver) : Quiet id d d.readAck :=
  Leads.quiet (leads_readAck d) (forall_ackTrace trivial)

/-! ## Writing the message -/

theorem isOf_written (msg : Msg) : msg.written.isOf id = (msg.id == id) := by
  rw [Msg.written]
  split <;> rfl

/-- Another message is written. -/
theorem timesWritten_write_of_ne (d : Driver) {msg : Msg} (h : msg.id ≠ id) :
    (d.write msg.written).timesWritten id = d.timesWritten id := by
  have hother : ¬ msg.written.isOf id = true := by
    rw [isOf_written]
    simpa using h
  change (d.written ++ [msg.written]).countP (Written.isOf id) = _
  rw [List.countP_append, List.countP_singleton, if_neg hother]
  rfl

/-- The message itself is written. -/
theorem timesWritten_write (d : Driver) {msg : Msg} (h : msg.id = id) :
    (d.write msg.written).timesWritten id = d.timesWritten id + 1 := by
  have hown : msg.written.isOf id = true := by
    rw [isOf_written]
    simpa using h
  change (d.written ++ [msg.written]).countP (Written.isOf id) = _
  rw [List.countP_append, List.countP_singleton, if_pos hown]
  rfl

theorem timesWritten_write_le (d : Driver) (msg : Msg) :
    (d.write msg.written).timesWritten id ≤ d.timesWritten id + 1 := by
  by_cases h : msg.id = id
  · exact (timesWritten_write d h).le
  · rw [timesWritten_write_of_ne d h]
    exact Nat.le_succ _

/-- A nonce request is not counted. -/
theorem inert_sendNonceRequest (d : Driver) (msg : Msg) : Inert d (d.sendNonceRequest msg) :=
  ⟨rfl, rfl, rfl, rfl, rfl, rfl, rfl, [.nonceGet msg.targetNodeId], rfl,
    List.forall_mem_singleton.mpr trivial⟩

/-- A later version of a message: another callback id, and no new nonce. -/
structure SameTries (msg msg' : Msg) : Prop where
  id : msg'.id = msg.id
  attempts : msg'.sendAttempts = msg.sendAttempts
  limit : msg'.maxSendAttempts = msg.maxSendAttempts
  nonce : msg.nonceRecvd = false → msg'.nonceRecvd = false

theorem sameTries_updateCallbackId (msg : Msg) (next : UInt8) :
    SameTries msg (msg.updateCallbackId next).1 := by
  rw [Msg.updateCallbackId]
  split <;> exact ⟨rfl, rfl, rfl, fun h => h⟩

/-- What the end of `WriteMsg` does with the current message: the queues are as they
were, and at most this message is written, once. -/
structure Transmits (id : Nat) (msg : Msg) (d d' : Driver) : Prop where
  queues : d'.msgQueue = d.msgQueue
  current : ∃ msg', d'.currentMsg = some msg' ∧ SameTries msg msg'
  other : msg.id ≠ id → d'.timesWritten id = d.timesWritten id
  once : d'.timesWritten id ≤ d.timesWritten id + 1

theorem transmits_sendEncryptedMessage (hcurrent : d.currentMsg = some msg) :
    Transmits id msg d d.sendEncryptedMessage := by
  rw [sendEncryptedMessage, hcurrent]
  exact ⟨rfl, ⟨msg.clearNonce, rfl, rfl, rfl, rfl, fun _ => rfl⟩, timesWritten_write_of_ne d,
    timesWritten_write_le d msg⟩

theorem transmits_transmit (hcurrent : d.currentMsg = some msg) (port : Bool) :
    Transmits id msg d (d.transmit msg port).1 := by
  rw [transmit]
  split
  · split
    · exact transmits_sendEncryptedMessage hcurrent
    · have hsame := ((inert_sendNonceRequest d msg).quiet id).written
      exact ⟨rfl, ⟨msg, hcurrent, rfl, rfl, rfl, fun h => h⟩, fun _ => hsame,
        hsame.le.trans (Nat.le_succ _)⟩
  · have hwritten : Transmits id msg d (d.write msg.written) :=
      ⟨rfl, ⟨msg, hcurrent, rfl, rfl, rfl, fun h => h⟩, timesWritten_write_of_ne d,
        timesWritten_write_le d msg⟩
    dsimp only
    split
    · exact hwritten
    · exact ⟨hwritten.queues, hwritten.current, hwritten.other, hwritten.once⟩

/-- A message without a nonce is attempted once more. -/
theorem nextAttempt_spec (d : Driver) (hnonce : msg.nonceRecvd = false) :
    (d.nextAttempt msg).1.id = msg.id ∧
      (d.nextAttempt msg).1.sendAttempts = msg.sendAttempts + 1 ∧
      (d.nextAttempt msg).1.maxSendAttempts = msg.maxSendAttempts ∧
      (d.nextAttempt msg).1.nonceRecvd = false := by
  have hupdated := sameTries_updateCallbackId msg d.nextCallbackId
  simp only [nextAttempt, hnonce, Bool.and_false, Bool.false_eq_true, if_false]
  split
  · exact ⟨hupdated.id, rfl, hupdated.limit, hupdated.nonce hnonce⟩
  · exact ⟨rfl, rfl, rfl, hnonce⟩

theorem id_nextAttempt (d : Driver) (msg : Msg) : (d.nextAttempt msg).1.id = msg.id :=
  (descends_nextAttempt d msg).id

/-! ## The stages of a message -/

/-- While it is current, the message has been written at most as often as it was
attempted, and has no nonce. -/
structure Counted (id : Nat) (d : Driver) (msg : Msg) : Prop where
  own : msg.id = id
  written : d.timesWritten id ≤ msg.sendAttempts.toNat
  attempts : msg.sendAttempts ≤ msg.maxSendAttempts
  limit : msg.maxSendAttempts < maxMaxTries
  nonce : msg.nonceRecvd = false

/-- A message is at most once in a send queue and has not been written; or it is
current and counted; or it is gone. The first two are for a message that may still
be sent. -/
inductive Stage (lives : Prop) (id : Nat) (d : Driver) : Prop
  | queued (live : lives) (one : d.copies id ≤ 1) (unwritten : d.timesWritten id = 0)
      (unsent : ∀ q msg, MsgQueueItem.sendMsg msg ∈ d.msgQueue q → msg.id = id → msg.Unsent)
      (other : ∀ msg, d.currentMsg = some msg → msg.id ≠ id)
  | underway (live : lives) (msg : Msg) (none : d.copies id = 0) (current : d.currentMsg = some msg)
      (counted : Counted id d msg)
  | gone (gone : d.Gone id)

theorem copies_congr (h : d'.msgQueue = d.msgQueue) : d'.copies id = d.copies id := by
  rw [copies, copies, h]

/-- Another message, or none, is current. -/
theorem Stage.other (h : Stage lives id d) (hnew : ∀ msg, d'.currentMsg = some msg → msg.id ≠ id)
    (hqueues : ∀ q, ((d'.msgQueue q).filter (MsgQueueItem.isOf id)).Sublist
      ((d.msgQueue q).filter (MsgQueueItem.isOf id)))
    (hwritten : d'.timesWritten id = d.timesWritten id) : Stage lives id d' := by
  have hcopies := copies_le_of_sublist hqueues
  cases h with
  | queued live one unwritten unsent other =>
      refine .queued live (hcopies.trans one) (hwritten.trans unwritten) ?_ hnew
      intro q queued hmem hid
      have hfiltered : MsgQueueItem.sendMsg queued ∈
          (d'.msgQueue q).filter (MsgQueueItem.isOf id) :=
        List.mem_filter.mpr ⟨hmem, beq_iff_eq.mpr hid⟩
      exact unsent q queued (List.mem_of_mem_filter ((hqueues q).subset hfiltered)) hid
  | underway live msg none current counted => exact .gone ⟨Nat.le_zero.mp (none ▸ hcopies), hnew⟩
  | gone hgone => exact .gone ⟨Nat.le_zero.mp (hgone.queues ▸ hcopies), hnew⟩

theorem Stage.quiet (h : Stage lives id d) (hquiet : Quiet id d d') : Stage lives id d' := by
  cases h with
  | queued live one unwritten unsent other =>
      refine (Stage.queued live one unwritten unsent other).other ?_ hquiet.queues hquiet.written
      intro current hcurrent
      rcases hquiet.current with hsame | hnone
      · exact other current (hsame.symm.trans hcurrent)
      · cases hnone.symm.trans hcurrent
  | underway live msg none current counted =>
      have hnone : d'.copies id = 0 :=
        Nat.le_zero.mp (none ▸ copies_le_of_sublist hquiet.queues)
      rcases hquiet.current with hsame | hremoved
      · exact .underway live msg hnone (hsame.trans current)
          ⟨counted.own, hquiet.written ▸ counted.written, counted.attempts, counted.limit,
            counted.nonce⟩
      · refine .gone ⟨hnone, fun removed hcurrent => ?_⟩
        cases hremoved.symm.trans hcurrent
  | gone hgone => exact .gone (hquiet.gone hgone)

theorem quiet_dropCurrent (d : Driver) : Quiet id d d.dropCurrent :=
  (quiet_updateControllerState d .error .failed).trans (quiet_removeCurrentMsg _)

theorem inert_countReport (d : Driver) : Inert d d.countReport :=
  ⟨rfl, rfl, rfl, rfl, rfl, rfl, rfl, [], (List.append_nil _).symm, nofun⟩

theorem inert_sendNonceKey (d : Driver) (nodeId : UInt8) (nonce : Vector UInt8 8) :
    Inert d (d.sendNonceKey nodeId nonce) :=
  ⟨rfl, rfl, rfl, rfl, rfl, rfl, rfl, [.nonceReport nodeId nonce], rfl,
    List.forall_mem_singleton.mpr trivial⟩

/-- Writing another message than this one. -/
theorem Stage.transmit (h : Stage lives id d) {e : Driver} {first : Msg} (hother : first.id ≠ id)
    (hqueue : e.msgQueue = d.msgQueue) (hwritten : e.timesWritten id = d.timesWritten id)
    (hfirst : e.currentMsg = some first) (port : Bool) : Stage lives id (e.transmit first port).1 := by
  have htransmits : Transmits id first e (e.transmit first port).1 :=
    transmits_transmit hfirst port
  obtain ⟨later, hlater, hsame⟩ := htransmits.current
  refine h.other ?_ ?_ ((htransmits.other hother).trans hwritten)
  · intro current hcurrent
    obtain rfl := Option.some.inj (hlater.symm.trans hcurrent)
    rw [hsame.id]
    exact hother
  · intro q
    rw [htransmits.queues, hqueue]

/-- An attempt is counted before anything is written for it. -/
theorem Counted.attempt (h : Counted id d msg) (hgives : ¬ d.GivesUp msg msg.sendAttempts
    msg.targetNodeId) {e : Driver} {later : Msg} (hsame : SameTries (d.nextAttempt msg).1 later)
    (hwritten : e.timesWritten id ≤ d.timesWritten id + 1) : Counted id e later := by
  obtain ⟨hid, hattempts, hlimit, hnonce⟩ := nextAttempt_spec d h.nonce
  have hbelow : msg.sendAttempts < msg.maxSendAttempts :=
    UInt8.not_le.mp fun hle => hgives (Or.inl hle)
  have hcount : (msg.sendAttempts + 1).toNat = msg.sendAttempts.toNat + 1 := by
    have hlt := UInt8.lt_iff_toNat_lt.mp hbelow
    have hmax := msg.maxSendAttempts.toNat_lt
    rw [UInt8.toNat_add]
    exact Nat.mod_eq_of_lt (by simp; omega)
  refine ⟨hsame.id.trans (hid.trans h.own), ?_, ?_, ?_, hsame.nonce hnonce⟩
  · rw [hsame.attempts, hattempts, hcount]
    exact hwritten.trans (Nat.succ_le_succ h.written)
  · rw [hsame.attempts, hsame.limit, hattempts, hlimit, UInt8.le_iff_toNat_le, hcount]
    exact UInt8.lt_iff_toNat_lt.mp hbelow
  · rw [hsame.limit, hlimit]
    exact h.limit

/-- The current message is another one, or counted. -/
theorem Stage.current (h : Stage lives id d) (hcurrent : d.currentMsg = some msg) (hid : msg.id = id) :
    lives ∧ d.copies id = 0 ∧ Counted id d msg := by
  cases h with
  | queued live one unwritten unsent other => exact absurd hid (other msg hcurrent)
  | underway live first none current counted =>
      obtain rfl := Option.some.inj (hcurrent.symm.trans current)
      exact ⟨live, none, counted⟩
  | gone hgone => exact absurd hid (hgone.current msg hcurrent)

theorem Stage.writeMsg (h : Stage lives id d) (nonce : Vector UInt8 8) (port : Bool)
    (hknown : ∀ msg, d.currentMsg = some msg → msg.id = id → d.nonceReportSent ≠ 0 →
      d.nodes d.nonceReportSent ≠ none) : Stage lives id (d.writeMsg nonce port).1 := by
  have hcounting := inert_countReport d
  rcases writeMsg_cases d nonce port with
    ⟨-, hwrite⟩ | ⟨msg, hcurrent, ⟨hzero, hmsg⟩ | ⟨hreport, hresult⟩⟩
  · rw [hwrite]
    exact h.quiet ⟨Or.inl rfl, fun _ => List.Sublist.refl _, rfl⟩
  · rcases hmsg with ⟨-, hwrite⟩ | ⟨hgives, hwrite⟩
    · rw [hwrite]
      exact h.quiet (quiet_dropCurrent d)
    · rw [hwrite]
      by_cases hid : msg.id = id
      · obtain ⟨live, hnone, hcounted⟩ := h.current hcurrent hid
        have htransmits : Transmits id (d.nextAttempt msg).1 (d.attempt msg)
            ((d.attempt msg).transmit (d.nextAttempt msg).1 port).1 := transmits_transmit rfl port
        obtain ⟨later, hlater, hsame⟩ := htransmits.current
        exact .underway live later ((copies_congr htransmits.queues).trans hnone) hlater
          (hcounted.attempt hgives hsame htransmits.once)
      · exact h.transmit (e := d.attempt msg) ((id_nextAttempt d msg).trans_ne hid) rfl rfl rfl port
  · rcases hresult with ⟨-, hwrite⟩ | ⟨-, ⟨-, hwrite⟩ | ⟨hnode, hwrite⟩⟩
    · rw [hwrite]
      exact h.quiet ((hcounting.quiet id).trans (quiet_dropCurrent _))
    · rw [hwrite]
      exact h.quiet ((hcounting.trans (inert_sendNonceKey _ _ nonce)).quiet id)
    · rw [hwrite]
      by_cases hid : msg.id = id
      · exact absurd hnode (hknown msg hcurrent hid hreport)
      · exact h.transmit (e := d.countReport) hid rfl rfl hcurrent port

/-! ## Events -/

/-- A nonce report has the current message written, and takes its nonce away. -/
theorem transmits_receiveNonce (id : Nat) (hcurrent : d.currentMsg = some msg) (nonce : Vector UInt8 8) :
    Transmits id msg d (d.receiveNonce nonce) ∧
      ∃ later, (d.receiveNonce nonce).currentMsg = some later ∧ SameTries msg later ∧
        later.nonceRecvd = false := by
  have hupdated := sameTries_updateCallbackId { msg with nonce, nonceRecvd := true } d.nextCallbackId
  have hsent : Transmits id (msg.setNonce nonce d.nextCallbackId).1
      { d with
        currentMsg := some (msg.setNonce nonce d.nextCallbackId).1
        nextCallbackId := (msg.setNonce nonce d.nextCallbackId).2 }
      (d.receiveNonce nonce) := by
    rw [receiveNonce, hcurrent]
    exact transmits_sendEncryptedMessage rfl
  have hlater : (d.receiveNonce nonce).currentMsg =
      some (msg.setNonce nonce d.nextCallbackId).1.clearNonce := by
    rw [receiveNonce, hcurrent]
    rfl
  have hsame : SameTries msg (msg.setNonce nonce d.nextCallbackId).1.clearNonce :=
    ⟨hupdated.id, hupdated.attempts, hupdated.limit, fun _ => rfl⟩
  have hid : (msg.setNonce nonce d.nextCallbackId).1.id = msg.id := hupdated.id
  exact ⟨⟨hsent.queues, ⟨_, hlater, hsame⟩, fun hother => hsent.other (hid ▸ hother), hsent.once⟩,
    _, hlater, hsame, rfl⟩

theorem Stage.receiveNonce (h : Stage lives id d) (nonce : Vector UInt8 8)
    (hanswers : ∀ msg, d.currentMsg = some msg → msg.id = id →
      d.timesWritten id < msg.sendAttempts.toNat) : Stage lives id (d.receiveNonce nonce) := by
  cases hcurrent : d.currentMsg with
  | none =>
      rw [Driver.receiveNonce, hcurrent]
      exact h
  | some msg =>
      obtain ⟨htransmits, later, hlater, hsame, hnonce⟩ :=
        transmits_receiveNonce id hcurrent nonce
      by_cases hid : msg.id = id
      · obtain ⟨live, hnone, hcounted⟩ := h.current hcurrent hid
        refine .underway live later ((copies_congr htransmits.queues).trans hnone) hlater
          ⟨hsame.id.trans hid, ?_, ?_, ?_, hnonce⟩
        · rw [hsame.attempts]
          exact htransmits.once.trans (hanswers msg hcurrent hid)
        · rw [hsame.attempts, hsame.limit]
          exact hcounted.attempts
        · rw [hsame.limit]
          exact hcounted.limit
      · refine h.other ?_ (fun q => ?_) (htransmits.other hid)
        · intro current hnew
          obtain rfl := Option.some.inj (hlater.symm.trans hnew)
          rw [hsame.id]
          exact hid
        · rw [htransmits.queues]

/-- The message after a CAN or a NAK: one more attempt is allowed, up to a limit. -/
theorem Counted.raise (h : Counted id d msg) {e : Driver}
    (hwritten : e.timesWritten id = d.timesWritten id) :
    Counted id e (msg.setMaxSendAttempts (msg.maxSendAttempts + 1)).setResendDuetoCANorNAK := by
  rw [Msg.setMaxSendAttempts]
  split
  · rename_i hbelow
    have hraised : msg.maxSendAttempts ≤ msg.maxSendAttempts + 1 := by
      have hlimit := UInt8.lt_iff_toNat_lt.mp h.limit
      rw [UInt8.le_iff_toNat_le, UInt8.toNat_add, Nat.mod_eq_of_lt]
      · exact Nat.le_succ _
      · exact Nat.lt_of_lt_of_le (Nat.succ_lt_succ hlimit) (by decide)
    exact ⟨h.own, hwritten.trans_le h.written, UInt8.le_trans h.attempts hraised, hbelow, h.nonce⟩
  · exact ⟨h.own, hwritten.trans_le h.written, h.attempts, h.limit, h.nonce⟩

theorem Stage.readCanOrNak (h : Stage lives id d) : Stage lives id d.readCanOrNak := by
  rw [Driver.readCanOrNak]
  split
  · exact h
  · rename_i msg hcurrent
    by_cases hid : msg.id = id
    · obtain ⟨live, hnone, hcounted⟩ := h.current hcurrent hid
      exact .underway live _ hnone rfl (hcounted.raise rfl)
    · refine h.other ?_ (fun _ => List.Sublist.refl _) rfl
      intro current hnew
      obtain rfl := Option.some.inj hnew
      rw [Msg.setMaxSendAttempts]
      split <;> exact hid

theorem Stage.waitTimeout (h : Stage lives id d) (nonce : Vector UInt8 8) (port : Bool)
    (hknown : ∀ msg, d.currentMsg = some msg → msg.id = id → d.nonceReportSent ≠ 0 →
      d.nodes d.nonceReportSent ≠ none) : Stage lives id (d.waitTimeout nonce port) := by
  rw [Driver.waitTimeout]
  split
  · exact h.writeMsg nonce port hknown
  · split
    · exact h.writeMsg nonce port hknown
    · rename_i msg _ _
      have hnotified : Stage lives id (d.queueNotification (.timeout msg.targetNodeId)) :=
        h.quiet ⟨Or.inl rfl, fun _ => List.Sublist.refl _, rfl⟩
      exact hnotified.writeMsg nonce port hknown

theorem sublist_popFront {queue : MsgQueue} {item : MsgQueueItem} {items : List MsgQueueItem}
    (hqueue : d.msgQueue queue = item :: items) (q : MsgQueue) :
    (Function.update d.msgQueue queue items q).Sublist (d.msgQueue q) := by
  rcases eq_or_ne q queue with rfl | hne
  · rw [Function.update_self, hqueue]
    exact List.sublist_cons_self item items
  · rw [Function.update_of_ne hne]

/-- One queue is replaced. -/
theorem copies_update (id : Nat) {queue : MsgQueue} {items : List MsgQueueItem}
    (hnew : d'.msgQueue = Function.update d.msgQueue queue items) :
    d'.copies id + (d.msgQueue queue).countP (MsgQueueItem.isOf id) =
      d.copies id + items.countP (MsgQueueItem.isOf id) := by
  rw [copies, copies, hnew]
  cases queue <;> simp [MsgQueue.all, Function.update] <;> omega

theorem countP_isOf_cons (hid : msg.id = id) (items : List MsgQueueItem) :
    (MsgQueueItem.sendMsg msg :: items).countP (MsgQueueItem.isOf id) =
      items.countP (MsgQueueItem.isOf id) + 1 :=
  List.countP_cons_of_pos (beq_iff_eq.mpr hid)

theorem Stage.take (h : Stage lives id d) {queue : MsgQueue} {items : List MsgQueueItem}
    (hqueue : d.msgQueue queue = .sendMsg msg :: items) (hcurrent : d'.currentMsg = some msg)
    (hqueues : d'.msgQueue = Function.update d.msgQueue queue items)
    (hwritten : d'.timesWritten id = d.timesWritten id) : Stage lives id d' := by
  by_cases hid : msg.id = id
  · have hcopies := copies_update id hqueues
    rw [hqueue, countP_isOf_cons hid] at hcopies
    cases h with
    | queued live one unwritten unsent other =>
        have hunsent : msg.Unsent :=
          unsent queue msg (hqueue ▸ List.mem_cons_self) hid
        refine .underway live msg (by omega) hcurrent
          ⟨hid, (hwritten.trans unwritten).trans_le (Nat.zero_le _), ?_, hunsent.limit,
            hunsent.nonce⟩
        rw [hunsent.attempts]
        exact UInt8.zero_le
    | underway live first none current counted => omega
    | gone hgone => exact absurd hgone.queues (by omega)
  · refine h.other ?_ (fun q => ?_) hwritten
    · intro current hnew
      obtain rfl := Option.some.inj (hcurrent.symm.trans hnew)
      exact hid
    · rw [hqueues]
      exact (sublist_popFront hqueue q).filter _

theorem quiet_popFront {queue : MsgQueue} {item : MsgQueueItem} {items : List MsgQueueItem}
    (hqueue : d.msgQueue queue = item :: items) : Quiet id d (d.popFront queue items) := by
  refine ⟨Or.inl (currentMsg_popFront d queue items), fun q => ?_, ?_⟩
  · rw [msgQueue_popFront]
    exact (sublist_popFront hqueue q).filter _
  · rw [popFront]
    split <;> rfl

theorem Stage.writeNextMsg (h : Stage lives id d) (queue : MsgQueue) (nonce : Vector UInt8 8)
    (port : Bool) (hanswers : ∀ msg items, d.msgQueue queue = .sendMsg msg :: items →
      msg.id = id → d.nonceReportSent = 0) : Stage lives id (d.writeNextMsg queue nonce port).1 := by
  rw [Driver.writeNextMsg]
  split
  · exact h
  · rename_i msg items hqueue
    have htaken : ∀ taken : Driver,
        taken = { d with currentMsg := some msg, currentMsgQueueSource := queue } →
          (taken.popFront queue items).currentMsg = some msg ∧
          (taken.popFront queue items).nonceReportSent = d.nonceReportSent ∧
          (taken.popFront queue items).timesWritten id = d.timesWritten id ∧
          (taken.popFront queue items).msgQueue = Function.update d.msgQueue queue items := by
      rintro taken rfl
      rw [popFront]
      split <;> exact ⟨rfl, rfl, rfl, rfl⟩
    obtain ⟨hcurrent, hreport, hwritten, hqueues⟩ := htaken _ rfl
    generalize popFront { d with currentMsg := some msg, currentMsgQueueSource := queue } queue
      items = taken at hcurrent hreport hwritten hqueues ⊢
    dsimp only
    split
    · rename_i houtstanding
      have hid : msg.id ≠ id := fun hid =>
        houtstanding (hreport.trans (hanswers msg items hqueue hid))
      have hother : ∀ current, taken.currentMsg = some current → current.id ≠ id := by
        intro current hnew
        obtain rfl := Option.some.inj (hcurrent.symm.trans hnew)
        exact hid
      have hcopied : ∀ q, (((taken.setQueue queue (.sendMsg msg :: items)).setEvent queue
          true).msgQueue q) = d.msgQueue q := by
        intro q
        change Function.update taken.msgQueue queue (.sendMsg msg :: items) q = d.msgQueue q
        rw [hqueues, Function.update_idem, ← hqueue, Function.update_eq_self]
      have hkept : Stage lives id ((taken.setQueue queue (.sendMsg msg :: items)).setEvent queue true) :=
        h.other hother (fun q => by rw [hcopied]) hwritten
      exact hkept.writeMsg nonce port fun current hnew hown _ => absurd hown (hother current hnew)
    · rename_i hzero
      refine (h.take hqueue hcurrent hqueues hwritten).writeMsg nonce port ?_
      exact fun _ _ _ houtstanding => absurd houtstanding hzero
  · rename_i items hqueue
    exact h.quiet ((⟨Or.inr rfl, fun _ => List.Sublist.refl _, rfl⟩ :
      Quiet id d { d with currentMsg := none }).trans (quiet_popFront hqueue))
  · rename_i cci items hqueue
    have hnamed : Quiet id d { d with currentControllerCommand := some cci } :=
      ⟨Or.inl rfl, fun _ => List.Sublist.refl _, rfl⟩
    dsimp only
    split
    · have hpopped := hnamed.trans (quiet_popFront hqueue)
      exact h.quiet ⟨hpopped.current, hpopped.queues, hpopped.written⟩
    · split
      · exact h.quiet hnamed
      · split
        · exact h.quiet ⟨hnamed.current, hnamed.queues, hnamed.written⟩
        · exact h.quiet ⟨hnamed.current, hnamed.queues, hnamed.written⟩
  · rename_i items hqueue
    exact h.quiet (quiet_popFront hqueue)

/-- Every event that spares the message and meets the condition. -/
theorem Stage.step (h : Stage lives id d) {e : Event} (hspares : e.Spares id)
    (hanswers : d.Answers id e) : Stage lives id (d.step e) := by
  cases e with
  | call c => exact h.quiet (quiet_call d hspares)
  | frame f =>
      cases hreport : f.isNonceReport with
      | false => exact h.quiet (quiet_processMsg d hreport hspares)
      | true =>
          rw [Driver.step, processMsg_of_isNonceReport d hreport]
          exact h.receiveNonce f.reported (hanswers hreport)
  | ack => exact h.quiet (quiet_readAck d)
  | can => exact h.readCanOrNak
  | nak => exact h.readCanOrNak
  | timeout nonce port =>
      rw [Driver.step]
      split
      · exact h.waitTimeout nonce port hanswers
      · exact h
  | writeNext queue nonce port =>
      rw [Driver.step]
      split
      · exact h.writeNextMsg queue nonce port hanswers
      · exact h

/-! ## Which events write the message -/

/-- The message has not been written, or is current. -/
def Wrote (id : Nat) (d d' : Driver) : Prop :=
  d'.timesWritten id = d.timesWritten id ∨ ∃ msg, d'.currentMsg = some msg ∧ msg.id = id

theorem Transmits.wrote (h : Transmits id msg d d') : Wrote id d d' := by
  by_cases hid : msg.id = id
  · obtain ⟨later, hlater, hsame⟩ := h.current
    exact Or.inr ⟨later, hlater, hsame.id.trans hid⟩
  · exact Or.inl (h.other hid)

theorem written_sendPendingItem (d : Driver) (item : MsgQueueItem) :
    (d.sendPendingItem item).written = d.written := by
  cases item with
  | sendMsg msg => exact written_sendMsg d msg .wakeUp
  | queryStageComplete nodeId stage retry =>
      simp only [sendPendingItem, sendQueryStageComplete]
      split
      · rfl
      · split <;> rfl
  | controller cci =>
      simp only [sendPendingItem, beginControllerCommand]
      split <;> rfl
  | reloadNode nodeId => rfl

theorem written_call (d : Driver) (c : DriverCall) : (d.call c).written = d.written := by
  cases c with
  | sendMsg msg queue => exact written_sendMsg d msg queue
  | sendQueryStageComplete nodeId stage =>
      exact written_sendPendingItem d (.queryStageComplete nodeId stage false)
  | retryQueryStageComplete nodeId stage => rfl
  | beginControllerCommand item =>
      simp only [call, beginControllerCommand]
      split <;> rfl
  | updateControllerState state error => exact written_updateControllerState d state error
  | moveMessagesToWakeUpQueue target move => exact written_moveMessagesToWakeUpQueue d target move
  | removeCurrentMsg => rfl
  | removeQueues nodeId =>
      simp only [call, removeQueues]
      split
      · split <;> rfl
      · rfl
  | wakeUp nodeId =>
      have hitems : ∀ (items : List MsgQueueItem) (e : Driver),
          (items.foldl sendPendingItem e).written = e.written := by
        intro items
        induction items with
        | nil => exact fun _ => rfl
        | cons item items ih =>
            exact fun e => (ih (e.sendPendingItem item)).trans (written_sendPendingItem e item)
      simp only [call, wakeUp]
      split
      · rfl
      · split
        · rfl
        · rw [hitems]
          split <;> rfl
  | newNode nodeId node => rfl
  | changeNode nodeId node =>
      rw [call]
      split <;> rfl
  | deleteNode nodeId => rfl

theorem Leads.timesWritten {t : CallTrace} (h : Leads d t d') :
    d'.timesWritten id = d.timesWritten id :=
  Trace.Leads.invariant (I := fun e => e.timesWritten id = d.timesWritten id)
    (fun hinert hsame => (hinert.quiet id).written.trans hsame)
    (fun e c _ hsame => (congrArg _ (written_call e c)).trans hsame) h
    (P := fun _ _ => True) (fun _ _ => trivial) rfl

theorem timesWritten_dropCurrent (d : Driver) : d.dropCurrent.timesWritten id = d.timesWritten id :=
  (quiet_dropCurrent d).written

theorem wrote_writeMsg (d : Driver) (nonce : Vector UInt8 8) (port : Bool) :
    Wrote id d (d.writeMsg nonce port).1 := by
  rcases writeMsg_cases d nonce port with
    ⟨-, hwrite⟩ | ⟨msg, hcurrent, ⟨hzero, ⟨-, hwrite⟩ | ⟨-, hwrite⟩⟩ |
      ⟨hreport, ⟨-, hwrite⟩ | ⟨-, ⟨-, hwrite⟩ | ⟨-, hwrite⟩⟩⟩⟩
  · rw [hwrite]
    exact Or.inl rfl
  · rw [hwrite]
    exact Or.inl (timesWritten_dropCurrent d)
  · rw [hwrite]
    exact (transmits_transmit (d := d.attempt msg) rfl port).wrote
  · rw [hwrite]
    exact Or.inl (timesWritten_dropCurrent d.countReport)
  · rw [hwrite]
    exact Or.inl ((inert_sendNonceKey d.countReport _ nonce).quiet id).written
  · rw [hwrite]
    exact (transmits_transmit (d := d.countReport) hcurrent port).wrote

theorem wrote_writeNextMsg (d : Driver) (queue : MsgQueue) (nonce : Vector UInt8 8) (port : Bool) :
    Wrote id d (d.writeNextMsg queue nonce port).1 := by
  rw [writeNextMsg]
  split
  · exact Or.inl rfl
  · rename_i msg items hqueue
    have htaken : (popFront { d with currentMsg := some msg, currentMsgQueueSource := queue }
        queue items).timesWritten id = d.timesWritten id := by
      rw [popFront]
      split <;> rfl
    generalize popFront { d with currentMsg := some msg, currentMsgQueueSource := queue } queue
      items = taken at htaken ⊢
    rw [Wrote, ← htaken]
    dsimp only
    split
    · exact wrote_writeMsg ((taken.setQueue queue _).setEvent queue true) nonce port
    · exact wrote_writeMsg taken nonce port
  · rename_i items hqueue
    exact Or.inl (quiet_popFront (d := { d with currentMsg := none }) hqueue).written
  · rename_i cci items hqueue
    dsimp only
    split
    · exact Or.inl (quiet_popFront (d := { d with currentControllerCommand := some cci })
        hqueue).written
    · split
      · exact Or.inl rfl
      · split <;> exact Or.inl rfl
  · rename_i items hqueue
    exact Or.inl (quiet_popFront hqueue).written

/-- Only an event that leaves the message current writes it. -/
theorem wrote_step (d : Driver) (e : Event) : Wrote id d (d.step e) := by
  cases e with
  | call c => exact Or.inl (congrArg (List.countP (Written.isOf id)) (written_call d c))
  | frame f =>
      cases hreport : f.isNonceReport with
      | false => exact Or.inl (leads_processMsg d f hreport).timesWritten
      | true =>
          rw [Driver.step, processMsg_of_isNonceReport d hreport]
          cases hcurrent : d.currentMsg with
          | none =>
              rw [receiveNonce, hcurrent]
              exact Or.inl rfl
          | some msg => exact (transmits_receiveNonce id hcurrent f.reported).1.wrote
  | ack => exact Or.inl (leads_readAck d).timesWritten
  | can =>
      simp only [Driver.step, readCanOrNak]
      split <;> exact Or.inl rfl
  | nak =>
      simp only [Driver.step, readCanOrNak]
      split <;> exact Or.inl rfl
  | timeout nonce port =>
      rw [Driver.step]
      split
      · rw [waitTimeout]
        split
        · exact wrote_writeMsg d nonce port
        · split
          · exact wrote_writeMsg d nonce port
          · exact wrote_writeMsg (d.queueNotification _) nonce port
      · exact Or.inl rfl
  | writeNext queue nonce port =>
      rw [Driver.step]
      split
      · exact wrote_writeNextMsg d queue nonce port
      · exact Or.inl rfl

/-! ## Giving the message up -/

theorem givenUp_dropCurrent (d : Driver) (hnone : d.copies id = 0) : d.dropCurrent.GivenUp id where
  gone := ⟨Nat.le_zero.mp (hnone ▸ copies_le_of_sublist (quiet_dropCurrent d).queues), nofun⟩
  removed := rfl
  settled := ⟨rfl, rfl, rfl⟩
  acked := rfl

theorem report_transmit (d : Driver) (msg : Msg) (port : Bool) :
    (d.transmit msg port).1.nonceReportSent = d.nonceReportSent ∧
      (d.transmit msg port).1.nonceReportSentAttempt = d.nonceReportSentAttempt := by
  rw [transmit]
  split
  · split
    · rw [sendEncryptedMessage]
      split <;> exact ⟨rfl, rfl⟩
    · exact ⟨rfl, rfl⟩
  · dsimp only
    split <;> exact ⟨rfl, rfl⟩

/-- One of the attempts is used up, and the message is current as before. -/
def Uses (id : Nat) (d : Driver) (msg : Msg) (d' : Driver) : Prop :=
  ∃ msg', d'.currentMsg = some msg' ∧ msg'.id = id ∧
    msg'.maxSendAttempts = msg.maxSendAttempts ∧ d'.usedAttempts msg' = d.usedAttempts msg + 1

/-- Writing the message again gives it up after its last attempt, and else uses one
more attempt or gives it up for a dead node. -/
theorem Stage.retry (h : Stage lives id d) (hcurrent : d.currentMsg = some msg) (hid : msg.id = id)
    (nonce : Vector UInt8 8) (port : Bool) :
    (d.writeMsg nonce port).1.GivenUp id ∨
      d.usedAttempts msg < msg.maxSendAttempts ∧ Uses id d msg (d.writeMsg nonce port).1 := by
  obtain ⟨live, hnone, hcounted⟩ := h.current hcurrent hid
  rcases writeMsg_cases d nonce port with
    ⟨hmissing, -⟩ | ⟨first, hfirst, ⟨hzero, ⟨-, hwrite⟩ | ⟨hgives, hwrite⟩⟩ |
      ⟨hreport, ⟨-, hwrite⟩ | ⟨hgives, hresult⟩⟩⟩
  · cases hcurrent.symm.trans hmissing
  · rw [hwrite]
    exact Or.inl (givenUp_dropCurrent d hnone)
  · obtain rfl := Option.some.inj (hcurrent.symm.trans hfirst)
    have hused : d.usedAttempts msg = msg.sendAttempts := if_neg (not_not.mpr hzero)
    have hbelow : msg.sendAttempts < msg.maxSendAttempts :=
      UInt8.not_le.mp fun hle => hgives (Or.inl hle)
    obtain ⟨hnextId, hattempts, hlimit, -⟩ := nextAttempt_spec d hcounted.nonce
    have htransmits : Transmits id (d.nextAttempt msg).1 (d.attempt msg)
        ((d.attempt msg).transmit (d.nextAttempt msg).1 port).1 := transmits_transmit rfl port
    obtain ⟨later, hlater, hsame⟩ := htransmits.current
    have hkept : ((d.attempt msg).transmit (d.nextAttempt msg).1 port).1.nonceReportSent = 0 :=
      (report_transmit _ _ port).1.trans hzero
    rw [hwrite, hused]
    refine Or.inr ⟨hbelow, later, hlater, hsame.id.trans (hnextId.trans hid),
      hsame.limit.trans hlimit, ?_⟩
    rw [usedAttempts, if_neg (not_not.mpr hkept), hused, hsame.attempts, hattempts]
  · rw [hwrite]
    exact Or.inl (givenUp_dropCurrent d.countReport hnone)
  · obtain rfl := Option.some.inj (hcurrent.symm.trans hfirst)
    have hused : d.usedAttempts msg = d.nonceReportSentAttempt := if_pos hreport
    have hbelow : d.nonceReportSentAttempt < msg.maxSendAttempts :=
      UInt8.not_le.mp fun hle => hgives (Or.inl hle)
    refine Or.inr ⟨hused ▸ hbelow, ?_⟩
    rcases hresult with ⟨-, hwrite⟩ | ⟨-, hwrite⟩
    · rw [hwrite]
      exact ⟨msg, hcurrent, hid, rfl, (if_pos hreport).trans (hused ▸ rfl)⟩
    · have htransmits : Transmits id msg d.countReport (d.countReport.transmit msg port).1 :=
        transmits_transmit (d := d.countReport) hcurrent port
      obtain ⟨later, hlater, hsame⟩ := htransmits.current
      obtain ⟨hsent, hattempt⟩ := report_transmit d.countReport msg port
      have hkept : (d.countReport.transmit msg port).1.nonceReportSent ≠ 0 := hsent ▸ hreport
      rw [hwrite]
      refine ⟨later, hlater, hsame.id.trans hid, hsame.limit, ?_⟩
      rw [usedAttempts, if_pos hkept, hused, hattempt]
      rfl

/-- A timeout after the last attempt, and before it. -/
theorem Stage.timeout (h : Stage lives id d) (hcurrent : d.currentMsg = some msg) (hid : msg.id = id)
    (hwaiting : d.waiting = true) (nonce : Vector UInt8 8) (port : Bool) :
    (d.step (.timeout nonce port)).GivenUp id ∨
      d.usedAttempts msg < msg.maxSendAttempts ∧ Uses id d msg (d.step (.timeout nonce port)) := by
  rw [Driver.step, if_pos hwaiting, Driver.waitTimeout, hcurrent]
  dsimp only
  split
  · exact h.retry hcurrent hid nonce port
  · have hnotified : Stage lives id (d.queueNotification (.timeout msg.targetNodeId)) :=
      h.quiet ⟨Or.inl rfl, fun _ => List.Sublist.refl _, rfl⟩
    exact hnotified.retry hcurrent hid nonce port

theorem Stage.bounded (h : Stage lives id d) : Bounded id d where
  limit msg hcurrent hid := by
    obtain ⟨-, -, hcounted⟩ := h.current hcurrent hid
    exact hcounted.written.trans (UInt8.le_iff_toNat_le.mp hcounted.attempts)
  writes := wrote_step d
  givenUp msg nonce port hcurrent hid hwaiting hspent := by
    rcases h.timeout hcurrent hid hwaiting nonce port with hgiven | ⟨hbelow, -⟩
    · exact hgiven
    · exact absurd hspent (UInt8.not_le.mpr hbelow)
  counts msg nonce port hcurrent hid hwaiting _ := by
    rcases h.timeout hcurrent hid hwaiting nonce port with hgiven | ⟨-, huses⟩
    · exact Or.inl hgiven
    · exact Or.inr huses

/-! ## Runs -/

theorem unsent_prepare (d : Driver) (h : msg.Unsent) : (d.prepare msg).Unsent := by
  have hfinalized : ∀ {m : Msg}, m.Unsent → ∀ next, (m.finalize next).1.Unsent := by
    intro m hm next
    rw [Msg.finalize_eq]
    exact ⟨hm.attempts, hm.limit, hm.nonce⟩
  have hprepared := hfinalized (m := msg.setHomeId d.homeId) ⟨h.attempts, h.limit, h.nonce⟩
    d.nextCallbackId
  rw [prepare]
  split
  · exact ⟨hprepared.attempts, hprepared.limit, hprepared.nonce⟩
  · exact hprepared

theorem Gone.not_mem (h : Gone id d) {q : MsgQueue} (hmem : MsgQueueItem.sendMsg msg ∈ d.msgQueue q) :
    msg.id ≠ id := by
  have hzero : (d.msgQueue q).countP (MsgQueueItem.isOf id) = 0 :=
    List.sum_eq_zero_iff.mp h.queues _ (List.mem_map_of_mem (MsgQueue.mem_all q))
  exact fun hid => List.countP_eq_zero.mp hzero _ hmem (beq_iff_eq.mpr hid)

/-- A new message is queued, or it waits with its node. -/
theorem stage_sendMsg (d : Driver) (hmsg : msg.Unsent) (hgone : d.Gone msg.id)
    (hunwritten : d.timesWritten msg.id = 0) (queue : MsgQueue) :
    Stage True msg.id (d.call (.sendMsg msg queue)) := by
  have hwritten : (d.call (.sendMsg msg queue)).timesWritten msg.id = 0 :=
    (congrArg (List.countP _) (written_call d (.sendMsg msg queue))).trans hunwritten
  have hcurrent : (d.call (.sendMsg msg queue)).currentMsg = d.currentMsg :=
    congrArg Transaction.msg (transaction_sendMsg d msg queue)
  cases hasleep : d.asleep msg.targetNodeId with
  | none =>
      have happended := appended_sendMsg d msg queue hasleep
      have hqueues : (d.call (.sendMsg msg queue)).msgQueue = Function.update d.msgQueue queue
          (d.msgQueue queue ++ [.sendMsg (d.prepare msg)]) := by
        change (d.sendMsg msg queue).msgQueue = _
        rw [sendMsg_of_awake d msg queue hasleep]
        rfl
      have hone : (d.call (.sendMsg msg queue)).copies msg.id ≤ 1 := by
        have hcopies := copies_update msg.id hqueues
        rw [List.countP_append, countP_isOf_cons (id_prepare d msg), List.countP_nil,
          hgone.queues] at hcopies
        omega
      refine .queued trivial hone hwritten ?_ fun current h => hgone.current current (hcurrent ▸ h)
      intro q queued hmem hid
      rw [hqueues] at hmem
      rcases eq_or_ne q queue with rfl | hne
      · rw [Function.update_self] at hmem
        rcases List.mem_append.mp hmem with hold | hlast
        · exact absurd hid (hgone.not_mem hold)
        · rw [MsgQueueItem.sendMsg.inj (List.mem_singleton.mp hlast)]
          exact unsent_prepare d hmsg
      · rw [Function.update_of_ne hne] at hmem
        exact absurd hid (hgone.not_mem hmem)
  | some node =>
      refine .gone ⟨?_, fun current h => hgone.current current (hcurrent ▸ h)⟩
      rw [copies_congr (d := d), hgone.queues]
      cases hcommand : d.currentControllerCommand with
      | none => exact (pended_sendMsg d msg queue hasleep hcommand).1.queues
      | some cci => exact (pended_command d msg queue hasleep hcommand).1.queues

/-- The condition is met when the message is gone. -/
theorem Gone.answers (h : Gone id d) (e : Event) : d.Answers id e := by
  cases e with
  | frame f => exact fun _ msg hcurrent hid => absurd hid (h.current msg hcurrent)
  | writeNext queue nonce port =>
      intro msg items hqueue hid
      exact absurd hid (h.not_mem (hqueue ▸ List.mem_cons_self))
  | timeout nonce port => exact fun msg hcurrent hid => absurd hid (h.current msg hcurrent)
  | call c => trivial
  | ack => trivial
  | can => trivial
  | nak => trivial

/-- A message that is gone stays so, and is not written any more. -/
theorem Gone.step (h : Gone id d) {e : Event} (hspares : e.Spares id) :
    Gone id (d.step e) ∧ (d.step e).timesWritten id = d.timesWritten id := by
  have hstage : Stage False id d := .gone h
  cases hstage.step hspares (h.answers e) with
  | queued live => exact live.elim
  | underway live => exact live.elim
  | gone hgone =>
      rcases wrote_step d e with hsame | ⟨msg, hcurrent, hid⟩
      · exact ⟨hgone, hsame⟩
      · exact absurd hid (hgone.current msg hcurrent)

end

open Transition

/-- The events after a message that has not been sent before is sent, in any order.
When each nonce report for the message answers a request, and the other conditions
hold, the retransmission is bounded in every state, and a message that is gone is
gone for good. -/
theorem retransmission_bounded (d : Driver) {msg : Msg} (hmsg : msg.Unsent) (hgone : d.Gone msg.id)
    (hunwritten : d.timesWritten msg.id = 0) (queue : MsgQueue) {past later : List Event}
    (hspares : ∀ e ∈ past ++ later, e.Spares msg.id)
    (hanswers : Along step (Answers msg.id) (d.call (.sendMsg msg queue)) past) :
    Bounded msg.id (run step (d.call (.sendMsg msg queue)) past) ∧
      (Gone msg.id (run step (d.call (.sendMsg msg queue)) past) →
        Gone msg.id (run step (d.call (.sendMsg msg queue)) (past ++ later)) ∧
        (run step (d.call (.sendMsg msg queue)) (past ++ later)).timesWritten msg.id =
          (run step (d.call (.sendMsg msg queue)) past).timesWritten msg.id) := by
  obtain ⟨hpast, hlater⟩ := List.forall_mem_append.mp hspares
  have hstage : Stage True msg.id (run step (d.call (.sendMsg msg queue)) past) :=
    run_invariant_along (fun _ _ hstage hmeets => hstage.step hmeets.2 hmeets.1)
      (stage_sendMsg d hmsg hgone hunwritten queue) (hanswers.and_forall hpast)
  refine ⟨hstage.bounded, fun hover => ?_⟩
  rw [run_append]
  generalize run step (d.call (.sendMsg msg queue)) past = e at hover ⊢
  have hspared : Along step (fun _ e => True ∧ e.Spares msg.id) e later :=
    (along_of_forall (fun _ _ => trivial) e later).and_forall hlater
  refine run_invariant_along
    (I := fun e' => Gone msg.id e' ∧ e'.timesWritten msg.id = e.timesWritten msg.id) ?_
    ⟨hover, rfl⟩ hspared
  rintro e' event ⟨hgone, hsame⟩ ⟨-, hevent⟩
  obtain ⟨hnext, hwritten⟩ := hgone.step hevent
  exact ⟨hnext, hwritten.trans hsame⟩

/-- A driver that knows the lock at node 5. -/
def withLock : Driver := (Driver.new 1 1).call (.newNode 5 securedLock)

theorem unsent_doorLockSet : (doorLockSet 1).Unsent := ⟨by decide, by decide, rfl⟩

theorem gone_withLock (id : Nat) : withLock.Gone id := ⟨rfl, nofun⟩

/-- A command for the lock is taken, for which a nonce is requested, and so many
nonce reports arrive. -/
def commandEvents (reports : Nat) : List Event :=
  .writeNext .send (Vector.replicate 8 0) true ::
    List.replicate reports (.frame (Traced.nonceReport 5))

theorem spares_commandEvents (reports id : Nat) : ∀ e ∈ commandEvents reports, e.Spares id := by
  intro e hmem
  rcases List.mem_cons.mp hmem with rfl | hmem
  · trivial
  · rw [List.eq_of_mem_replicate hmem]
    exact List.forall_mem_nil _

set_option maxRecDepth 4000 in
/-- One request, and one report. -/
theorem retransmission_bounded_doorLockSet :
    Bounded 1 (run step (withLock.call (.sendMsg (doorLockSet 1) .send)) (commandEvents 1)) := by
  have hanswers : Along step (Answers 1) (withLock.call (.sendMsg (doorLockSet 1) .send))
      (commandEvents 1) := by
    refine ⟨fun _ _ _ _ => rfl, fun _ msg hcurrent _ => ?_, trivial⟩
    have hasked : (run step (withLock.call (.sendMsg (doorLockSet 1) .send))
        (commandEvents 0)).timesWritten 1 = 0 ∧
        (run step (withLock.call (.sendMsg (doorLockSet 1) .send))
          (commandEvents 0)).currentMsg.map Msg.sendAttempts = some 1 := by
      constructor <;> decide
    obtain ⟨attempted, hattempted, hattempts⟩ := Option.map_eq_some_iff.mp hasked.2
    obtain rfl := Option.some.inj (hattempted.symm.trans hcurrent)
    rw [hattempts]
    exact hasked.1.trans_lt Nat.zero_lt_one
  have hspares : ∀ e ∈ commandEvents 1 ++ [], e.Spares 1 := spares_commandEvents 1 1
  exact (retransmission_bounded withLock unsent_doorLockSet (gone_withLock 1) rfl .send hspares
    hanswers).1

/-- One request, and two reports: the command is written twice, and its limit is
one. -/
theorem doorLockSet_not_bounded :
    (doorLockSet 1).Unsent ∧ withLock.Gone 1 ∧ withLock.timesWritten 1 = 0 ∧
      (∀ e ∈ commandEvents 2, e.Spares 1) ∧
      ¬ Bounded 1
        (run step (withLock.call (.sendMsg (doorLockSet 1) .send)) (commandEvents 2)) := by
  refine ⟨unsent_doorLockSet, gone_withLock 1, rfl, spares_commandEvents 2 1, fun hbounded => ?_⟩
  have hwritten : (run step (withLock.call (.sendMsg (doorLockSet 1) .send))
      (commandEvents 2)).timesWritten 1 = 2 := by decide +kernel
  have hcurrent : (run step (withLock.call (.sendMsg (doorLockSet 1) .send))
      (commandEvents 2)).currentMsg.map (fun msg => (msg.id, msg.maxSendAttempts)) = some (1, 1) := by
    decide +kernel
  obtain ⟨msg, hmsg, hfields⟩ := Option.map_eq_some_iff.mp hcurrent
  obtain ⟨hid, hlimit⟩ := Prod.mk.inj hfields
  have hle := hbounded.limit msg hmsg hid
  rw [hwritten, hlimit] at hle
  exact absurd hle (by decide)

end Driver

end OpenZWave

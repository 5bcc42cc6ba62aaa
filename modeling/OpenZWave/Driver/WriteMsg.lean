import OpenZWave.Driver.State

/-!
# Writing the current message

`WriteMsg` hands the current message to the controller, or what its encryption
needs first, and notes which callback and reply it waits for. `WriteNextMsg`
takes an item from a send queue. The random nonce and whether the port accepts
bytes are arguments.
-/

namespace OpenZWave

namespace Driver

/-- `SendEncryptedMessage`. -/
def sendEncryptedMessage (d : Driver) : Driver :=
  match d.currentMsg with
  | none => d
  | some msg =>
      { d.write msg.written with
        expectedCallbackId := msg.callbackId
        currentMsg := some msg.clearNonce }

/-- `SendNonceRequest`. -/
def sendNonceRequest (d : Driver) (msg : Msg) : Driver := d.write (.nonceGet msg.targetNodeId)

/-- `SendNonceKey`. -/
def sendNonceKey (d : Driver) (nodeId : UInt8) (nonce : Vector UInt8 8) : Driver :=
  { d.write (.nonceReport nodeId nonce) with nonceReportSent := nodeId }

/-- The message before it is written: a resend has a new callback id, and the
attempt is counted unless the nonce for it has arrived. -/
def nextAttempt (d : Driver) (msg : Msg) : Msg × UInt8 :=
  let updated :=
    if msg.sendAttempts ≠ 0 then msg.updateCallbackId d.nextCallbackId
    else (msg, d.nextCallbackId)
  if msg.encrypted && msg.nonceRecvd then updated
  else (updated.1.setSendAttempts (msg.sendAttempts + 1), updated.2)

/-- What the current message waits for. -/
def expect (d : Driver) (msg : Msg) : Driver :=
  { d with
    currentMsg := some msg
    expectedCallbackId := msg.callbackId
    expectedCommandClassId := msg.expectedCommandClassId
    expectedNodeId := msg.targetNodeId
    expectedReply := msg.expectedReply
    waitingForAck := true }

/-- The end of `WriteMsg`: the bytes that are written for the message. -/
def transmit (d : Driver) (msg : Msg) (port : Bool) : Driver × Bool :=
  if msg.encrypted then
    if msg.nonceRecvd then (d.sendEncryptedMessage, true) else (d.sendNonceRequest msg, true)
  else
    let d := d.write msg.written
    if port then (d, true) else (d.queueNotification (.driverFailed msg.targetNodeId), false)

/-- The message is given up: too many attempts, or its node is dead. -/
def dropCurrent (d : Driver) : Driver :=
  (d.updateControllerState .error .failed).removeCurrentMsg

/-- The node is not alive, and the message is no probe for it. -/
def presumedDead (d : Driver) (nodeId : UInt8) (msg : Msg) : Bool :=
  match d.nodes nodeId with
  | some node => !node.nodeAlive && !msg.isNoOperation
  | none => false

/-- `WriteMsg`: with a nonce report outstanding, it is the report that is sent
again. -/
def writeMsg (d : Driver) (nonce : Vector UInt8 8) (port : Bool) : Driver × Bool :=
  match d.currentMsg with
  | none => (d.clearExpected, false)
  | some msg =>
      let report := d.nonceReportSent != 0
      let attempts := if report then d.nonceReportSentAttempt else msg.sendAttempts
      let nodeId := if report then d.nonceReportSent else msg.targetNodeId
      let d := if report then { d with nonceReportSentAttempt := attempts + 1 } else d
      if attempts ≥ msg.maxSendAttempts ∨ d.presumedDead nodeId msg = true then
        (d.dropCurrent, false)
      else if report then
        match d.nodes nodeId with
        | some _ => (d.sendNonceKey nodeId nonce, true)
        | none => d.transmit msg port
      else
        let next := d.nextAttempt msg
        { d.expect next.1 with nextCallbackId := next.2 }.transmit next.1 port

/-- The first item of a queue is taken out. -/
def popFront (d : Driver) (queue : MsgQueue) (items : List MsgQueueItem) : Driver :=
  let d := d.setQueue queue items
  if items = [] then d.setEvent queue false else d

/-- `WriteNextMsg`. A query stage or a reload goes on with calls of the node, a
controller command in its first state with those of `DoControllerCommand`. -/
def writeNextMsg (d : Driver) (queue : MsgQueue) (nonce : Vector UInt8 8) (port : Bool) :
    Driver × Bool :=
  match d.msgQueue queue with
  | [] => (d, false)
  | .sendMsg msg :: items =>
      let d : Driver :=
        { d with currentMsg := some msg, currentMsgQueueSource := queue }.popFront queue items
      -- a copy is kept in the queue while a nonce report is sent again
      let d :=
        if d.nonceReportSent ≠ 0 then
          (d.setQueue queue (.sendMsg msg :: items)).setEvent queue true
        else d
      d.writeMsg nonce port
  | .queryStageComplete nodeId _ _ :: items =>
      ({ d with currentMsg := none }.popFront queue items, (d.nodes nodeId).isSome)
  | .controller cci :: items =>
      let d := { d with currentControllerCommand := some cci }
      if (d.ccis cci).done then
        ({ d.popFront queue items with currentControllerCommand := none }, true)
      else if (d.ccis cci).state = .normal then (d, true)
      else if (d.ccis cci).stateChanged then
        (d.setCommand cci { d.ccis cci with stateChanged := false }, true)
      else (d.setEvent queue false, true)
  | .reloadNode _ :: items => (d.popFront queue items, true)

/-- The wait for the controller has timed out. -/
def waitTimeout (d : Driver) (nonce : Vector UInt8 8) (port : Bool) : Driver :=
  let d :=
    match d.currentMsg with
    | none => d
    | some msg =>
        if msg.resendDuetoCANorNAK then d else d.queueNotification (.timeout msg.targetNodeId)
  (d.writeMsg nonce port).1

/-! ## Taking an item -/

section

variable (d : Driver) (queue : MsgQueue) (items : List MsgQueueItem)

theorem msgQueue_popFront :
    (d.popFront queue items).msgQueue = Function.update d.msgQueue queue items := by
  rw [popFront]
  split <;> rfl

theorem currentMsg_popFront : (d.popFront queue items).currentMsg = d.currentMsg := by
  rw [popFront]
  split <;> rfl

end

/-! ## What `WriteMsg` can do -/

/-- The driver while it counts an attempt to send the nonce report. -/
def countReport (d : Driver) : Driver :=
  { d with nonceReportSentAttempt := d.nonceReportSentAttempt + 1 }

/-- The message is given up instead of an attempt from the count `attempts`. -/
def GivesUp (d : Driver) (msg : Msg) (attempts nodeId : UInt8) : Prop :=
  attempts ≥ msg.maxSendAttempts ∨ d.presumedDead nodeId msg = true

/-- The driver before it transmits the current message once more. -/
def attempt (d : Driver) (msg : Msg) : Driver :=
  { d.expect (d.nextAttempt msg).1 with nextCallbackId := (d.nextAttempt msg).2 }

/-- There is no message; or it is given up or transmitted; or, with a nonce
report outstanding, it is given up, the report is sent again, or the message is
transmitted as it is because the node of the report is unknown. -/
theorem writeMsg_cases (d : Driver) (nonce : Vector UInt8 8) (port : Bool) :
    (d.currentMsg = none ∧ d.writeMsg nonce port = (d.clearExpected, false)) ∨
    ∃ msg, d.currentMsg = some msg ∧
      ((d.nonceReportSent = 0 ∧
          (d.GivesUp msg msg.sendAttempts msg.targetNodeId ∧
              d.writeMsg nonce port = (d.dropCurrent, false) ∨
            ¬ d.GivesUp msg msg.sendAttempts msg.targetNodeId ∧
              d.writeMsg nonce port = (d.attempt msg).transmit (d.nextAttempt msg).1 port)) ∨
        d.nonceReportSent ≠ 0 ∧
          (d.GivesUp msg d.nonceReportSentAttempt d.nonceReportSent ∧
              d.writeMsg nonce port = (d.countReport.dropCurrent, false) ∨
            ¬ d.GivesUp msg d.nonceReportSentAttempt d.nonceReportSent ∧
              ((d.nodes d.nonceReportSent ≠ none ∧ d.writeMsg nonce port =
                  (d.countReport.sendNonceKey d.nonceReportSent nonce, true)) ∨
                d.nodes d.nonceReportSent = none ∧
                  d.writeMsg nonce port = d.countReport.transmit msg port))) := by
  rw [writeMsg]
  split
  · rename_i hcurrent
    exact Or.inl ⟨hcurrent, rfl⟩
  · rename_i msg hcurrent
    refine Or.inr ⟨msg, hcurrent, ?_⟩
    rcases eq_or_ne d.nonceReportSent 0 with hzero | hreport
    · refine Or.inl ⟨hzero, ?_⟩
      simp only [hzero, bne_self_eq_false, Bool.false_eq_true, if_false]
      by_cases hgives : d.GivesUp msg msg.sendAttempts msg.targetNodeId
      · exact Or.inl ⟨hgives, if_pos hgives⟩
      · exact Or.inr ⟨hgives, if_neg hgives⟩
    · refine Or.inr ⟨hreport, ?_⟩
      simp only [bne_iff_ne.mpr hreport, if_true]
      by_cases hgives : d.GivesUp msg d.nonceReportSentAttempt d.nonceReportSent
      · exact Or.inl ⟨hgives, if_pos hgives⟩
      · refine Or.inr ⟨hgives, ?_⟩
        cases hnode : d.nodes d.nonceReportSent with
        | some node => exact Or.inl ⟨nofun, if_neg hgives⟩
        | none => exact Or.inr ⟨rfl, if_neg hgives⟩

end Driver

end OpenZWave

import OpenZWave.Driver.Calls
import OpenZWave.Driver.WriteMsg

/-!
# Processing a received frame

`ProcessMsg` runs the exchange of nonces, hands the frame to the handler of its
function, and then matches it with the callback and the reply that the current
message waits for. The result also says whether the frame completed the
transaction. Bytes behind the frame read as zero, as in the cleared buffer of
`ReadMsg`.
-/

namespace OpenZWave

/-- What becomes of an encapsulated message: there is no nonce for it, it does
not decrypt, or these are the bytes from the class byte on. -/
inductive Opened
  | noNonce
  | failed
  | command (payload : List UInt8)

/-- A received frame without SOF and length byte, with what is outside the
model: the random nonce, the result of decrypting, and the calls that the
handler makes. -/
structure Received where
  data : List UInt8
  nonce : Vector UInt8 8
  opened : Opened
  calls : List DriverCall

namespace Received

/-- A command of the Security class. -/
def isSecurity (f : Received) : Bool :=
  f.data.getD 0 0 == REQUEST && f.data.getD 1 0 == FuncId.applicationCommandHandler
    && f.data.getD 5 0 == ClassId.security

/-- An encapsulated command. -/
def isEncap (f : Received) : Bool :=
  f.isSecurity && (f.data.getD 6 0 == SecurityCmd.messageEncap
    || f.data.getD 6 0 == SecurityCmd.messageEncapNonceGet)

/-- The frame as it is handled: an encapsulated command replaces its capsule. -/
def content (f : Received) : List UInt8 :=
  match f.isEncap, f.opened with
  | true, .command payload => f.data.take 4 ++ (f.data.getD 4 0 - 20) :: payload
  | _, _ => f.data

theorem content_of_not_isEncap {f : Received} (h : f.isEncap = false) : f.content = f.data := by
  rw [content, h]

/-- What is in a capsule is handled as a request. -/
theorem request_of_isEncap {f : Received} (h : f.isEncap = true) :
    f.content.getD 0 0 = REQUEST := by
  have hsecurity : f.isSecurity = true := (Bool.and_eq_true_iff.mp h).1
  simp only [isSecurity, Bool.and_eq_true, beq_iff_eq] at hsecurity
  obtain ⟨⟨hrequest, hfunction⟩, -⟩ := hsecurity
  rw [content, h]
  split
  · cases hdata : f.data with
    | nil =>
        rw [hdata] at hfunction
        exact absurd hfunction (by decide)
    | cons first rest =>
        rw [hdata] at hrequest
        exact hrequest
  · exact hrequest

end Received

namespace Driver

/-! ## Responses that accept or reject a command -/

/-- The common part of these handlers: the state of the command, and whether
the callback is still to come. -/
def handleCommandResponse (d : Driver) (accepted : Bool) (error : ControllerError) :
    Driver × Bool :=
  (d.updateControllerState (if accepted then .inProgress else .failed) error, accepted)

/-- `HandleAssignReturnRouteResponse`. -/
def handleAssignReturnRouteResponse (d : Driver) (data : List UInt8) : Driver × Bool :=
  d.handleCommandResponse (data.getD 2 0 != 0) .none

/-- `HandleDeleteReturnRouteResponse`. -/
def handleDeleteReturnRouteResponse (d : Driver) (data : List UInt8) : Driver × Bool :=
  d.handleCommandResponse (data.getD 2 0 != 0) .none

/-- `HandleNetworkUpdateResponse`. -/
def handleNetworkUpdateResponse (d : Driver) (data : List UInt8) : Driver × Bool :=
  d.handleCommandResponse (data.getD 2 0 != 0) .none

/-- The reason `HandleRemoveFailedNodeResponse` reports. -/
def removeFailedNodeError (status : UInt8) : ControllerError :=
  if status = 0x08 then .notFound
  else if status = 0x10 then .busy
  else if status = 0x20 then .failed
  else if status = 0x02 then .notPrimary
  else .none

/-- `HandleRemoveFailedNodeResponse`: here a status of zero is success. -/
def handleRemoveFailedNodeResponse (d : Driver) (data : List UInt8) : Driver × Bool :=
  d.handleCommandResponse (data.getD 2 0 == 0) (removeFailedNodeError (data.getD 2 0))

/-- `HandleReplaceFailedNodeResponse`: here a status of zero is success. -/
def handleReplaceFailedNodeResponse (d : Driver) (data : List UInt8) : Driver × Bool :=
  d.handleCommandResponse (data.getD 2 0 == 0) .none

/-- `HandleSetSlaveLearnModeResponse`. -/
def handleSetSlaveLearnModeResponse (d : Driver) (data : List UInt8) : Driver × Bool :=
  d.handleCommandResponse (data.getD 2 0 != 0) .none

/-- `HandleSendSlaveNodeInfoResponse`: without a command in progress it fails. -/
def handleSendSlaveNodeInfoResponse (d : Driver) (data : List UInt8) : Driver × Bool :=
  if d.currentControllerCommand = none then (d, false)
  else d.handleCommandResponse (data.getD 2 0 != 0) .none

/-- The response handlers with a result. -/
def handleAcceptance (d : Driver) (data : List UInt8) : Option (Driver × Bool) :=
  let function := data.getD 1 0
  if function = FuncId.assignReturnRoute then some (d.handleAssignReturnRouteResponse data)
  else if function = FuncId.deleteReturnRoute then some (d.handleDeleteReturnRouteResponse data)
  else if function = FuncId.requestNetworkUpdate then some (d.handleNetworkUpdateResponse data)
  else if function = FuncId.removeFailedNodeId then some (d.handleRemoveFailedNodeResponse data)
  else if function = FuncId.replaceFailedNode then some (d.handleReplaceFailedNodeResponse data)
  else if function = FuncId.setSlaveLearnMode then some (d.handleSetSlaveLearnModeResponse data)
  else if function = FuncId.sendSlaveNodeInfo then some (d.handleSendSlaveNodeInfoResponse data)
  else none

/-- The callback of a rejected command will not come, so the transaction is
forced to complete. -/
def forceCompletion (d : Driver) (status : UInt8) : Driver :=
  { d with
    expectedCallbackId := status
    expectedReply := 0
    expectedCommandClassId := 0
    expectedNodeId := 0 }

/-- The switch over responses: the driver, and whether the frame is matched
with the expectations of the current message. -/
def handleResponse (d : Driver) (data : List UInt8) (calls : List DriverCall) : Driver × Bool :=
  let d := d.calls calls
  if data.getD 1 0 = FuncId.sendData ∨ data.getD 1 0 = FuncId.replicationSendData then (d, false)
  else
    match d.handleAcceptance data with
    | some (d, true) => (d, true)
    | some (d, false) => (d.forceCompletion (data.getD 2 0), true)
    | none => (d, true)

/-! ## Requests -/

/-- `HandleErrorResponse`, as far as it moves messages. -/
def handleErrorResponse (d : Driver) (error : UInt8) (sleepCheck : Bool) : Driver × Bool :=
  match d.currentMsg with
  | none => (d, false)
  | some msg =>
      if error = transmitCompleteNoAck then
        d.moveMessagesToWakeUpQueue msg.targetNodeId sleepCheck
      else (d, false)

/-- The notification that a NoOperation message has been sent. -/
def notifyNoOperation (d : Driver) : Driver :=
  match d.currentMsg with
  | none => d
  | some msg =>
      if msg.isNoOperation then d.queueNotification (.noOperation msg.targetNodeId) else d

/-- `HandleSendDataRequest`: a callback id above 10 must be the expected one. -/
def handleSendDataRequest (d : Driver) (data : List UInt8) (replication : Bool)
    (calls : List DriverCall) : Driver :=
  if data.getD 2 0 > 10 ∧ data.getD 2 0 ≠ d.expectedCallbackId then d
  else if data.getD 3 0 ≠ transmitCompleteOk then
    ((d.notifyNoOperation.handleErrorResponse (data.getD 3 0) !replication).1).calls calls
  else d.notifyNoOperation.calls calls

/-- `HandleApplicationUpdateRequest`: after a failed request for node
information the messages of the node are moved; true when they were. -/
def handleApplicationUpdateRequest (d : Driver) (data : List UInt8) (calls : List DriverCall) :
    Driver × Bool :=
  let d := d.calls calls
  if data.getD 2 0 = updateStateNodeInfoReqFailed then
    match d.currentMsg with
    | none => (d, false)
    | some msg =>
        let moved := d.moveMessagesToWakeUpQueue msg.targetNodeId true
        if moved.2 then (moved.1.clearExpected, true) else (moved.1, false)
  else (d, false)

/-- The switch over requests. -/
def handleRequest (d : Driver) (data : List UInt8) (calls : List DriverCall) : Driver × Bool :=
  if data.getD 1 0 = FuncId.sendData then (d.handleSendDataRequest data false calls, true)
  else if data.getD 1 0 = FuncId.replicationSendData then
    (d.handleSendDataRequest data true calls, true)
  else if data.getD 1 0 = FuncId.applicationUpdate then
    let handled := d.handleApplicationUpdateRequest data calls
    (handled.1, !handled.2)
  else (d.calls calls, true)

/-! ## Callbacks and replies -/

/-- The replies that do not name the node they come from. -/
def anonymousReplies : List UInt8 :=
  [FuncId.getNodeProtocolInfo, FuncId.requestNodeInfo, FuncId.getRoutingInfo,
    FuncId.assignReturnRoute, FuncId.deleteReturnRoute, FuncId.sendData,
    FuncId.sendNodeInformation, FuncId.requestNodeNeighborUpdate, FuncId.enableSUC,
    FuncId.setSUCNodeId, FuncId.requestNodeNeighborUpdateOptions]

/-- `IsExpectedReply`. -/
def isExpectedReply (d : Driver) (nodeId : UInt8) : Bool :=
  d.expectedNodeId == 255 || nodeId == 0 || anonymousReplies.contains d.expectedReply
    || d.expectedNodeId == nodeId

/-- The test of the callback id; `none` when the frame is dropped as part of a
nonce exchange. -/
def matchCallback (d : Driver) (data : List UInt8) : Option Driver :=
  if d.expectedCallbackId = 0 then some d
  else if d.expectedCallbackId = data.getD 2 0 then some { d with expectedCallbackId := 0 }
  else if data.getD 2 0 = 2 ∨ data.getD 2 0 = 1 then none
  else some d

/-- The test of the reply. -/
def matchReply (d : Driver) (data : List UInt8) : Driver :=
  if d.expectedReply = 0 ∨ d.expectedReply ≠ data.getD 1 0 then d
  else if d.expectedCommandClassId ≠ 0 ∧ d.expectedReply = FuncId.applicationCommandHandler then
    if d.expectedCallbackId = 0 ∧ d.expectedCommandClassId = data.getD 5 0
        ∧ d.expectedNodeId = data.getD 3 0 then
      { d with
        waitingForAck := false
        expectedReply := 0
        expectedCommandClassId := 0
        expectedNodeId := 0 }
    else d
  else if d.isExpectedReply (data.getD 3 0) then
    { d with expectedReply := 0, expectedNodeId := 0 }
  else d

/-- The end of a transaction. -/
def complete (d : Driver) : Driver :=
  let d :=
    if d.notifyTransactions then
      d.queueNotification (.msgComplete (getNodeNumber d.currentMsg))
    else d
  d.removeCurrentMsg

/-- The generic callback handling. -/
def handleCallback (d : Driver) (data : List UInt8) : Driver × Bool :=
  if d.expectedCallbackId = 0 ∧ d.expectedReply = 0 then (d, false)
  else
    match d.matchCallback data with
    | none => (d, false)
    | some d =>
        let d := d.matchReply data
        if d.expectedCallbackId = 0 ∧ d.expectedReply = 0 then (d.complete, true)
        else (d, false)

/-! ## The whole frame -/

/-- The handler of the frame, and the generic handling after it. -/
def dispatch (d : Driver) (data : List UInt8) (calls : List DriverCall) : Driver × Bool :=
  let handled :=
    if data.getD 0 0 = RESPONSE then d.handleResponse data calls
    else if data.getD 0 0 = REQUEST then d.handleRequest data calls
    else (d, true)
  if handled.2 then handled.1.handleCallback data else (handled.1, false)

/-- A nonce report: the current message is encrypted with it and written. -/
def receiveNonce (d : Driver) (nonce : Vector UInt8 8) : Driver :=
  match d.currentMsg with
  | none => d
  | some msg =>
      let updated := msg.setNonce nonce d.nextCallbackId
      { d with currentMsg := some updated.1, nextCallbackId := updated.2 }.sendEncryptedMessage

/-- A new nonce goes to the node that asks for one. -/
def reportNonce (d : Driver) (nodeId : UInt8) (nonce : Vector UInt8 8) : Driver :=
  match d.nodes nodeId with
  | none => d
  | some _ => d.sendNonceKey nodeId nonce

/-- `ProcessMsg`. -/
def processMsg (d : Driver) (f : Received) : Driver × Bool :=
  let command := f.data.getD 6 0
  let source := f.data.getD 3 0
  if f.isSecurity && command == SecurityCmd.nonceReport then
    (d.receiveNonce (Vector.ofFn fun i => f.data.getD (7 + i) 0), false)
  else if f.isSecurity && command == SecurityCmd.nonceGet then
    (d.reportNonce source f.nonce, false)
  else if f.isEncap then
    let d := { d with nonceReportSent := 0, nonceReportSentAttempt := 0 }
    let answered :=
      if command = SecurityCmd.messageEncapNonceGet then d.reportNonce source f.nonce else d
    if d.nodes source = none then (d, false)
    else
      match f.opened with
      | .noNonce => (d, false)
      | .failed => (answered.removeCurrentMsg, false)
      | .command _ => answered.dispatch f.content f.calls
  else d.dispatch f.data f.calls

end Driver

end OpenZWave

import OpenZWave.Driver.Run
import OpenZWave.Lib.Trace

/-!
# The calls that an event makes

The handlers of frames change queues, nodes and controller commands only by
calls. `frameTrace` lists the calls that a frame leads to, each with the state
in which it is made; between them, only what the driver waits for and what it
reports changes.
-/

namespace OpenZWave

/-- A frame of the exchange of nonces. -/
def Written.OfExchange : Written → Prop
  | .nonceGet _ | .nonceReport _ _ => True
  | _ => False

namespace Driver

/-- Neither an item nor an event nor a command nor a node changes, and nothing is
written but for an exchange of nonces. -/
structure Inert (d d' : Driver) : Prop where
  msgQueue : d'.msgQueue = d.msgQueue
  queueEvent : d'.queueEvent = d.queueEvent
  currentMsg : d'.currentMsg = d.currentMsg
  command : d'.currentControllerCommand = d.currentControllerCommand
  ccis : d'.ccis = d.ccis
  nextCci : d'.nextCci = d.nextCci
  nodes : d'.nodes = d.nodes
  written : ∃ frames, d'.written = d.written ++ frames ∧ ∀ frame ∈ frames, frame.OfExchange

theorem Inert.refl (d : Driver) : Inert d d :=
  ⟨rfl, rfl, rfl, rfl, rfl, rfl, rfl, [], (List.append_nil _).symm, nofun⟩

theorem Inert.trans {d d' d'' : Driver} (h : Inert d d') (h' : Inert d' d'') : Inert d d'' := by
  obtain ⟨frames, heq, hframes⟩ := h.written
  obtain ⟨frames', heq', hframes'⟩ := h'.written
  refine ⟨h'.msgQueue.trans h.msgQueue, h'.queueEvent.trans h.queueEvent,
    h'.currentMsg.trans h.currentMsg, h'.command.trans h.command, h'.ccis.trans h.ccis,
    h'.nextCci.trans h.nextCci, h'.nodes.trans h.nodes, frames ++ frames', ?_, ?_⟩
  · rw [heq', heq, List.append_assoc]
  · intro frame hframe
    rcases List.mem_append.mp hframe with hframe | hframe
    · exact hframes frame hframe
    · exact hframes' frame hframe

/-- Calls, each with the state in which it is made. -/
abbrev CallTrace := List (Driver × DriverCall)

/-- The driver does what the calls of the trace do. -/
abbrev Leads (d : Driver) (t : CallTrace) (d' : Driver) : Prop := Trace.Leads call Inert d t d'

/-! ## The calls of the handlers -/

/-- The call by which a response handler tells the state of the command. -/
def responseCall (accepted : Bool) (error : ControllerError) : DriverCall :=
  .updateControllerState (if accepted then .inProgress else .failed) error

/-- The call of `handleAcceptance`. -/
def acceptanceCalls (d : Driver) (data : List UInt8) : List DriverCall :=
  let function := data.getD 1 0
  let status := data.getD 2 0
  if function = FuncId.assignReturnRoute then [responseCall (status != 0) .none]
  else if function = FuncId.deleteReturnRoute then [responseCall (status != 0) .none]
  else if function = FuncId.requestNetworkUpdate then [responseCall (status != 0) .none]
  else if function = FuncId.removeFailedNodeId then
    [responseCall (status == 0) (removeFailedNodeError status)]
  else if function = FuncId.replaceFailedNode then [responseCall (status == 0) .none]
  else if function = FuncId.setSlaveLearnMode then [responseCall (status != 0) .none]
  else if function = FuncId.sendSlaveNodeInfo then
    if d.currentControllerCommand = none then [] else [responseCall (status != 0) .none]
  else []

/-- The calls of `handleResponse`. -/
def responseTrace (d : Driver) (data : List UInt8) (calls : List DriverCall) : CallTrace :=
  let made := Trace.listed call d calls
  if data.getD 1 0 = FuncId.sendData ∨ data.getD 1 0 = FuncId.replicationSendData then made
  else made ++ Trace.listed call (d.calls calls) ((d.calls calls).acceptanceCalls data)

/-- The calls of `handleErrorResponse`. -/
def errorCalls (d : Driver) (error : UInt8) (sleepCheck : Bool) : List DriverCall :=
  match d.currentMsg with
  | none => []
  | some msg =>
      if error = transmitCompleteNoAck then
        [.moveMessagesToWakeUpQueue msg.targetNodeId sleepCheck]
      else []

/-- The calls of `handleSendDataRequest`. -/
def sendDataTrace (d : Driver) (data : List UInt8) (replication : Bool)
    (calls : List DriverCall) : CallTrace :=
  if data.getD 2 0 > 10 ∧ data.getD 2 0 ≠ d.expectedCallbackId then []
  else if data.getD 3 0 ≠ transmitCompleteOk then
    Trace.listed call d.notifyNoOperation
        (d.notifyNoOperation.errorCalls (data.getD 3 0) !replication) ++
      Trace.listed call (d.notifyNoOperation.handleErrorResponse (data.getD 3 0) !replication).1
        calls
  else Trace.listed call d.notifyNoOperation calls

/-- The calls of `handleApplicationUpdateRequest`. -/
def applicationUpdateTrace (d : Driver) (data : List UInt8) (calls : List DriverCall) :
    CallTrace :=
  Trace.listed call d calls ++
    if data.getD 2 0 = updateStateNodeInfoReqFailed then
      match (d.calls calls).currentMsg with
      | none => []
      | some msg => [(d.calls calls, .moveMessagesToWakeUpQueue msg.targetNodeId true)]
    else []

/-- The calls of `handleRequest`. -/
def requestTrace (d : Driver) (data : List UInt8) (calls : List DriverCall) : CallTrace :=
  if data.getD 1 0 = FuncId.sendData then d.sendDataTrace data false calls
  else if data.getD 1 0 = FuncId.replicationSendData then d.sendDataTrace data true calls
  else if data.getD 1 0 = FuncId.applicationUpdate then d.applicationUpdateTrace data calls
  else Trace.listed call d calls

/-- The driver before the message of a completed transaction is removed. -/
def notifyComplete (d : Driver) : Driver :=
  if d.notifyTransactions then d.queueNotification (.msgComplete (getNodeNumber d.currentMsg))
  else d

/-- The calls of `handleCallback`: a completed transaction ends. -/
def callbackTrace (d : Driver) (data : List UInt8) : CallTrace :=
  if d.expectedCallbackId = 0 ∧ d.expectedReply = 0 then []
  else
    match d.matchCallback data with
    | none => []
    | some d =>
        let d := d.matchReply data
        if d.expectedCallbackId = 0 ∧ d.expectedReply = 0 then
          [(d.notifyComplete, .removeCurrentMsg)]
        else []

/-- The calls of `dispatch`. -/
def dispatchTrace (d : Driver) (data : List UInt8) (calls : List DriverCall) : CallTrace :=
  let handled :=
    if data.getD 0 0 = RESPONSE then d.handleResponse data calls
    else if data.getD 0 0 = REQUEST then d.handleRequest data calls
    else (d, true)
  let made :=
    if data.getD 0 0 = RESPONSE then d.responseTrace data calls
    else if data.getD 0 0 = REQUEST then d.requestTrace data calls
    else []
  made ++ if handled.2 then handled.1.callbackTrace data else []

/-- The driver after the nonce exchange that an encapsulated command is part of. -/
def answerEncap (d : Driver) (f : Received) : Driver :=
  let d := { d with nonceReportSent := 0, nonceReportSentAttempt := 0 }
  if f.data.getD 6 0 = SecurityCmd.messageEncapNonceGet then d.reportNonce (f.data.getD 3 0) f.nonce
  else d

/-- The calls that a frame leads to; a nonce report makes none. -/
def frameTrace (d : Driver) (f : Received) : CallTrace :=
  if f.isSecurity && f.data.getD 6 0 == SecurityCmd.nonceReport then []
  else if f.isSecurity && f.data.getD 6 0 == SecurityCmd.nonceGet then []
  else if f.isEncap then
    if d.nodes (f.data.getD 3 0) = none then []
    else
      match f.opened with
      | .noNonce => []
      | .failed => [(d.answerEncap f, .removeCurrentMsg)]
      | .command _ => (d.answerEncap f).dispatchTrace f.content f.calls
  else d.dispatchTrace f.data f.calls

/-- The calls of an ACK. -/
def ackTrace (d : Driver) : CallTrace :=
  if d.currentMsg.isSome && d.expectedCallbackId == 0 && d.expectedReply == 0 then
    [({ d with waitingForAck := false }, .removeCurrentMsg)]
  else []

/-! ## What the driver does is what the calls do -/

section

variable {d d' : Driver}

theorem leads_calls (d : Driver) (calls : List DriverCall) :
    Leads d (Trace.listed call d calls) (d.calls calls) :=
  Trace.leads_listed Inert.refl d calls

theorem leads_call (h : Inert d d') (c : DriverCall) : Leads d [(d', c)] (d'.call c) :=
  .step h (.silent (Inert.refl _))

theorem Leads.append {d'' : Driver} {t t' : CallTrace} (h : Leads d t d') (h' : Leads d' t' d'') :
    Leads d (t ++ t') d'' :=
  Trace.Leads.append Inert.trans h h'

theorem Leads.inert {d'' : Driver} {t : CallTrace} (h : Leads d t d') (h' : Inert d' d'') :
    Leads d t d'' := by
  have happend := Leads.append h (.silent h')
  rwa [List.append_nil] at happend

theorem Inert.leads {d'' : Driver} {t : CallTrace} (h : Inert d d') (h' : Leads d' t d'') :
    Leads d t d'' :=
  Leads.append (.silent h) h'

theorem leads_handleAcceptance {data : List UInt8} {accepted : Bool}
    (h : d.handleAcceptance data = some (d', accepted)) :
    Leads d (Trace.listed call d (d.acceptanceCalls data)) d' := by
  have hcommand : ∀ {accepted' : Bool} {error : ControllerError},
      some (d.handleCommandResponse accepted' error) = some (d', accepted) →
        Leads d (Trace.listed call d [responseCall accepted' error]) d' := by
    intro accepted' error heq
    have hstate : d.call (responseCall accepted' error) = d' :=
      congrArg Prod.fst (Option.some.inj heq)
    rw [← hstate]
    exact leads_calls d [responseCall accepted' error]
  simp only [handleAcceptance] at h
  simp only [acceptanceCalls]
  iterate 6
    split at h
    · rename_i hfunction
      rw [if_pos hfunction]
      exact hcommand h
    rename_i hfunction
    rw [if_neg hfunction]
  split at h
  · rename_i hfunction
    rw [if_pos hfunction]
    rw [handleSendSlaveNodeInfoResponse] at h
    split at h
    · rename_i hnone
      obtain ⟨rfl, -⟩ := Prod.mk.inj (Option.some.inj h)
      rw [if_pos hnone]
      exact .silent (Inert.refl _)
    · rename_i hsome
      rw [if_neg hsome]
      exact hcommand h
  · cases h

/-- The other functions have no such handler. -/
theorem acceptanceCalls_eq_nil {data : List UInt8} (h : d.handleAcceptance data = none) :
    d.acceptanceCalls data = [] := by
  simp only [handleAcceptance] at h
  simp only [acceptanceCalls]
  iterate 7
    split at h
    · cases h
    rename_i hfunction
    rw [if_neg hfunction]

theorem leads_handleResponse (d : Driver) (data : List UInt8) (calls : List DriverCall) :
    Leads d (d.responseTrace data calls) (d.handleResponse data calls).1 := by
  have hcalls := leads_calls d calls
  rw [responseTrace, handleResponse]
  split
  · exact hcalls
  · split
    · rename_i accepted haccept
      exact hcalls.append (leads_handleAcceptance haccept)
    · rename_i rejected hreject
      have hforced : Inert rejected (rejected.forceCompletion (data.getD 2 0)) :=
        ⟨rfl, rfl, rfl, rfl, rfl, rfl, rfl, [], (List.append_nil _).symm, nofun⟩
      exact (hcalls.append (leads_handleAcceptance hreject)).inert hforced
    · rename_i hnone
      rw [acceptanceCalls_eq_nil hnone]
      exact hcalls.append (.silent (Inert.refl _))

theorem leads_handleErrorResponse (d : Driver) (error : UInt8) (sleepCheck : Bool) :
    Leads d (Trace.listed call d (d.errorCalls error sleepCheck))
      (d.handleErrorResponse error sleepCheck).1 := by
  rw [errorCalls, handleErrorResponse]
  cases d.currentMsg with
  | none => exact .silent (Inert.refl d)
  | some msg =>
      dsimp only
      split
      · exact leads_calls d [.moveMessagesToWakeUpQueue msg.targetNodeId sleepCheck]
      · exact .silent (Inert.refl d)

theorem inert_notifyNoOperation (d : Driver) : Inert d d.notifyNoOperation := by
  rw [notifyNoOperation]
  split
  · exact Inert.refl d
  · split
    · exact ⟨rfl, rfl, rfl, rfl, rfl, rfl, rfl, [], (List.append_nil _).symm, nofun⟩
    · exact Inert.refl d

theorem leads_handleSendDataRequest (d : Driver) (data : List UInt8) (replication : Bool)
    (calls : List DriverCall) :
    Leads d (d.sendDataTrace data replication calls)
      (d.handleSendDataRequest data replication calls) := by
  have hnotified := inert_notifyNoOperation d
  rw [sendDataTrace, handleSendDataRequest]
  split
  · exact .silent (Inert.refl d)
  · split
    · exact hnotified.leads ((leads_handleErrorResponse _ _ _).append (leads_calls _ calls))
    · exact hnotified.leads (leads_calls _ calls)

theorem leads_handleApplicationUpdateRequest (d : Driver) (data : List UInt8)
    (calls : List DriverCall) :
    Leads d (d.applicationUpdateTrace data calls) (d.handleApplicationUpdateRequest data calls).1 := by
  have hcalls := leads_calls d calls
  rw [applicationUpdateTrace, handleApplicationUpdateRequest]
  generalize d.calls calls = e at hcalls ⊢
  dsimp only
  split
  · cases e.currentMsg with
    | none => exact hcalls.append (.silent (Inert.refl e))
    | some msg =>
        have hmoved := hcalls.append
          (leads_call (Inert.refl e) (.moveMessagesToWakeUpQueue msg.targetNodeId true))
        dsimp only
        split
        · exact hmoved.inert
            ⟨rfl, rfl, rfl, rfl, rfl, rfl, rfl, [], (List.append_nil _).symm, nofun⟩
        · exact hmoved
  · exact hcalls.append (.silent (Inert.refl e))

theorem leads_handleRequest (d : Driver) (data : List UInt8) (calls : List DriverCall) :
    Leads d (d.requestTrace data calls) (d.handleRequest data calls).1 := by
  rw [requestTrace, handleRequest]
  split
  · exact leads_handleSendDataRequest d data false calls
  · split
    · exact leads_handleSendDataRequest d data true calls
    · split
      · exact leads_handleApplicationUpdateRequest d data calls
      · exact leads_calls d calls

theorem inert_matchCallback {data : List UInt8} (h : d.matchCallback data = some d') :
    Inert d d' := by
  rw [matchCallback] at h
  split at h
  · obtain rfl := Option.some.inj h
    exact Inert.refl d
  · split at h
    · obtain rfl := Option.some.inj h
      exact ⟨rfl, rfl, rfl, rfl, rfl, rfl, rfl, [], (List.append_nil _).symm, nofun⟩
    · split at h
      · cases h
      · obtain rfl := Option.some.inj h
        exact Inert.refl d

theorem inert_matchReply (d : Driver) (data : List UInt8) : Inert d (d.matchReply data) := by
  have hcleared : Inert d { d with expectedReply := 0, expectedNodeId := 0 } :=
    ⟨rfl, rfl, rfl, rfl, rfl, rfl, rfl, [], (List.append_nil _).symm, nofun⟩
  have hanswered : Inert d { d with
      waitingForAck := false
      expectedReply := 0
      expectedCommandClassId := 0
      expectedNodeId := 0 } :=
    ⟨rfl, rfl, rfl, rfl, rfl, rfl, rfl, [], (List.append_nil _).symm, nofun⟩
  rw [matchReply]
  split
  · exact Inert.refl d
  · split
    · split
      · exact hanswered
      · exact Inert.refl d
    · split
      · exact hcleared
      · exact Inert.refl d

theorem inert_notifyComplete (d : Driver) : Inert d d.notifyComplete := by
  rw [notifyComplete]
  split
  · exact ⟨rfl, rfl, rfl, rfl, rfl, rfl, rfl, [], (List.append_nil _).symm, nofun⟩
  · exact Inert.refl d

theorem leads_handleCallback (d : Driver) (data : List UInt8) :
    Leads d (d.callbackTrace data) (d.handleCallback data).1 := by
  rw [callbackTrace, handleCallback]
  split
  · exact .silent (Inert.refl d)
  · cases hmatch : d.matchCallback data with
    | none => exact .silent (Inert.refl d)
    | some matched =>
        have hmatched := (inert_matchCallback hmatch).trans (inert_matchReply matched data)
        dsimp only
        split
        · exact leads_call (hmatched.trans (inert_notifyComplete _)) .removeCurrentMsg
        · exact .silent hmatched

theorem leads_dispatch (d : Driver) (data : List UInt8) (calls : List DriverCall) :
    Leads d (d.dispatchTrace data calls) (d.dispatch data calls).1 := by
  have hhandled : Leads d
      (if data.getD 0 0 = RESPONSE then d.responseTrace data calls
        else if data.getD 0 0 = REQUEST then d.requestTrace data calls else [])
      (if data.getD 0 0 = RESPONSE then d.handleResponse data calls
        else if data.getD 0 0 = REQUEST then d.handleRequest data calls else (d, true)).1 := by
    split
    · exact leads_handleResponse d data calls
    · split
      · exact leads_handleRequest d data calls
      · exact .silent (Inert.refl d)
  rw [dispatchTrace, dispatch]
  generalize (if data.getD 0 0 = RESPONSE then d.handleResponse data calls
    else if data.getD 0 0 = REQUEST then d.handleRequest data calls else (d, true)) = handled
    at hhandled ⊢
  generalize (if data.getD 0 0 = RESPONSE then d.responseTrace data calls
    else if data.getD 0 0 = REQUEST then d.requestTrace data calls else []) = made
    at hhandled ⊢
  split
  · exact hhandled.append (leads_handleCallback _ data)
  · exact hhandled.append (.silent (Inert.refl _))

theorem inert_reportNonce (d : Driver) (nodeId : UInt8) (nonce : Vector UInt8 8) :
    Inert d (d.reportNonce nodeId nonce) := by
  rw [reportNonce]
  split
  · exact Inert.refl d
  · exact ⟨rfl, rfl, rfl, rfl, rfl, rfl, rfl, [.nonceReport nodeId nonce], rfl,
      List.forall_mem_singleton.mpr trivial⟩

theorem inert_answerEncap (d : Driver) (f : Received) : Inert d (d.answerEncap f) := by
  have hcleared : Inert d { d with nonceReportSent := 0, nonceReportSentAttempt := 0 } :=
    ⟨rfl, rfl, rfl, rfl, rfl, rfl, rfl, [], (List.append_nil _).symm, nofun⟩
  rw [answerEncap]
  split
  · exact hcleared.trans (inert_reportNonce _ _ _)
  · exact hcleared

/-- A frame but for a nonce report does what its calls do. -/
theorem leads_processMsg (d : Driver) (f : Received)
    (hreport : (f.isSecurity && f.data.getD 6 0 == SecurityCmd.nonceReport) = false) :
    Leads d (d.frameTrace f) (d.processMsg f).1 := by
  have hcleared : Inert d { d with nonceReportSent := 0, nonceReportSentAttempt := 0 } :=
    ⟨rfl, rfl, rfl, rfl, rfl, rfl, rfl, [], (List.append_nil _).symm, nofun⟩
  have hanswered := inert_answerEncap d f
  rw [frameTrace, processMsg]
  dsimp only
  rw [hreport, if_neg Bool.false_ne_true, if_neg Bool.false_ne_true]
  split
  · exact .silent (inert_reportNonce d _ _)
  · split
    · split
      · exact .silent hcleared
      · cases f.opened with
        | noNonce => exact .silent hcleared
        | failed => exact leads_call hanswered .removeCurrentMsg
        | command payload => exact hanswered.leads (leads_dispatch _ f.content f.calls)
    · exact leads_dispatch d f.data f.calls

theorem leads_readAck (d : Driver) : Leads d d.ackTrace d.readAck := by
  have hacked : Inert d { d with waitingForAck := false } :=
    ⟨rfl, rfl, rfl, rfl, rfl, rfl, rfl, [], (List.append_nil _).symm, nofun⟩
  rw [ackTrace, readAck]
  dsimp only
  split
  · exact leads_call hacked .removeCurrentMsg
  · exact .silent hacked

end

/-! ## Which calls these are -/

section

variable {P : DriverCall → Prop} {d : Driver}

theorem forall_listed {calls : List DriverCall} (h : ∀ c ∈ calls, P c) :
    ∀ x ∈ Trace.listed call d calls, P x.2 := by
  induction calls generalizing d with
  | nil => exact List.forall_mem_nil _
  | cons c calls ih =>
      obtain ⟨hfirst, hrest⟩ := List.forall_mem_cons.mp h
      exact List.forall_mem_cons.mpr ⟨hfirst, ih hrest⟩

theorem forall_append {t t' : CallTrace} (h : ∀ x ∈ t, P x.2) (h' : ∀ x ∈ t', P x.2) :
    ∀ x ∈ t ++ t', P x.2 := by
  intro x hx
  rcases List.mem_append.mp hx with hx | hx
  · exact h x hx
  · exact h' x hx

theorem forall_acceptanceCalls (hupdate : ∀ state error, P (.updateControllerState state error))
    (data : List UInt8) : ∀ c ∈ d.acceptanceCalls data, P c := by
  have hone : ∀ accepted error, ∀ c ∈ [responseCall accepted error], P c :=
    fun accepted error => List.forall_mem_singleton.mpr (hupdate _ error)
  simp only [acceptanceCalls]
  iterate 6
    split
    · exact hone _ _
  split
  · split
    · exact List.forall_mem_nil _
    · exact hone _ _
  · exact List.forall_mem_nil _

/-- Besides the calls of the code outside the model, a frame only tells the state of
the controller command, moves messages and removes the current one. -/
theorem forall_frameTrace (hupdate : ∀ state error, P (.updateControllerState state error))
    (hmove : ∀ target move, P (.moveMessagesToWakeUpQueue target move))
    (hremove : P .removeCurrentMsg) {f : Received} (hcalls : ∀ c ∈ f.calls, P c) :
    ∀ x ∈ d.frameTrace f, P x.2 := by
  have hsend : ∀ (e : Driver) (data : List UInt8) (replication : Bool),
      ∀ x ∈ e.sendDataTrace data replication f.calls, P x.2 := by
    intro e data replication
    rw [sendDataTrace]
    split
    · exact List.forall_mem_nil _
    · split
      · apply forall_append
        · apply forall_listed
          rw [errorCalls]
          split
          · exact List.forall_mem_nil _
          · split
            · exact List.forall_mem_singleton.mpr (hmove _ _)
            · exact List.forall_mem_nil _
        · exact forall_listed hcalls
      · exact forall_listed hcalls
  have hrequest : ∀ (e : Driver) (data : List UInt8),
      ∀ x ∈ e.requestTrace data f.calls, P x.2 := by
    intro e data
    rw [requestTrace]
    split
    · exact hsend e data false
    · split
      · exact hsend e data true
      · split
        · rw [applicationUpdateTrace]
          apply forall_append (forall_listed hcalls)
          split
          · split
            · exact List.forall_mem_nil _
            · exact List.forall_mem_singleton.mpr (hmove _ _)
          · exact List.forall_mem_nil _
        · exact forall_listed hcalls
  have hresponse : ∀ (e : Driver) (data : List UInt8),
      ∀ x ∈ e.responseTrace data f.calls, P x.2 := by
    intro e data
    rw [responseTrace]
    split
    · exact forall_listed hcalls
    · exact forall_append (forall_listed hcalls)
        (forall_listed (forall_acceptanceCalls hupdate data))
  have hcallback : ∀ (e : Driver) (data : List UInt8), ∀ x ∈ e.callbackTrace data, P x.2 := by
    intro e data
    rw [callbackTrace]
    split
    · exact List.forall_mem_nil _
    · split
      · exact List.forall_mem_nil _
      · dsimp only
        split
        · exact List.forall_mem_singleton.mpr hremove
        · exact List.forall_mem_nil _
  have hdispatch : ∀ (e : Driver) (data : List UInt8),
      ∀ x ∈ e.dispatchTrace data f.calls, P x.2 := by
    intro e data
    rw [dispatchTrace]
    generalize (if data.getD 0 0 = RESPONSE then e.handleResponse data f.calls
      else if data.getD 0 0 = REQUEST then e.handleRequest data f.calls else (e, true)) = handled
    apply forall_append
    · split
      · exact hresponse e data
      · split
        · exact hrequest e data
        · exact List.forall_mem_nil _
    · split
      · exact hcallback _ data
      · exact List.forall_mem_nil _
  rw [frameTrace]
  split
  · exact List.forall_mem_nil _
  · split
    · exact List.forall_mem_nil _
    · split
      · split
        · exact List.forall_mem_nil _
        · split
          · exact List.forall_mem_nil _
          · exact List.forall_mem_singleton.mpr hremove
          · exact hdispatch _ _
      · exact hdispatch d f.data

theorem forall_ackTrace (hremove : P .removeCurrentMsg) : ∀ x ∈ d.ackTrace, P x.2 := by
  rw [ackTrace]
  split
  · exact List.forall_mem_singleton.mpr hremove
  · exact List.forall_mem_nil _

end

end Driver

end OpenZWave

import OpenZWave.Driver.CallbackIds

/-!
# Transmit status callbacks

`HandleSendDataRequest` with all it writes: the statistics of the node of the
current message, its count of errors, whether it is alive and awake, and the
counters of the driver. The time since the message was sent and the calls of
`AdvanceQueries` are arguments.
-/

namespace OpenZWave

/-- The members of `Node` that a transmit status callback writes, besides those
of the driver's model of a node. -/
structure SendRecord where
  sentFailed : UInt32
  lastRequestRTT : UInt32
  averageRequestRTT : UInt32
  errors : UInt8
  queryRetries : UInt8
  queryPending : Bool
  txStatusReportSupported : Bool
  txTime : UInt16
  hops : UInt8
  rssi : Fin 5 → String
  ackChannel : UInt8
  lastTxChannel : UInt8
  routeScheme : UInt8
  routeUsed : Fin 4 → UInt8
  routeSpeed : UInt8
  routeTries : UInt8
  lastFailedLinkFrom : UInt8
  lastFailedLinkTo : UInt8

/-- The counters of `Driver` for callbacks and failed transmissions. -/
structure SendCounters where
  callbacks : UInt32
  badroutes : UInt32
  noack : UInt32
  netbusy : UInt32
  notidle : UInt32
  txverified : UInt32
  deriving DecidableEq

/-- The driver with the records of its nodes and its counters. The notifications
that a node is alive or dead are kept as a history. -/
structure SendState where
  driver : Driver
  records : UInt8 → SendRecord
  counters : SendCounters
  liveness : List (UInt8 × Bool)

/-- `rssi_to_string`. -/
def rssiToString (data : UInt8) : String :=
  if data = 127 then "---"
  else if data = 126 then "MAX"
  else if data = 125 then "MIN"
  else if data ≥ 11 ∧ data ≤ 124 then "UNK"
  else
    let digits := toString ((data.toNat : Int) - 256)
    "".pushn ' ' (4 - digits.length) ++ digits

namespace SendRecord

/-- The constructor of `Node`. -/
def new : SendRecord where
  sentFailed := 0
  lastRequestRTT := 0
  averageRequestRTT := 0
  errors := 0
  queryRetries := 0
  queryPending := false
  txStatusReportSupported := false
  txTime := 0
  hops := 0
  rssi := fun _ => ""
  ackChannel := 0
  lastTxChannel := 0
  routeScheme := 0
  routeUsed := fun _ => 0
  routeSpeed := 0
  routeTries := 0
  lastFailedLinkFrom := 0
  lastFailedLinkTo := 0

/-- The count of failures, or the round trip time and its average. -/
def countTransmission (r : SendRecord) (status : UInt8) (rtt : UInt32) : SendRecord :=
  if status ≠ transmitCompleteOk then { r with sentFailed := r.sentFailed + 1 }
  else
    { r with
      lastRequestRTT := rtt
      averageRequestRTT :=
        if r.averageRequestRTT ≠ 0 then (r.averageRequestRTT + rtt) >>> 1 else rtt }

/-- The extended status of a frame that is long enough for it. -/
def extractTxStatus (r : SendRecord) (data : List UInt8) : SendRecord :=
  let byte := fun i => data.getD i 0
  if data.length ≥ 23 then
    { r with
      txStatusReportSupported := true
      txTime := ((byte 5).toUInt16 + ((byte 4).toUInt16 <<< 8)) * 10
      hops := byte 6
      rssi := fun i => rssiToString (byte (7 + i))
      ackChannel := byte 12
      lastTxChannel := byte 13
      routeScheme := byte 14
      routeUsed := fun i => byte (15 + i)
      routeSpeed := byte 19
      routeTries := byte 20
      lastFailedLinkFrom := byte 21
      lastFailedLinkTo := byte 22 }
  else r

end SendRecord

namespace SendCounters

/-- The counter of `HandleErrorResponse`. -/
def countError (c : SendCounters) (error : UInt8) : SendCounters :=
  if error = transmitCompleteNoRoute then { c with badroutes := c.badroutes + 1 }
  else if error = transmitCompleteNoAck then { c with noack := c.noack + 1 }
  else if error = transmitCompleteFail then { c with netbusy := c.netbusy + 1 }
  else if error = transmitCompleteNotIdle then { c with notidle := c.notidle + 1 }
  else if error = transmitCompleteVerified then { c with txverified := c.txverified + 1 }
  else c

end SendCounters

namespace SendState

/-- Writes the record of a node. -/
def setRecord (s : SendState) (nodeId : UInt8) (record : SendRecord) : SendState :=
  { s with records := Function.update s.records nodeId record }

/-- `SetNodeAlive`. -/
def setNodeAlive (s : SendState) (nodeId : UInt8) (node : Node) (isAlive : Bool)
    (advance : List DriverCall) : SendState :=
  let s :=
    { s with driver := s.driver.setNode nodeId (some { node with nodeAlive := isAlive }) }
  let s :=
    if isAlive then
      let s := s.setRecord nodeId { s.records nodeId with errors := 0 }
      if node.queryStage ≠ .complete then
        { s.setRecord nodeId { s.records nodeId with queryRetries := 0 } with
          driver := s.driver.calls advance }
      else s
    else if node.queryStage ≠ .complete then
      { s with driver := s.driver.checkCompletedNodeQueries }
    else s
  { s with liveness := s.liveness ++ [(nodeId, isAlive)] }

/-- `QueryStageRetry` for the stage the node is in. -/
def queryStageRetry (s : SendState) (nodeId : UInt8) (node : Node) (maxAttempts : UInt8) :
    SendState :=
  let record := { s.records nodeId with queryPending := false }
  let record :=
    if maxAttempts ≠ 0 then
      { record with
        queryRetries :=
          if record.queryRetries + 1 ≥ maxAttempts then 0 else record.queryRetries + 1 }
    else record
  { s.setRecord nodeId record with
    driver := s.driver.call (.retryQueryStageComplete nodeId node.queryStage) }

/-- `HandleErrorResponse`: true when the messages of the node have been moved. -/
def handleErrorResponse (s : SendState) (error nodeId : UInt8) (sleepCheck : Bool) :
    SendState × Bool :=
  let handled := s.driver.handleErrorResponse error sleepCheck
  let s := { s with driver := handled.1, counters := s.counters.countError error }
  if handled.2 then (s, true)
  else
    match s.driver.nodes nodeId with
    | none => (s, false)
    | some node =>
        let errors := (s.records nodeId).errors + 1
        let s := s.setRecord nodeId { s.records nodeId with errors := errors }
        (if errors ≥ 3 then s.setNodeAlive nodeId node false [] else s, false)

/-- A probe of the node has failed: its stage is tried again. -/
def retryProbe (s : SendState) (nodeId : UInt8) : SendState :=
  match s.driver.currentMsg, s.driver.nodes nodeId with
  | some msg, some node =>
      if msg.isNoOperation ∧ (node.queryStage = .probe ∨ node.queryStage = .cacheLoad) then
        s.queryStageRetry nodeId node 3
      else s
  | _, _ => s

/-- The node has been told that there is nothing more to send: it sleeps. -/
def noteAsleep (s : SendState) (nodeId : UInt8) (node : Node) : SendState :=
  match s.driver.currentMsg, node.getWakeUp with
  | some msg, some _ =>
      if msg.isWakeUpNoMoreInformationCommand then
        { s with driver := s.driver.setAsleep nodeId node }
      else s
  | _, _ => s

/-- A node that answers is alive. -/
def noteAlive (s : SendState) (nodeId : UInt8) (advance : List DriverCall) : SendState :=
  match s.driver.nodes nodeId with
  | none => s
  | some node => if node.nodeAlive then s else s.setNodeAlive nodeId node true advance

/-- The callback is one that is awaited, as far as the handler can tell. -/
def recognise (s : SendState) (data : List UInt8) (rtt : UInt32) (advance : List DriverCall) :
    SendState :=
  let replication := data.getD 1 0 == FuncId.replicationSendData
  let nodeId := Driver.getNodeNumber s.driver.currentMsg
  let s :=
    if (s.driver.nodes nodeId).isSome then
      s.setRecord nodeId
        (((s.records nodeId).countTransmission (data.getD 3 0) rtt).extractTxStatus data)
    else s
  let s := { s with driver := s.driver.notifyNoOperation }
  if data.getD 3 0 ≠ transmitCompleteOk then
    let handled := s.handleErrorResponse (data.getD 3 0) nodeId (!replication)
    if handled.2 then handled.1 else handled.1.retryProbe nodeId
  else
    match s.driver.nodes nodeId with
    | none => s
    | some node => (s.noteAsleep nodeId node).noteAlive nodeId advance

/-- `HandleSendDataRequest`. -/
def handleSendDataRequest (s : SendState) (data : List UInt8) (rtt : UInt32)
    (advance : List DriverCall) : SendState :=
  if data.getD 2 0 > 10 ∧ data.getD 2 0 ≠ s.driver.expectedCallbackId then
    { s with counters := { s.counters with callbacks := s.counters.callbacks + 1 } }
  else s.recognise data rtt advance

/-- The constructor of the driver. -/
def new (homeId : UInt32) (controllerNodeId : UInt8) : SendState where
  driver := Driver.new homeId controllerNodeId
  records := fun _ => SendRecord.new
  counters := ⟨0, 0, 0, 0, 0, 0⟩
  liveness := []

end SendState

/-- What can happen: anything that happens to the driver, a transmit status
callback, and writes of other code to the records of the nodes. -/
inductive SendEvent
  | driver (e : Event)
  | callback (data : List UInt8) (rtt : UInt32) (advance : List DriverCall)
  | records (records : UInt8 → SendRecord)

namespace SendState

/-- One event. A callback is handled, and then matched with what is awaited. -/
def step (s : SendState) : SendEvent → SendState
  | .driver e => { s with driver := s.driver.step e }
  | .callback data rtt advance =>
      let s := s.handleSendDataRequest data rtt advance
      { s with driver := (s.driver.handleCallback data).1 }
  | .records records => { s with records }

end SendState

/-! ## What the handler of a callback changes -/

namespace SendState

open Driver

/-- The transaction goes on or is over, the counter stays in its range, and only
the node of the current message is touched: its record, the reports about it,
and, but for the calls of `AdvanceQueries`, the node itself. -/
structure Touches (nodeId : UInt8) (advance : List DriverCall) (s s' : SendState) : Prop where
  keeps : Keeps s.driver s'.driver
  counts : Msg.Counts s.driver.nextCallbackId → Msg.Counts s'.driver.nextCallbackId
  records : ∀ n, n ≠ nodeId → s'.records n = s.records n
  liveness : ∃ reports, s'.liveness = s.liveness ++ reports ∧ ∀ r ∈ reports, r.1 = nodeId
  nodes : advance = [] → ∀ n, n ≠ nodeId → s'.driver.nodes n = s.driver.nodes n

section

variable {nodeId : UInt8} {advance : List DriverCall} {s s' s'' : SendState}

theorem Touches.refl (nodeId : UInt8) (advance : List DriverCall) (s : SendState) :
    Touches nodeId advance s s where
  keeps := Keeps.refl s.driver
  counts := fun h => h
  records := fun _ _ => rfl
  liveness := ⟨[], (List.append_nil _).symm, nofun⟩
  nodes := fun _ _ _ => rfl

theorem Touches.trans (h : Touches nodeId advance s s') (h' : Touches nodeId advance s' s'') :
    Touches nodeId advance s s'' where
  keeps := h.keeps.trans h'.keeps
  counts := fun hcounts => h'.counts (h.counts hcounts)
  records := fun n hn => (h'.records n hn).trans (h.records n hn)
  liveness := by
    obtain ⟨reports, heq, hreports⟩ := h.liveness
    obtain ⟨reports', heq', hreports'⟩ := h'.liveness
    refine ⟨reports ++ reports', ?_, ?_⟩
    · rw [heq', heq, List.append_assoc]
    · intro r hr
      rcases List.mem_append.mp hr with hr | hr
      · exact hreports r hr
      · exact hreports' r hr
  nodes := fun hadvance n hn => (h'.nodes hadvance n hn).trans (h.nodes hadvance n hn)

end

/-! ## Runs -/

end SendState

end OpenZWave

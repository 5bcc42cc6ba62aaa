import OpenZWave.Driver.Run
import OpenZWave.Driver.SendPending
import OpenZWave.Lib.Checked

/-!
# Receiving, with the pointers it uses

`ReadMsg`, `ProcessMsg` and the handlers it calls, as computations that stop
when the current message, the current controller command or a node is used and
is not there. A pointer that the source tests and uses in one expression, or
copies to a local variable that it tests, is a `match`; every other use is a
step of its own. The functions of a received frame that use no such pointer are
those of `ProcessMsg` without it.

What a node and its command classes do, and the messages a handler sends, are
stretches of calls. They add and change nodes but do not remove one: `m_nodes`
is cleared by `InitNode`, `InitAllNodes` and the handlers of this file only. A
value is used by `NotifyWatchers` alone, which tests it.
-/

namespace OpenZWave

open Checked

namespace Receive

/-- The pointers that may be missing. -/
inductive Pointer
  | currentMsg
  | currentControllerCommand
  | node (nodeId : UInt8)
  deriving DecidableEq

/-- The calls of code outside the model, in order. -/
structure Stretch where
  calls : List DriverCall
  keeps : ∀ nodeId, DriverCall.deleteNode nodeId ∉ calls

/-- What one call of `ReadMsg` meets: the random nonce, the result of
decrypting, the stretches of calls by their place in the handler, and the data
that only the handlers use: the virtual nodes, whether there is a
`ControllerReplication`, which nodes have been reset, and which have the device
classes of the frame. -/
structure Outside where
  nonce : Vector UInt8 8
  opened : Opened
  code : Nat → Stretch
  virtualNeighbors : List UInt8
  controllerReplication : Bool
  nodeReset : UInt8 → Bool
  sameClasses : UInt8 → Bool

/-! ## Uses of pointers -/

/-- `m_currentMsg->`. -/
def useMsg (d : Driver) : Except Pointer Msg := follow d.currentMsg .currentMsg

/-- `m_nodes[nodeId]->`. -/
def useNode (d : Driver) (nodeId : UInt8) : Except Pointer Node :=
  follow (d.nodes nodeId) (.node nodeId)

/-- A field is read through `m_currentControllerCommand`. -/
def readCommand (d : Driver) : Except Pointer ControllerCommandItem := do
  let cci ← follow d.currentControllerCommand .currentControllerCommand
  pure (d.ccis cci)

/-- A field is written through `m_currentControllerCommand`. -/
def writeCommand (d : Driver) (write : ControllerCommandItem → ControllerCommandItem) :
    Except Pointer Driver := do
  let cci ← follow d.currentControllerCommand .currentControllerCommand
  pure (d.setCommand cci (write (d.ccis cci)))

/-- The calls of a stretch. -/
def runs (d : Driver) (code : Stretch) : Driver := d.calls code.calls

/-! ## Nodes -/

/-- `delete m_nodes[nodeId]` and `m_nodes[nodeId] = NULL`: the destructor of a
node removes what is queued for it. -/
def deleteNode (d : Driver) (nodeId : UInt8) : Driver :=
  match d.nodes nodeId with
  | none => d
  | some _ => (d.removeQueues nodeId).setNode nodeId none

/-- `InitNode`, the end of `ReloadNode`: the code of the new node runs between two
uses of its pointer. -/
def initNode (d : Driver) (nodeId : UInt8) (code : Stretch) : Except Pointer Driver := do
  let d := d.reloadNode nodeId []
  let _ ← useNode d nodeId
  let d := runs d code
  let _ ← useNode d nodeId
  pure d

/-- `InitAllNodes`: then the message that starts the initialization is sent. -/
def initAllNodes (d : Driver) (code : Stretch) : Driver :=
  runs ((List.range 256).foldl (fun d i => deleteNode d (UInt8.ofNat i)) d) code

/-- A node that is not alive is marked alive. -/
def revive (d : Driver) (nodeId : UInt8) (code : Stretch) : Driver :=
  match d.nodes nodeId with
  | none => d
  | some node => if node.nodeAlive then d else runs d code

/-- `HandleErrorResponse`: unless the messages were moved, the node counts the
error, and is marked dead after the third. -/
def handleErrorResponse (d : Driver) (error nodeId : UInt8) (sleepCheck : Bool) (code : Stretch) :
    Driver :=
  let handled := d.handleErrorResponse error sleepCheck
  if handled.2 then handled.1
  else
    match handled.1.nodes nodeId with
    | none => handled.1
    | some _ => runs handled.1 code

/-- `AddNodeStop`. -/
def addNodeStop (d : Driver) (code : Stretch) : Driver :=
  match d.currentControllerCommand with
  | none => d
  | some _ => runs d code

/-- The node of the current controller command is deleted. The command is read
again after the destructor, to clear the place of the node, and for the
notification. -/
def deleteCommandNode (d : Driver) : Except Pointer Driver := do
  let command ← readCommand d
  let d := if (d.nodes command.node).isSome then d.removeQueues command.node else d
  let command ← readCommand d
  let d := d.setNode command.node none
  let _ ← readCommand d
  pure d

/-! ## Responses -/

/-- The bit of a node in a field of one bit for each node. -/
def nodeBit (bytes : List UInt8) (nodeId : UInt8) : Bool :=
  (bytes.getD ((nodeId.toNat - 1) / 8) 0).toNat.testBit ((nodeId.toNat - 1) % 8)

/-- One pass of the loop over the nodes the controller knows. -/
def initDataNode (data : List UInt8) (out : Outside) (d : Driver) (nodeId : UInt8) :
    Except Pointer Driver :=
  if nodeBit (data.drop 5) nodeId then
    -- IsVirtualNode
    if nodeBit out.virtualNeighbors nodeId then pure d
    else
      match d.nodes nodeId with
      | some _ => pure (runs d (out.code nodeId.toNat))
      | none => initNode d nodeId (out.code nodeId.toNat)
  else pure (deleteNode d nodeId)

/-- `HandleSerialAPIGetInitDataResponse`. The nodes of the cache file are read
before the loop. -/
def handleSerialAPIGetInitDataResponse (d : Driver) (data : List UInt8) (out : Outside) :
    Except Pointer Driver :=
  if d.homeId = 0 ∨ d.controllerNodeId = 255 ∨ d.controllerNodeId = 0 then
    pure (d.queueNotification (.driverFailed 0))
  else
    let d := runs d (out.code 0)
    if (data.getD 4 0).toNat = numNodeBitfieldBytes then
      (List.range (8 * numNodeBitfieldBytes)).foldlM
        (fun d i => initDataNode data out d (UInt8.ofNat (i + 1))) d
    else pure d

/-- `m_libraryType`: it follows the C string of the version. -/
def libraryType (data : List UInt8) : UInt8 :=
  data.getD (((data.drop 2).takeWhile (· ≠ 0)).length + 3) 0

/-- The library is one the driver can work with. -/
def isSupportedLibrary (data : List UInt8) : Bool :=
  libraryType data == libControllerStatic || libraryType data == libController

/-- `HandleGetVersionResponse`. -/
def handleGetVersionResponse (d : Driver) (data : List UInt8) (out : Outside) :
    Except Pointer Driver := do
  let d ←
    if isSupportedLibrary data then pure d
    else do
      -- the notification names the target of the message, which is not tested
      let msg ← useMsg d
      pure (d.queueNotification (.driverFailed msg.targetNodeId))
  pure (runs d (out.code 0))

/-- `HandleMemoryGetIdResponse`. -/
def handleMemoryGetIdResponse (d : Driver) (data : List UInt8) (out : Outside) : Driver :=
  let homeId :=
    (data.getD 2 0).toUInt32 <<< 24 ||| (data.getD 3 0).toUInt32 <<< 16
      ||| (data.getD 4 0).toUInt32 <<< 8 ||| (data.getD 5 0).toUInt32
  runs { d with homeId := homeId, controllerNodeId := data.getD 6 0 } (out.code 0)

/-- `HandleGetNodeProtocolInfoResponse`. -/
def handleGetNodeProtocolInfoResponse (d : Driver) (out : Outside) : Driver :=
  match d.currentMsg with
  | none => d
  | some msg =>
      match d.nodes msg.targetNodeId with
      | none => d
      | some _ => runs d (out.code 0)

/-- `HandleIsFailedNodeResponse`: a node that has been reset is removed by a
controller command. -/
def handleIsFailedNodeResponse (d : Driver) (data : List UInt8) (out : Outside) : Driver :=
  let nodeId :=
    match d.currentControllerCommand with
    | some cci => (d.ccis cci).node
    | none => Driver.getNodeNumber d.currentMsg
  if data.getD 2 0 = 0 then
    match d.nodes nodeId with
    | none => d.updateControllerState .nodeOK
    | some _ => (runs d (out.code 0)).updateControllerState .nodeOK
  else
    match d.nodes nodeId with
    | none => d.updateControllerState .nodeFailed
    | some _ =>
        if out.nodeReset nodeId then
          (d.beginControllerCommand
            { (default : ControllerCommandItem) with
              command := .removeFailedNode, highPower := true, node := nodeId }
            ).updateControllerState .completed
        else (runs d (out.code 0)).updateControllerState .nodeFailed

/-- `HandleSendSlaveNodeInfoResponse`: after a failure the button of the command
is taken from its node. -/
def handleSendSlaveNodeInfoResponse (d : Driver) (data : List UInt8) :
    Except Pointer (Driver × Bool) :=
  if d.currentControllerCommand.isNone then pure (d, false)
  else if data.getD 2 0 ≠ 0 then pure (d.updateControllerState .inProgress, true)
  else do
    let command ← readCommand d
    match d.nodes command.node with
    | none => pure (d.updateControllerState .failed, false)
    | some _ => do
        let _ ← readCommand d
        pure (d.updateControllerState .failed, false)

/-- The switch over responses: the driver, and whether the generic callback
handling follows. -/
def handleResponse (d : Driver) (data : List UInt8) (out : Outside) :
    Except Pointer (Driver × Bool) :=
  let function := data.getD 1 0
  if function = FuncId.serialAPIGetInitData then do
    let d ← handleSerialAPIGetInitDataResponse d data out
    pure (d, true)
  else if function = FuncId.getVersion then do
    let d ← handleGetVersionResponse d data out
    pure (d, true)
  else if function = FuncId.memoryGetId then pure (handleMemoryGetIdResponse d data out, true)
  else if function = FuncId.getNodeProtocolInfo then
    pure (handleGetNodeProtocolInfoResponse d out, true)
  else if function = FuncId.isFailedNodeId then pure (handleIsFailedNodeResponse d data out, true)
  else if function = FuncId.sendSlaveNodeInfo then do
    let handled ← handleSendSlaveNodeInfoResponse d data
    if handled.2 then pure (handled.1, true)
    else pure (handled.1.forceCompletion (data.getD 2 0), true)
  else pure (d.handleResponse data (out.code 0).calls)

/-! ## Requests that end a controller command -/

/-- `HandleNetworkUpdateRequest`. -/
def handleNetworkUpdateRequest (d : Driver) (data : List UInt8) : Driver :=
  let status := data.getD 3 0
  if status = SUCUpdate.done then d.updateControllerState .completed
  else if status = SUCUpdate.abort then d.updateControllerState .failed .failed
  else if status = SUCUpdate.wait then d.updateControllerState .failed .busy
  else if status = SUCUpdate.disabled then d.updateControllerState .failed .disabled
  else if status = SUCUpdate.overflow then d.updateControllerState .failed .overflow
  else d.updateControllerState .failed

/-- `HandleRemoveFailedNodeRequest`: the command is not tested. -/
def handleRemoveFailedNodeRequest (d : Driver) (data : List UInt8) : Except Pointer Driver :=
  let status := data.getD 3 0
  if status = FailedNode.ok then do
    let _ ← readCommand d
    pure (d.updateControllerState .nodeOK)
  else if status = FailedNode.removed then do
    let _ ← readCommand d
    let d ← deleteCommandNode d
    pure (d.updateControllerState .completed)
  else if status = FailedNode.notRemoved then do
    let _ ← readCommand d
    pure (d.updateControllerState .failed)
  else pure (d.updateControllerState .completed)

/-- `HandleReplaceFailedNodeRequest`. -/
def handleReplaceFailedNodeRequest (d : Driver) (data : List UInt8) (out : Outside) :
    Except Pointer Driver :=
  let status := data.getD 3 0
  if status = FailedNode.ok then pure (d.updateControllerState .nodeOK)
  else if status = FailedNode.replaceWaiting then pure (d.updateControllerState .waiting)
  else if status = FailedNode.replaceDone then
    if d.currentControllerCommand.isSome then do
      let command ← readCommand d
      let d ← initNode d command.node (out.code 0)
      pure (d.updateControllerState .completed)
    else pure (d.updateControllerState .completed)
  else if status = FailedNode.replaceFailed then pure (d.updateControllerState .failed)
  else pure (d.updateControllerState .completed)

/-- The common part of the two handlers for return routes. -/
def handleReturnRouteRequest (d : Driver) (data : List UInt8) (out : Outside) :
    Except Pointer Driver :=
  if d.currentControllerCommand.isNone then pure d
  else if data.getD 3 0 ≠ transmitCompleteOk then do
    let command ← readCommand d
    let d := handleErrorResponse d (data.getD 3 0) command.node true (out.code 0)
    pure (d.updateControllerState .failed)
  else do
    let _ ← readCommand d
    pure (d.updateControllerState .completed)

/-- `HandleAssignReturnRouteRequest`. -/
def handleAssignReturnRouteRequest (d : Driver) (data : List UInt8) (out : Outside) :
    Except Pointer Driver :=
  handleReturnRouteRequest d data out

/-- `HandleDeleteReturnRouteRequest`. -/
def handleDeleteReturnRouteRequest (d : Driver) (data : List UInt8) (out : Outside) :
    Except Pointer Driver :=
  handleReturnRouteRequest d data out

/-- `HandleSendNodeInformationRequest`: the messages of the node are not moved. -/
def handleSendNodeInformationRequest (d : Driver) (data : List UInt8) (out : Outside) :
    Except Pointer Driver :=
  if d.currentControllerCommand.isNone then pure d
  else if data.getD 3 0 ≠ transmitCompleteOk then do
    let command ← readCommand d
    let d := handleErrorResponse d (data.getD 3 0) command.node false (out.code 0)
    pure (d.updateControllerState .failed)
  else pure (d.updateControllerState .completed)

/-- `HandleNodeNeighborUpdateRequest`: when the update is done, the neighbours of
the node are requested. -/
def handleNodeNeighborUpdateRequest (d : Driver) (data : List UInt8) (out : Outside) :
    Except Pointer Driver :=
  let status := data.getD 3 0
  if status = NeighborUpdate.started then pure (d.updateControllerState .inProgress)
  else if status = NeighborUpdate.done then
    if d.currentControllerCommand.isSome then do
      let _ ← readCommand d
      pure ((runs d (out.code 0)).updateControllerState .completed)
    else pure (d.updateControllerState .completed)
  else if status = NeighborUpdate.failed then pure (d.updateControllerState .failed)
  else pure (d.updateControllerState .normal)

/-- `HandleSetLearnModeRequest`. -/
def handleSetLearnModeRequest (d : Driver) (data : List UInt8) (out : Outside) :
    Except Pointer Driver :=
  if d.currentControllerCommand.isNone then pure d
  else do
    let command ← readCommand d
    let status := data.getD 3 0
    if status = LearnMode.started then pure (d.updateControllerState .waiting)
    else if status = LearnMode.done then
      pure ((initAllNodes (runs d (out.code 0)) (out.code 1)).updateControllerState .completed)
    else if status = LearnMode.failed then
      pure ((initAllNodes (runs d (out.code 0)) (out.code 1)).updateControllerState .failed)
    else if status = LearnMode.deleted then
      pure ((runs d (out.code 0)).updateControllerState .failed)
    else pure (d.updateControllerState command.state)

/-! ## Adding and removing nodes -/

/-- The case `ADD_NODE_STATUS_ADDING_SLAVE`: the log line reads the argument of the
command before the test. -/
def addingSlave (d : Driver) (data : List UInt8) : Except Pointer Driver := do
  let _ ← readCommand d
  if d.currentControllerCommand.isSome then
    writeCommand d fun command => { command with added := false, node := data.getD 4 0 }
  else pure d

/-- The case `ADD_NODE_STATUS_ADDING_CONTROLLER`. -/
def addingController (d : Driver) (data : List UInt8) : Except Pointer Driver :=
  if d.currentControllerCommand.isSome then
    writeCommand d fun command => { command with added := true, node := data.getD 4 0 }
  else pure d

/-- The case `ADD_NODE_STATUS_DONE`, after an addition that did not fail. -/
def addNodeDone (d : Driver) (funcId : UInt8) (out : Outside) : Except Pointer Driver := do
  let d ←
    if d.currentControllerCommand.isSome then do
      let command ← readCommand d
      if command.node ≠ 0xff then initNode d command.node (out.code 0) else pure d
    else pure d
  if funcId ≠ FuncId.addNodeToNetwork ∧ d.currentControllerCommand.isSome = true then do
    let command ← readCommand d
    if command.added then pure (initAllNodes d (out.code 1)) else pure d
  else pure d

/-- The switch of `CommonAddNodeStatusRequestHandler`: the command is tested in
some of the cases. -/
def addNodeStatus (d : Driver) (funcId : UInt8) (data : List UInt8) (out : Outside)
    (state : ControllerState) : Except Pointer Driver :=
  let status := data.getD 3 0
  if status = AddNodeStatus.learnReady then do
    let d ← writeCommand d fun command => { command with added := false }
    pure (d.updateControllerState .waiting)
  else if status = AddNodeStatus.nodeFound then pure (d.updateControllerState .inProgress)
  else if status = AddNodeStatus.addingSlave then do
    let d ← addingSlave d data
    pure (d.updateControllerState state)
  else if status = AddNodeStatus.addingController then do
    let d ← addingController d data
    pure (d.updateControllerState state)
  else if status = AddNodeStatus.protocolDone then
    pure ((addNodeStop d (out.code 0)).updateControllerState state)
  else if status = AddNodeStatus.done then
    if state = .failed then pure (d.updateControllerState .completed)
    else do
      let d ← addNodeDone d funcId out
      pure (d.updateControllerState .completed)
  else if status = AddNodeStatus.failed then
    pure ((addNodeStop d.removeCurrentMsg (out.code 0)).updateControllerState .failed)
  else pure (d.updateControllerState state)

/-- `CommonAddNodeStatusRequestHandler`. -/
def commonAddNodeStatusRequestHandler (d : Driver) (funcId : UInt8) (data : List UInt8)
    (out : Outside) : Except Pointer Driver :=
  if d.currentControllerCommand.isSome then do
    let command ← readCommand d
    addNodeStatus d funcId data out command.state
  else addNodeStatus d funcId data out .normal

/-- `HandleAddNodeToNetworkRequest`. -/
def handleAddNodeToNetworkRequest (d : Driver) (data : List UInt8) (out : Outside) :
    Except Pointer Driver :=
  commonAddNodeStatusRequestHandler d FuncId.addNodeToNetwork data out

/-- `HandleCreateNewPrimaryRequest`. -/
def handleCreateNewPrimaryRequest (d : Driver) (data : List UInt8) (out : Outside) :
    Except Pointer Driver :=
  commonAddNodeStatusRequestHandler d FuncId.createNewPrimary data out

/-- `HandleControllerChangeRequest`. -/
def handleControllerChangeRequest (d : Driver) (data : List UInt8) (out : Outside) :
    Except Pointer Driver :=
  commonAddNodeStatusRequestHandler d FuncId.controllerChange data out

/-- One pass of the loop that looks for a controller by its device classes. -/
def matchController (out : Outside) (d : Driver) (i : Nat) : Except Pointer Driver :=
  match d.nodes (UInt8.ofNat i) with
  | none => pure d
  | some node =>
      if node.nodeId = d.controllerNodeId then pure d
      else if out.sameClasses (UInt8.ofNat i) then do
        let command ← readCommand d
        if command.node ≠ 0 then pure d
        else writeCommand d fun command => { command with node := node.nodeId }
      else pure d

/-- The case `REMOVE_NODE_STATUS_REMOVING_CONTROLLER`: without a node id the
controller is looked for, and the log line reads the command at the end. -/
def removingController (d : Driver) (data : List UInt8) (out : Outside) :
    Except Pointer Driver := do
  let d ← writeCommand d fun command => { command with node := data.getD 4 0 }
  let written ← readCommand d
  let d ←
    if written.node = 0 then
      if data.getD 5 0 ≥ 3 then (List.range 256).foldlM (matchController out) d else pure d
    else writeCommand d fun command => { command with node := data.getD 4 0 }
  let _ ← readCommand d
  pure d

/-- The case `REMOVE_NODE_STATUS_DONE`, for a command that is not done. -/
def removeNodeDone (d : Driver) (data : List UInt8) : Except Pointer Driver := do
  let d := d.updateControllerState .completed
  let removed ← readCommand d
  let d ←
    if removed.node = 0 ∧ data.getD 4 0 ≠ 0 then
      writeCommand d fun command => { command with node := data.getD 4 0 }
    else pure d
  let removed ← readCommand d
  if removed.node ≠ 0 ∧ removed.node ≠ 0xff then deleteCommandNode d else pure d

/-- `HandleRemoveNodeFromNetworkRequest`. -/
def handleRemoveNodeFromNetworkRequest (d : Driver) (data : List UInt8) (out : Outside) :
    Except Pointer Driver :=
  if d.currentControllerCommand.isNone then pure d
  else do
    let command ← readCommand d
    let status := data.getD 3 0
    if status = RemoveNodeStatus.learnReady then do
      let d ← writeCommand d fun command => { command with node := 0 }
      pure (d.updateControllerState .waiting)
    else if status = RemoveNodeStatus.nodeFound then pure (d.updateControllerState .inProgress)
    else if status = RemoveNodeStatus.removingSlave then
      if data.getD 4 0 ≠ 0 then do
        let d ← writeCommand d fun command => { command with node := data.getD 4 0 }
        pure (d.updateControllerState command.state)
      else pure (d.updateControllerState .failed)
    else if status = RemoveNodeStatus.removingController then do
      let d ← removingController d data out
      pure (d.updateControllerState command.state)
    else if status = RemoveNodeStatus.done then
      if command.done then pure d else removeNodeDone d data
    else if status = RemoveNodeStatus.failed then pure (d.updateControllerState .failed)
    else pure (d.updateControllerState command.state)

/-! ## Virtual nodes -/

/-- `HandleSetSlaveLearnModeRequest`: a virtual node that is added becomes a
button of the node of the command. -/
def handleSetSlaveLearnModeRequest (d : Driver) (data : List UInt8) (out : Outside) :
    Except Pointer Driver :=
  if d.currentControllerCommand.isNone then pure d
  else do
    let status := data.getD 3 0
    let d := runs d (out.code 0)
    let d ←
      if (status = SlaveAssign.complete ∨ status = SlaveAssign.nodeIdDone) ∧ data.getD 4 0 = 0 then do
        let command ← readCommand d
        match d.nodes command.node with
        | none => pure d
        | some _ => do
            let _ ← readCommand d
            pure (runs d (out.code 1))
      else pure d
    let d ← writeCommand d fun command => { command with added := false }
    pure (d.updateControllerState .waiting)

/-- `HandleSendSlaveNodeInfoRequest`: after an error the virtual node is sent
again. -/
def handleSendSlaveNodeInfoRequest (d : Driver) (data : List UInt8) (out : Outside) :
    Except Pointer Driver :=
  if d.currentControllerCommand.isNone then pure d
  else if data.getD 3 0 = transmitCompleteOk then do
    let _ ← readCommand d
    pure (runs (d.updateControllerState .completed) (out.code 0))
  else do
    let command ← readCommand d
    let d := handleErrorResponse d (data.getD 3 0) command.node false (out.code 0)
    let command ← readCommand d
    match d.nodes command.node with
    | none => pure d
    | some _ => do
        let _ ← readCommand d
        pure (runs d (out.code 1))

/-! ## Requests from nodes -/

/-- `HandleApplicationCommandHandlerRequest`. -/
def handleApplicationCommandHandlerRequest (d : Driver) (data : List UInt8) (out : Outside) :
    Except Pointer Driver :=
  let nodeId := data.getD 3 0
  let classId := data.getD 5 0
  let present := (d.nodes nodeId).isSome
  let d := revive d nodeId (out.code 0)
  if classId = ClassId.applicationStatus then pure d
  else if classId = ClassId.controllerReplication then
    if out.controllerReplication && d.currentControllerCommand.isSome then do
      let command ← readCommand d
      if command.command = .receiveConfiguration then
        pure ((runs d (out.code 1)).updateControllerState .inProgress)
      else pure d
    else pure d
  -- the node was looked up before it was marked alive
  else if present then pure (runs d (out.code 1))
  else pure d

/-- `HandleApplicationUpdateRequest`. -/
def handleApplicationUpdateRequest (d : Driver) (data : List UInt8) (out : Outside) :
    Except Pointer (Driver × Bool) :=
  let nodeId := data.getD 3 0
  let d := revive d nodeId (out.code 0)
  if data.getD 2 0 = updateStateDeleteDone then pure (deleteNode d nodeId, false)
  else if data.getD 2 0 = updateStateNewIdAssigned then
    if nodeId ≠ data.getD 6 0 then do
      let d ← initNode d nodeId (out.code 1)
      pure (d, false)
    else pure (d, false)
  else pure (d.handleApplicationUpdateRequest data (out.code 1).calls)

/-- The requests after which the generic callback handling always follows. -/
def handleCalledRequest (d : Driver) (data : List UInt8) (out : Outside) : Except Pointer Driver :=
  let function := data.getD 1 0
  if function = FuncId.applicationCommandHandler then
    handleApplicationCommandHandlerRequest d data out
  else if function = FuncId.replicationCommandComplete then
    pure (if out.controllerReplication then runs d (out.code 0) else d)
  else if function = FuncId.assignReturnRoute then handleAssignReturnRouteRequest d data out
  else if function = FuncId.deleteReturnRoute then handleDeleteReturnRouteRequest d data out
  else if function = FuncId.sendNodeInformation then handleSendNodeInformationRequest d data out
  else if function = FuncId.requestNodeNeighborUpdate
      ∨ function = FuncId.requestNodeNeighborUpdateOptions then
    handleNodeNeighborUpdateRequest d data out
  else if function = FuncId.addNodeToNetwork then handleAddNodeToNetworkRequest d data out
  else if function = FuncId.removeNodeFromNetwork then handleRemoveNodeFromNetworkRequest d data out
  else if function = FuncId.createNewPrimary then handleCreateNewPrimaryRequest d data out
  else if function = FuncId.controllerChange then handleControllerChangeRequest d data out
  else if function = FuncId.setLearnMode then handleSetLearnModeRequest d data out
  else if function = FuncId.requestNetworkUpdate then pure (handleNetworkUpdateRequest d data)
  else if function = FuncId.removeFailedNodeId then handleRemoveFailedNodeRequest d data
  else if function = FuncId.replaceFailedNode then handleReplaceFailedNodeRequest d data out
  else if function = FuncId.setSlaveLearnMode then handleSetSlaveLearnModeRequest d data out
  else if function = FuncId.sendSlaveNodeInfo then handleSendSlaveNodeInfoRequest d data out
  else pure d

/-- The switch over requests. -/
def handleRequest (d : Driver) (data : List UInt8) (out : Outside) :
    Except Pointer (Driver × Bool) :=
  let function := data.getD 1 0
  if function = FuncId.applicationUpdate then do
    let handled ← handleApplicationUpdateRequest d data out
    pure (handled.1, !handled.2)
  else if function = FuncId.sendData ∨ function = FuncId.replicationSendData then
    pure (d.handleRequest data (out.code 0).calls)
  else do
    let d ← handleCalledRequest d data out
    pure (d, true)

/-! ## Frames and bytes -/

/-- The handler of the frame. -/
def handle (d : Driver) (data : List UInt8) (out : Outside) : Except Pointer (Driver × Bool) :=
  if data.getD 0 0 = RESPONSE then handleResponse d data out
  else if data.getD 0 0 = REQUEST then handleRequest d data out
  else pure (d, true)

/-- The handler of the frame, and the generic handling after it. -/
def dispatch (d : Driver) (data : List UInt8) (out : Outside) : Except Pointer Driver := do
  let handled ← handle d data out
  pure (if handled.2 then (handled.1.handleCallback data).1 else handled.1)

/-- A nonce report for the current message. -/
def receiveNonce (d : Driver) (nonce : Vector UInt8 8) : Except Pointer Driver :=
  if d.currentMsg.isNone then pure d
  else do
    let msg ← useMsg d
    let updated := msg.setNonce nonce d.nextCallbackId
    let d := { d with currentMsg := some updated.1, nextCallbackId := updated.2 }
    -- SendEncryptedMessage
    let _ ← useMsg d
    pure d.sendEncryptedMessage

/-- `ProcessMsg`. -/
def processMsg (d : Driver) (data : List UInt8) (out : Outside) : Except Pointer Driver :=
  let f : Received := { data, nonce := out.nonce, opened := out.opened, calls := [] }
  let command := data.getD 6 0
  let source := data.getD 3 0
  if f.isSecurity && command == SecurityCmd.nonceReport then
    receiveNonce d (Vector.ofFn fun i => data.getD (7 + i) 0)
  else if f.isSecurity && command == SecurityCmd.nonceGet then pure (d.reportNonce source out.nonce)
  else if f.isEncap then
    let d := { d with nonceReportSent := 0, nonceReportSentAttempt := 0 }
    let answered :=
      if command = SecurityCmd.messageEncapNonceGet then d.reportNonce source out.nonce else d
    if d.nodes source = none then pure d
    else
      match out.opened with
      | .noNonce => pure d
      | .failed => pure answered.removeCurrentMsg
      | .command _ => dispatch answered f.content out
  else dispatch d data out

/-- The driver and the bytes its controller has received. -/
structure Link where
  driver : Driver
  input : List UInt8

/-- `ReadMsg`: a byte that starts no frame, and a frame with a wrong checksum,
purge the input. -/
def readMsg (s : Link) (out : Outside) : Except Pointer Link :=
  match s.input with
  | [] => pure s
  | byte :: rest =>
      if byte = SOF then
        match readSOF rest with
        | .aborted => pure { s with input := rest.drop 1 }
        | .badChecksum => pure { s with input := [] }
        | .accepted data rest => do
            let d ← processMsg s.driver data out
            pure { driver := d, input := rest }
      else if byte = CAN then
        if s.driver.currentMsg.isSome then do
          let _ ← useMsg s.driver
          pure { driver := s.driver.readCanOrNak, input := rest }
        else pure { s with input := rest }
      else if byte = NAK then do
        let _ ← useMsg s.driver
        pure { driver := s.driver.readCanOrNak, input := rest }
      else if byte = ACK then pure { driver := s.driver.readAck, input := rest }
      else pure { s with input := [] }

/-! ## Runs -/

/-- What can happen: bytes arrive, `ReadMsg` is called, or the application and
the rest of the driver thread go on. -/
inductive Act
  | arrive (bytes : List UInt8)
  | read (out : Outside)
  | call (c : DriverCall)
  | timeout (nonce : Vector UInt8 8) (port : Bool)
  | writeNext (queue : MsgQueue) (nonce : Vector UInt8 8) (port : Bool)

namespace Link

/-- One act. -/
def step (s : Link) : Act → Except Pointer Link
  | .arrive bytes => pure { s with input := s.input ++ bytes }
  | .read out => readMsg s out
  | .call c => pure { s with driver := s.driver.step (.call c) }
  | .timeout nonce port => pure { s with driver := s.driver.step (.timeout nonce port) }
  | .writeNext queue nonce port =>
      pure { s with driver := s.driver.step (.writeNext queue nonce port) }

/-- A run, which stops at the first use of a missing pointer. -/
def run (s : Link) (acts : List Act) : Except Pointer Link := acts.foldlM step s

end Link

end Receive

end OpenZWave

import Mathlib.Algebra.Group.Int.Defs
import Mathlib.Algebra.Group.Nat.Defs
import Mathlib.Logic.Basic

/-!
# Constants of the serial API and of the driver

The values are those of `Defs.h`, of the command class headers and of the
enumerations in `Driver.h` and `Node.h`.
-/

namespace OpenZWave

/-- A `uint32` passed as an `int`. -/
def asInt (n : UInt32) : Int := if n.toNat < 2 ^ 31 then n.toNat else n.toNat - 2 ^ 32

theorem asInt_of_small {n : UInt32} (h : n.toNat ≤ 256) : asInt n = n.toNat :=
  if_pos (by omega)

/-! ## Serial framing -/

def SOF : UInt8 := 0x01
def ACK : UInt8 := 0x06
def NAK : UInt8 := 0x15
def CAN : UInt8 := 0x18

def REQUEST : UInt8 := 0x00
def RESPONSE : UInt8 := 0x01

/-- `MAX_TRIES` and `MAX_MAX_TRIES`. -/
def maxTries : UInt8 := 1
def maxMaxTries : UInt8 := 7

/-! ## Function identifiers -/

namespace FuncId

def serialAPIGetInitData : UInt8 := 0x02
def applicationCommandHandler : UInt8 := 0x04
def sendNodeInformation : UInt8 := 0x12
def sendData : UInt8 := 0x13
def getVersion : UInt8 := 0x15
def memoryGetId : UInt8 := 0x20
def getNodeProtocolInfo : UInt8 := 0x41
def replicationCommandComplete : UInt8 := 0x44
def replicationSendData : UInt8 := 0x45
def assignReturnRoute : UInt8 := 0x46
def deleteReturnRoute : UInt8 := 0x47
def requestNodeNeighborUpdate : UInt8 := 0x48
def applicationUpdate : UInt8 := 0x49
def addNodeToNetwork : UInt8 := 0x4a
def removeNodeFromNetwork : UInt8 := 0x4b
def createNewPrimary : UInt8 := 0x4c
def controllerChange : UInt8 := 0x4d
def setLearnMode : UInt8 := 0x50
def enableSUC : UInt8 := 0x52
def requestNetworkUpdate : UInt8 := 0x53
def setSUCNodeId : UInt8 := 0x54
def requestNodeNeighborUpdateOptions : UInt8 := 0x5a
def requestNodeInfo : UInt8 := 0x60
def removeFailedNodeId : UInt8 := 0x61
def isFailedNodeId : UInt8 := 0x62
def replaceFailedNode : UInt8 := 0x63
def getRoutingInfo : UInt8 := 0x80
def sendSlaveNodeInfo : UInt8 := 0xa2
def setSlaveLearnMode : UInt8 := 0xa4

end FuncId

/-! ## Transmit options -/

def transmitOptionAck : UInt8 := 0x01
def transmitOptionAutoRoute : UInt8 := 0x04

/-- The transmit status of a callback: `TRANSMIT_COMPLETE_OK` and the failures. -/
def transmitCompleteOk : UInt8 := 0x00
def transmitCompleteNoAck : UInt8 := 0x01
def transmitCompleteFail : UInt8 := 0x02
def transmitCompleteNotIdle : UInt8 := 0x03
def transmitCompleteNoRoute : UInt8 := 0x04
def transmitCompleteVerified : UInt8 := 0x05

/-- `UPDATE_STATE_NODE_INFO_REQ_FAILED`, `UPDATE_STATE_NEW_ID_ASSIGNED` and
`UPDATE_STATE_DELETE_DONE`. -/
def updateStateNodeInfoReqFailed : UInt8 := 0x81
def updateStateNewIdAssigned : UInt8 := 0x40
def updateStateDeleteDone : UInt8 := 0x20

/-! ## Status bytes of network management -/

namespace AddNodeStatus

def learnReady : UInt8 := 0x01
def nodeFound : UInt8 := 0x02
def addingSlave : UInt8 := 0x03
def addingController : UInt8 := 0x04
def protocolDone : UInt8 := 0x05
def done : UInt8 := 0x06
def failed : UInt8 := 0x07

end AddNodeStatus

namespace RemoveNodeStatus

def learnReady : UInt8 := 0x01
def nodeFound : UInt8 := 0x02
def removingSlave : UInt8 := 0x03
def removingController : UInt8 := 0x04
def done : UInt8 := 0x06
def failed : UInt8 := 0x07

end RemoveNodeStatus

namespace LearnMode

def started : UInt8 := 0x01
def done : UInt8 := 0x06
def failed : UInt8 := 0x07
def deleted : UInt8 := 0x80

end LearnMode

namespace NeighborUpdate

def started : UInt8 := 0x21
def done : UInt8 := 0x22
def failed : UInt8 := 0x23

end NeighborUpdate

namespace FailedNode

def ok : UInt8 := 0x00
def removed : UInt8 := 0x01
def notRemoved : UInt8 := 0x02
def replaceWaiting : UInt8 := 0x03
def replaceDone : UInt8 := 0x04
def replaceFailed : UInt8 := 0x05

end FailedNode

namespace SUCUpdate

def done : UInt8 := 0x00
def abort : UInt8 := 0x01
def wait : UInt8 := 0x02
def disabled : UInt8 := 0x03
def overflow : UInt8 := 0x04

end SUCUpdate

namespace SlaveAssign

def complete : UInt8 := 0x00
def nodeIdDone : UInt8 := 0x01

end SlaveAssign

/-- `ZW_LIB_CONTROLLER_STATIC` and `ZW_LIB_CONTROLLER`. -/
def libControllerStatic : UInt8 := 0x01
def libController : UInt8 := 0x02

/-- `NUM_NODE_BITFIELD_BYTES`. -/
def numNodeBitfieldBytes : Nat := 29

/-! ## Command classes -/

namespace ClassId

def noOperation : UInt8 := 0x00
def controllerReplication : UInt8 := 0x21
def applicationStatus : UInt8 := 0x22
def crc16Encap : UInt8 := 0x56
def multiInstance : UInt8 := 0x60
def manufacturerSpecific : UInt8 := 0x72
def wakeUp : UInt8 := 0x84
def association : UInt8 := 0x85
def multiChannelAssociation : UInt8 := 0x8e
def multiCmd : UInt8 := 0x8f
def security : UInt8 := 0x98

end ClassId

namespace MultiInstanceCmd

/-- `MultiInstanceCmd_Encap`. -/
def instanceEncap : UInt8 := 0x06
/-- `MultiChannelCmd_Encap`. -/
def channelEncap : UInt8 := 0x0d

end MultiInstanceCmd

/-- `WakeUpCmd_NoMoreInformation`. -/
def wakeUpNoMoreInformation : UInt8 := 0x08
/-- `MultiCmdCmd_Encap`. -/
def multiCmdEncap : UInt8 := 0x01
/-- `CRC16EncapCmd_Encap`. -/
def crc16EncapCmd : UInt8 := 0x01

namespace AssociationCmd

def set : UInt8 := 0x01
def get : UInt8 := 0x02
def report : UInt8 := 0x03
def remove : UInt8 := 0x04
def groupingsReport : UInt8 := 0x06

end AssociationCmd

namespace SecurityCmd

def nonceGet : UInt8 := 0x40
def nonceReport : UInt8 := 0x80
def messageEncap : UInt8 := 0x81
def messageEncapNonceGet : UInt8 := 0xc1

end SecurityCmd

/-! ## Enumerations -/

/-- `Driver::MsgQueue`, from the highest to the lowest priority. -/
inductive MsgQueue
  | command | noOp | controller | wakeUp | send | query | poll
  deriving DecidableEq, Repr

/-- The queues in the order of the loops over `MsgQueue_Count`. -/
def MsgQueue.all : List MsgQueue :=
  [.command, .noOp, .controller, .wakeUp, .send, .query, .poll]

@[simp] theorem MsgQueue.mem_all (q : MsgQueue) : q ∈ MsgQueue.all := by
  cases q <;> decide

theorem MsgQueue.nodup_all : MsgQueue.all.Nodup := by decide

/-- `Node::QueryStage`. -/
inductive QueryStage
  | none | protocolInfo | probe | wakeUp | nodeInfo | nodePlusInfo | securityReport | versions
  | manufacturerSpecific1 | instances | manufacturerSpecific2 | static | cacheLoad
  | associations | neighbors | session | dynamic | configuration | complete
  deriving DecidableEq, Repr

/-- `Driver::ControllerCommand`. -/
inductive ControllerCommand
  | none | addDevice | createNewPrimary | receiveConfiguration | removeDevice
  | removeFailedNode | hasNodeFailed | replaceFailedNode | transferPrimaryRole
  | requestNetworkUpdate | requestNodeNeighborUpdate | assignReturnRoute
  | deleteAllReturnRoutes | sendNodeInformation | replicationSend | createButton
  | deleteButton
  deriving DecidableEq, Repr, Inhabited

/-- `Driver::ControllerState`. -/
inductive ControllerState
  | normal | starting | cancel | error | waiting | sleeping | inProgress | completed
  | failed | nodeOK | nodeFailed
  deriving DecidableEq, Repr, Inhabited

/-- `Driver::ControllerError`. -/
inductive ControllerError
  | none | buttonNotFound | nodeNotFound | notBridge | notSUC | notSecondary | notPrimary
  | isPrimary | notFound | busy | failed | disabled | overflow
  deriving DecidableEq, Repr, Inhabited

end OpenZWave

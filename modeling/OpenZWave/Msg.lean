import OpenZWave.CommandClass
import OpenZWave.Lib.ByteBuffer

/-!
# Messages to the controller

`Msg` follows `Msg.h` field by field. The log text and the scratch buffer
`e_buffer` are left out: the first is only printed, the second is the result
of `encryptBuffer`. The static counter `s_nextCallbackId` is an argument and a
result of the two functions that use it. `id` stands for the request the object
was allocated for; the copy constructor keeps it.
-/

namespace OpenZWave

open ByteBuffer

structure Msg where
  id : Nat
  bFinal : Bool
  bCallbackRequired : Bool
  callbackId : UInt8
  expectedReply : UInt8
  expectedCommandClassId : UInt8
  length : UInt8
  buffer : Vector UInt8 256
  targetNodeId : UInt8
  sendAttempts : UInt8
  maxSendAttempts : UInt8
  inst : UInt8
  endPoint : UInt8
  flags : UInt8
  encrypted : Bool
  nonceRecvd : Bool
  nonce : Vector UInt8 8
  homeId : UInt32
  resendDuetoCANorNAK : Bool
  deriving DecidableEq

namespace Msg

/-- `m_MultiChannel` and `m_MultiInstance`. -/
def multiChannel : UInt8 := 0x01
def multiInstance : UInt8 := 0x02

/-- The constructor. -/
def new (id : Nat) (targetNodeId msgType function : UInt8) (bCallbackRequired : Bool)
    (bReplyRequired : Bool := true) (expectedReply : UInt8 := 0)
    (expectedCommandClassId : UInt8 := 0) : Msg where
  id := id
  bFinal := false
  bCallbackRequired := bCallbackRequired
  callbackId := 0
  expectedReply :=
    if bReplyRequired then (if expectedReply ≠ 0 then expectedReply else function) else 0
  expectedCommandClassId := expectedCommandClassId
  length := 4
  buffer := poke (poke (poke (poke (Vector.replicate 256 0) 0 SOF) 1 0) 2 msgType) 3 function
  targetNodeId := targetNodeId
  sendAttempts := 0
  maxSendAttempts := maxTries
  inst := 1
  endPoint := 0
  flags := 0
  encrypted := false
  nonceRecvd := false
  nonce := Vector.replicate 8 0
  homeId := 0
  resendDuetoCANorNAK := false

/-- `SetInstance`: `micc` is the MultiInstance class of the node, if it has one. -/
def setInstance (m : Msg) (micc : Option CommandClass) (cc : CommandClass) (inst : UInt8) : Msg :=
  let m := { m with inst := inst }
  match micc with
  | none => m
  | some micc =>
      if micc.version > 1 then
        let m := { m with endPoint := cc.getEndPoint inst }
        if m.endPoint ≠ 0 then
          { m with
            flags := m.flags ||| multiChannel
            expectedCommandClassId := ClassId.multiInstance }
        else m
      else if m.inst > 1 then
        { m with
          flags := m.flags ||| multiInstance
          expectedCommandClassId := ClassId.multiInstance }
      else m

/-- `Append`: the index is a byte, so it never leaves the buffer. -/
def append (m : Msg) (data : UInt8) : Msg :=
  { m with buffer := poke m.buffer m.length.toNat data, length := m.length + 1 }

/-- `AppendArray`. -/
def appendArray (m : Msg) (data : List UInt8) : Msg := data.foldl append m

/-- The bytes `MultiEncap` puts in front of the command. -/
def encapHeader (m : Msg) : List UInt8 :=
  if m.flags &&& multiChannel ≠ 0 then
    [ClassId.multiInstance, MultiInstanceCmd.channelEncap, 1, m.endPoint]
  else
    [ClassId.multiInstance, MultiInstanceCmd.instanceEncap, m.inst]

/-- `MultiEncap`: only a SEND_DATA request is wrapped. -/
def multiEncap (m : Msg) : Msg :=
  if peek m.buffer 3 ≠ FuncId.sendData then m
  else if m.flags &&& multiChannel ≠ 0 then
    let b := shiftUp 6 4 m.length.toNat m.buffer
    let b := poke b 5 (peek b 5 + 4)
    let b := poke b 6 ClassId.multiInstance
    let b := poke b 7 MultiInstanceCmd.channelEncap
    let b := poke b 8 1
    let b := poke b 9 m.endPoint
    { m with buffer := b, length := m.length + 4 }
  else
    let b := shiftUp 6 3 m.length.toNat m.buffer
    let b := poke b 5 (peek b 5 + 3)
    let b := poke b 6 ClassId.multiInstance
    let b := poke b 7 MultiInstanceCmd.instanceEncap
    let b := poke b 8 m.inst
    { m with buffer := b, length := m.length + 3 }

/-- The counter skips the ids below 10, which other messages use. -/
def nextId (next : UInt8) : UInt8 := if next = 0 then 10 else next

/-- The last step of `Finalize`: append the checksum. -/
def appendChecksum (m : Msg) : Msg :=
  { m with
    buffer := poke m.buffer m.length.toNat (xorFrom 0xff (peek m.buffer) m.length.toNat)
    length := m.length + 1
    bFinal := true }

/-- `Finalize`, with the callback counter before and after. -/
def finalize (m : Msg) (next : UInt8) : Msg × UInt8 :=
  if m.bFinal then (m, next)
  else
    let m := if m.flags &&& (multiChannel ||| multiInstance) ≠ 0 then m.multiEncap else m
    if m.bCallbackRequired then
      let b := poke m.buffer 1 m.length
      let b := poke b m.length.toNat (nextId next)
      (appendChecksum { m with buffer := b, length := m.length + 1, callbackId := nextId next },
        nextId next + 1)
    else
      (appendChecksum { m with buffer := poke m.buffer 1 (m.length - 1) }, next)

/-- `UpdateCallbackId`: the offsets are computed in `int`, so they are negative
when a full buffer has wrapped `m_length` to zero. -/
def updateCallbackId (m : Msg) (next : UInt8) : Msg × UInt8 :=
  if m.bCallbackRequired then
    let b := pokeInt m.buffer (m.length.toNat - 2) (nextId next)
    let b := pokeInt b (m.length.toNat - 1) (xorFrom 0xff (peek b) (m.length.toNat - 1))
    ({ m with buffer := b, callbackId := nextId next }, nextId next + 1)
  else (m, next)

/-- `GetLength`. -/
def getLength (m : Msg) : Nat :=
  if m.encrypted then m.length.toNat + 20 + 6 else m.length.toNat

/-- `GetSendingCommandClass`. -/
def getSendingCommandClass (m : Msg) : UInt8 :=
  if peek m.buffer 3 = FuncId.sendData then peek m.buffer 6 else 0

/-- `IsWakeUpNoMoreInformationCommand`. -/
def isWakeUpNoMoreInformationCommand (m : Msg) : Bool :=
  m.bFinal && m.length == 11 && peek m.buffer 3 == 0x13 && peek m.buffer 6 == 0x84
    && peek m.buffer 7 == 0x08

/-- `IsNoOperation`. -/
def isNoOperation (m : Msg) : Bool :=
  m.bFinal && m.length == 11 && peek m.buffer 3 == 0x13 && peek m.buffer 6 == 0x00
    && peek m.buffer 7 == 0x00

/-- The number of bytes `operator==` compares: all but the callback id and the
checksum. -/
def comparedLength (m : Msg) : UInt8 := m.length - (if m.bCallbackRequired then 2 else 1)

/-- `operator==`. -/
def eq (m other : Msg) : Bool :=
  m.bFinal && other.bFinal &&
    first m.buffer m.comparedLength.toNat == first other.buffer m.comparedLength.toNat

/-- `SetSendAttempts`. -/
def setSendAttempts (m : Msg) (count : UInt8) : Msg := { m with sendAttempts := count }

/-- `SetMaxSendAttempts`. -/
def setMaxSendAttempts (m : Msg) (count : UInt8) : Msg :=
  if count < maxMaxTries then { m with maxSendAttempts := count } else m

/-- `setEncrypted`. -/
def setEncrypted (m : Msg) : Msg := { m with encrypted := true }

/-- `SetHomeId`. -/
def setHomeId (m : Msg) (homeId : UInt32) : Msg := { m with homeId := homeId }

/-- `setResendDuetoCANorNAK`. -/
def setResendDuetoCANorNAK (m : Msg) : Msg := { m with resendDuetoCANorNAK := true }

/-- `setNonce`. -/
def setNonce (m : Msg) (nonce : Vector UInt8 8) (next : UInt8) : Msg × UInt8 :=
  { m with nonce := nonce, nonceRecvd := true }.updateCallbackId next

/-- `clearNonce`. -/
def clearNonce (m : Msg) : Msg :=
  { m with nonce := Vector.replicate 8 0, nonceRecvd := false }

end Msg

end OpenZWave

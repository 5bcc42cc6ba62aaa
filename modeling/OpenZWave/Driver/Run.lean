import OpenZWave.Driver.ProcessMsg
import OpenZWave.Lib.Transition

/-!
# Runs of the driver

The events of the driver thread and the calls of the other threads, in any
order. The thread takes the next item only when nothing is awaited, and waits
for a time only when something is; otherwise such an event changes nothing.
-/

namespace OpenZWave

/-- What can happen to the driver. The single bytes ACK, CAN and NAK are read by
`ReadMsg`, as are the frames. -/
inductive Event
  | call (c : DriverCall)
  | frame (f : Received)
  | ack
  | can
  | nak
  | timeout (nonce : Vector UInt8 8) (port : Bool)
  | writeNext (queue : MsgQueue) (nonce : Vector UInt8 8) (port : Bool)

namespace Driver

/-- The ACK case of `ReadMsg`. -/
def readAck (d : Driver) : Driver :=
  let d := { d with waitingForAck := false }
  if d.currentMsg.isSome && d.expectedCallbackId == 0 && d.expectedReply == 0 then
    d.removeCurrentMsg
  else d

/-- The CAN and NAK cases of `ReadMsg`: one more attempt, up to a limit. -/
def readCanOrNak (d : Driver) : Driver :=
  match d.currentMsg with
  | none => d
  | some msg =>
      { d with
        currentMsg :=
          some (msg.setMaxSendAttempts (msg.maxSendAttempts + 1)).setResendDuetoCANorNAK }

/-- The thread waits for the controller. -/
def waiting (d : Driver) : Bool :=
  d.waitingForAck || d.expectedCallbackId != 0 || d.expectedReply != 0

/-- The thread may take an item from the queue: while a controller command is in
progress only from the first three. -/
def offers (d : Driver) (queue : MsgQueue) : Bool :=
  !d.waiting && d.queueEvent queue
    && (d.currentControllerCommand.isNone
      || [MsgQueue.command, .noOp, .controller].contains queue)

/-- One event. -/
def step (d : Driver) : Event → Driver
  | .call c => d.call c
  | .frame f => (d.processMsg f).1
  | .ack => d.readAck
  | .can => d.readCanOrNak
  | .nak => d.readCanOrNak
  | .timeout nonce port => if d.waiting then d.waitTimeout nonce port else d
  | .writeNext queue nonce port =>
      if d.offers queue then (d.writeNextMsg queue nonce port).1 else d

end Driver

end OpenZWave

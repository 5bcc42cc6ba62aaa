import OpenZWave.WakeUp

/-!
# Nodes

The part of `Node` that dispatching, sending and queueing read. The object of
the Wake Up class carries state of its own, `wakeUp`; it exists when the class
is in the map.
-/

namespace OpenZWave

/-- `WakeUp`: whether the node is awake, and the messages that wait for it. -/
structure WakeUp where
  awake : Bool
  pendingQueue : List MsgQueueItem

structure Node where
  nodeId : UInt8
  commandClassMap : UInt8 → Option CommandClass
  queryStage : QueryStage
  listening : Bool
  frequentListening : Bool
  nodeAlive : Bool
  wakeUp : WakeUp

namespace Node

/-- `GetCommandClass`. -/
def getCommandClass (node : Node) (commandClassId : UInt8) : Option CommandClass :=
  node.commandClassMap commandClassId

/-- `AddCommandClass` for a class that is registered. -/
def addCommandClass (node : Node) (commandClassId : UInt8) : Node :=
  match node.getCommandClass commandClassId with
  | some _ => node
  | none =>
      { node with
        commandClassMap := fun id =>
          if id = commandClassId then some CommandClass.new else node.commandClassMap id }

/-- The Wake Up class of the node, if it has one. -/
def getWakeUp (node : Node) : Option WakeUp :=
  if (node.getCommandClass ClassId.wakeUp).isSome then some node.wakeUp else none

/-- A command class of the node that is secured. -/
def isSecured (node : Node) (commandClassId : UInt8) : Bool :=
  match node.getCommandClass commandClassId with
  | some cc => cc.secured
  | none => false

end Node

end OpenZWave

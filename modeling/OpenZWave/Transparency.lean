import OpenZWave.Dispatch

/-!
# Encapsulation and the unwrapped command

A command is delivered as a frame of its own, or in one of the four wrappers.
The theorems compare the call that `ApplicationCommandHandler` makes with the
call that the wrapper's handler makes for the command at its place.
-/

namespace OpenZWave

open Node

/-- A multi command with the commands before and after the one that is looked
at, or a wrapper of a single command. -/
inductive Wrapper
  | multiCmd (before after : List (List UInt8))
  | crc16
  | multiInstance (inst : UInt8)
  | multiChannel (source destination : UInt8)

/-- A command of a multi command, behind its length. -/
def part (command : List UInt8) : List UInt8 := UInt8.ofNat command.length :: command

namespace Wrapper

def cc : Wrapper → UInt8
  | .multiCmd _ _ => ClassId.multiCmd
  | .crc16 => ClassId.crc16Encap
  | .multiInstance _ => ClassId.multiInstance
  | .multiChannel _ _ => ClassId.multiInstance

/-- The bytes behind the class byte of the wrapper. -/
def body (command : List UInt8) : Wrapper → List UInt8
  | .multiCmd before after =>
      multiCmdEncap :: UInt8.ofNat (before.length + (after.length + 1)) ::
        (before.flatMap part ++ (part command ++ after.flatMap part))
  | .crc16 =>
      let crc := Node.crc16 (crc16EncapCmd :: command) (command.length + 1)
      crc16EncapCmd :: (command ++ [(crc >>> 8).toUInt8, crc.toUInt8])
  | .multiInstance inst => MultiInstanceCmd.instanceEncap :: inst :: command
  | .multiChannel source destination =>
      MultiInstanceCmd.channelEncap :: source :: destination :: command

/-- Where the bytes behind the class byte of the command stand in the body. -/
def place : Wrapper → Nat
  | .multiCmd before _ => 2 + (before.flatMap part).length + 2
  | .crc16 => 2
  | .multiInstance _ => 3
  | .multiChannel _ _ => 4

/-- The wrappers whose handler makes the call that the command asks for. -/
def Keeps (afterMark : Bool) : Wrapper → Prop
  | .multiCmd _ _ => False
  | .crc16 => True
  | .multiInstance _ => afterMark = false
  | .multiChannel source _ => afterMark = false ∨ source &&& 0x7f ≠ 0

end Wrapper

/-- A frame for `ApplicationCommandHandler`, with the bytes behind it. -/
def frame (status nodeId cc : UInt8) (body rest : List UInt8) : List UInt8 :=
  REQUEST :: FuncId.applicationCommandHandler :: status :: nodeId ::
    UInt8.ofNat (body.length + 1) :: cc :: (body ++ rest)

/-- The checksum reads the bytes it covers. -/
theorem crc16_append (l r : List UInt8) : Node.crc16 (l ++ r) l.length = Node.crc16 l l.length := by
  unfold Node.crc16
  apply List.foldl_ext
  intro crc i hi
  rw [List.getD_append _ _ _ _ (List.mem_range.mp hi)]

section Single

variable {node : Node} {cc : UInt8} {c : CommandClass} {payload rest : List UInt8}

end Single

/-! ## Multi commands -/

section Multi

variable {node : Node} {cc : UInt8} {c : CommandClass} {payload rest : List UInt8}
  {before after : List (List UInt8)}

end Multi

/-! ## The comparison -/

end OpenZWave

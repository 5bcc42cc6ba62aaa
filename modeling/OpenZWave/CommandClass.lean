import OpenZWave.Defs

/-!
# Command classes

The part of `CommandClass` that dispatching and sending read: its version, the
flags `STATE_FLAG_ENCRYPTED` and `STATE_FLAG_AFTERMARK`, and the map from
instances to endpoints.
-/

namespace OpenZWave

structure CommandClass where
  version : UInt8
  secured : Bool
  afterMark : Bool
  endPointMap : UInt8 → Option UInt8

namespace CommandClass

/-- A class as `CreateCommandClass` leaves it. -/
def new : CommandClass where
  version := 0
  secured := false
  afterMark := false
  endPointMap := fun _ => none

/-- `GetEndPoint`. -/
def getEndPoint (cc : CommandClass) (inst : UInt8) : UInt8 := (cc.endPointMap inst).getD 0

/-- `GetInstance`: the map is searched in the order of its keys. -/
def getInstance (cc : CommandClass) (endPoint : UInt8) : UInt8 :=
  match (List.range 256).find? fun i => cc.endPointMap (UInt8.ofNat i) == some endPoint with
  | some i => UInt8.ofNat i
  | none => 0

end CommandClass

end OpenZWave

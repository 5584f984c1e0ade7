import RenderBroker.Text.Decimal

/-!
# Capacities

The rules for the size of a stream's buffer. Whoever breaks one ends the thread it happens on.
-/

namespace RenderBroker

/-- The largest size of a buffer. -/
def maxCapacity : Nat :=
  0x7FFFFFFFFFFFFFFF

inductive CapacityBreach where
  | none
  /-- The unread bytes do not fit. -/
  | tooSmall (size unread : Nat)
  | tooLarge
  deriving DecidableEq, Repr

def CapacityBreach.text : CapacityBreach → String
  | .none => "InputStream capacity must be > 0"
  | .tooSmall size unread =>
    "resize to " ++ Text.decimal size ++ " would drop " ++ Text.decimal unread ++ " unread bytes"
  | .tooLarge => "capacity overflow"

end RenderBroker

import RenderBroker.Fault

/-!
# Outcomes of reads and writes

What one read from a socket or one write to it comes to. A read delivers of the bytes that have
arrived those that fit into the space it is offered; a write is taken up to a number of bytes.
-/

namespace RenderBroker

/-- What a read finds: the bytes that have arrived, none at the end of the stream, or a fault. -/
inductive ReadOutcome where
  | bytes (arrived : List UInt8)
  | fault (f : Fault)
  deriving DecidableEq, Repr

/-- What a read into `space` free bytes delivers. -/
def ReadOutcome.delivered (space : Nat) : ReadOutcome → Except Fault (List UInt8)
  | .bytes arrived => .ok (arrived.take space)
  | .fault f => .error f

/-- What a write comes to: it takes a number of bytes at most, or fails. -/
inductive WriteOutcome where
  | accepts (most : Nat)
  | fault (f : Fault)
  deriving DecidableEq, Repr

end RenderBroker

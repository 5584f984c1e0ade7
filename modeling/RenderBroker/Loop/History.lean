import RenderBroker.Loop.Handler

/-!
# What happens to connections

The event loop notes down every call of the handler, with what the call found and what it left, and
every read and write. Connections are told apart by their serial numbers.
-/

namespace RenderBroker

/-- The world of a handler and one client, before or after a call. -/
structure Moment (τ ω : Type) where
  world : ω
  client : Client τ

inductive Occurrence (τ ω : Type) where
  /-- It was accepted and then dropped before the handler heard of it. -/
  | declined (serial : Nat) (d : Descriptor)
  /-- The handler heard of it. -/
  | opened (before after : Moment τ ω)
  /-- A read came to this: the bytes that were received, or a fault. -/
  | read (serial : Nat) (offered : Option Nat) (result : Except Fault (List UInt8))
  /-- The handler was asked for a request. -/
  | requested (ending : RequestEnd) (before after : Moment τ ω)
  /-- A flush came to this. -/
  | flushed (serial : Nat) (f : OutputStream.Flush)
  /-- The handler heard that it goes away, and its socket was closed. -/
  | closed (before : Moment τ ω) (after : ω)
  /-- Its socket was closed when the thread of the loop ended by a panic. -/
  | abandoned (c : Client τ)

namespace Occurrence

variable {τ ω : Type}

def serial : Occurrence τ ω → Nat
  | .declined serial _ | .read serial _ _ | .flushed serial _ => serial
  | .opened _ m | .requested _ _ m | .closed m _ => m.client.serial
  | .abandoned c => c.serial

/-- Whether the socket of the connection was closed. -/
def ends : Occurrence τ ω → Bool
  | .declined _ _ | .closed _ _ | .abandoned _ => true
  | _ => false

end Occurrence

end RenderBroker

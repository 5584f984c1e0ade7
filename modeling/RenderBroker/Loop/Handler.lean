import RenderBroker.Loop.Client

/-!
# Connection handlers

A handler is called when a connection is new, when bytes have arrived on it, and when it goes away.
What it keeps between its calls is a world of its own; what it keeps for one connection is the tag
of the client.
-/

namespace RenderBroker

inductive RequestEnd where
  /-- No whole request waits. -/
  | idle
  | served
  /-- The connection cannot go on. -/
  | failed
  /-- The handler panicked, which ends the thread that called it. -/
  | panicked
  deriving DecidableEq, Repr

/-- A handler of connections with tags of type `τ` and a world of type `ω`. -/
structure Handler (τ ω : Type) where
  blank : τ
  /-- A connection is new; nothing comes back if the handler panics. -/
  opened : ω → Client τ → Option (ω × Client τ)
  /-- A request may wait. -/
  request : ω → Client τ → RequestEnd × ω × Client τ
  /-- A connection goes away. -/
  closed : ω → Client τ → ω
  /-- A bound on the requests that can still be read without receiving more. -/
  backlog : ω → Client τ → Nat
  /-- Every request that is read lowers the bound. -/
  backlog_lt : ∀ {w c w' c'}, request w c = (.served, w', c') →
    backlog w' (c.returned c') < backlog w c

end RenderBroker

import RenderBroker.Loop.History

/-!
# Serving one client

A client whose socket is ready is served in a fixed order: one read, then requests as long as the
handler finds some and the client is not marked, then one flush. The verdict says whether the
connection goes on.
-/

namespace RenderBroker

structure Readiness where
  readable : Bool := false
  writable : Bool := false
  hangUp : Bool := false
  error : Bool := false
  /-- The peer sends no more. -/
  peerClosed : Bool := false
  deriving DecidableEq, Repr

inductive Verdict where
  | keep
  | tearDown
  | crash
  deriving DecidableEq, Repr

/-- A client while it is served, with the handler's world and what has happened so far, the latest
first. -/
structure Session (τ ω : Type) where
  world : ω
  client : Client τ
  history : List (Occurrence τ ω) := []

namespace Session

variable {τ ω : Type}

def note (s : Session τ ω) (o : Occurrence τ ω) : Session τ ω :=
  { s with history := o :: s.history }

def requested (s : Session τ ω) (e : RequestEnd) (world : ω) (back : Client τ) : Session τ ω :=
  let client := s.client.returned back
  { world, client
    history := .requested e ⟨s.world, s.client⟩ ⟨world, client⟩ :: s.history }

/-- Asks for requests until none waits, the client is marked, or a request goes wrong. -/
def drain (h : Handler τ ω) (s : Session τ ω) : Verdict × Session τ ω :=
  if s.client.killed then (.keep, s)
  else
    match _asked : h.request s.world s.client with
    | (.idle, w, c) => (.keep, s.requested .idle w c)
    | (.served, w, c) => drain h (s.requested .served w c)
    | (.failed, w, c) => (.tearDown, s.requested .failed w c)
    | (.panicked, w, c) => (.crash, s.requested .panicked w c)
termination_by h.backlog s.world s.client
decreasing_by exact h.backlog_lt ‹_›

/-- Reads once, and serves the requests that have arrived. The end of the stream and a fault tear
the client down, unless the fault only asks for patience. -/
def receive (h : Handler τ ω) (s : Session τ ω) (r : ReadOutcome) : Verdict × Session τ ω :=
  let got := s.client.receive r
  let s := { s with client := got.client }.note (.read s.client.serial got.offered got.result)
  match got.result with
  | .ok [] => (.tearDown, s)
  | .ok _ => s.drain h
  | .error f => if f.isTransient then (.keep, s) else (.tearDown, s)

def flush (s : Session τ ω) (plan : List WriteOutcome) : Verdict × Session τ ω :=
  if s.client.hasQueued then
    let (f, client) := s.client.flush plan
    let s := { s with client }.note (.flushed client.serial f)
    match f.ending with
    | .failed _ => (.tearDown, s)
    | _ => (.keep, s)
  else (.keep, s)

/-- Flushes what is queued, and tears a client down that is marked. -/
def finish (s : Session τ ω) (plan : List WriteOutcome) : Verdict × Session τ ω :=
  match s.flush plan with
  | (.keep, s) => (if s.client.killed then .tearDown else .keep, s)
  | torn => torn

def serve (h : Handler τ ω) (s : Session τ ω) (flags : Readiness) (r : ReadOutcome)
    (plan : List WriteOutcome) : Verdict × Session τ ω :=
  if flags.readable then
    match s.receive h r with
    | (.keep, s) => s.finish plan
    | torn => torn
  else if flags.writable then s.finish plan
  else if flags.hangUp || flags.error then (.tearDown, s)
  else (.keep, s)

end Session

end RenderBroker

import RenderBroker.Loop.Basic
import RenderBroker.Turns

/-!
# Stopping a loop

Whoever stops a loop raises a flag and then adds to the counter of the waker. The loop looks at the
flag, waits until a descriptor is ready, and handles the events; the event of the waker sets its
counter back to zero. Both go on in turns, in any order. Between two looks at the flag the loop does
what a round of it says.
-/

namespace RenderBroker

inductive LoopStage where
  | looking
  | waiting
  /-- It handles the events that a wait came to. -/
  | handling (left : List Event)
  | ended

inductive StopStage where
  | before
  | flagged
  | woken
  deriving DecidableEq, Repr

structure StoppableLoop (τ ω : Type) where
  loop : EventLoop τ ω
  flag : Bool := false
  counter : Nat := 0
  stage : LoopStage := .looking
  stop : StopStage := .before
  /-- How many waits have come to events since the stop has woken the loop. -/
  late : Nat := 0

namespace StoppableLoop

variable {τ ω : Type}

/-- A turn: who goes on next, and what a wait or the tearing down comes to. -/
inductive Turn where
  | flag
  | wake
  /-- The loop looks at the flag, and ends with the table cleared if it is up. -/
  | look (clearing : Clearing)
  | wait (w : EventLoop.Wait) (clearing : Clearing)
  | handle

/-- The most events that one wait comes to. -/
def batchLimit : Nat :=
  64

/-- Whether a wait can come to these events: the waker is among them at most once, and only if its
counter is not zero. -/
def allows (s : StoppableLoop τ ω) (batch : List Event) : Bool :=
  batch.length ≤ batchLimit
    && (batch.countP fun e => e.descriptor == s.loop.waker) ≤ (if s.counter = 0 then 0 else 1)

def finish (h : Handler τ ω) (s : StoppableLoop τ ω) (clearing : Clearing) :
    StoppableLoop τ ω :=
  { s with loop := s.loop.shutdownAll h clearing, stage := .ended }

def awake (s : StoppableLoop τ ω) (batch : List Event) (resumed : Bool) : StoppableLoop τ ω :=
  { s with
    loop := if batch.isEmpty then s.loop.resume resumed else s.loop
    stage := .handling batch
    late := if s.stop = .woken then s.late + 1 else s.late }

def handle (h : Handler τ ω) (s : StoppableLoop τ ω) (e : Event) (left : List Event) :
    StoppableLoop τ ω :=
  { s with
    loop := s.loop.handle h e
    counter := if e.descriptor = s.loop.waker then 0 else s.counter
    stage := .handling left }

def step (h : Handler τ ω) (s : StoppableLoop τ ω) : Turn → Option (StoppableLoop τ ω)
  | .flag => if s.stop = .before then some { s with flag := true, stop := .flagged } else none
  | .wake =>
    if s.stop = .flagged then some { s with counter := s.counter + 1, stop := .woken } else none
  | .look clearing =>
    match s.stage with
    | .looking => some (if s.flag then s.finish h clearing else { s with stage := .waiting })
    | _ => none
  | .wait w clearing =>
    match s.stage, w with
    | .waiting, .events batch watching =>
      if s.allows batch then some (s.awake batch watching) else none
    | .waiting, .failed => some (s.finish h clearing)
    | _, _ => none
  | .handle =>
    match s.stage with
    | .handling [] => some { s with stage := .looking }
    | .handling (e :: left) => some (s.handle h e left)
    | _ => none

/-- A loop that starts with no stop asked for can come to this. -/
def Reachable (h : Handler τ ω) (s : StoppableLoop τ ω) : Prop :=
  ∃ loop, Reaches (step h) { loop } s

/-- Nothing wakes the loop any more unless another descriptor gets ready. -/
def Blocked (s : StoppableLoop τ ω) : Prop :=
  s.stage = .waiting ∧ s.counter = 0

theorem reaches_handleAll (h : Handler τ ω) (s : StoppableLoop τ ω) (batch : List Event)
    (stage : s.stage = .handling batch) :
    ∃ t, Reaches (step h) s t ∧ t.loop = s.loop.handleAll h batch ∧ t.stage = .looking := by
  induction batch generalizing s with
  | nil =>
    exact ⟨{ s with stage := .looking }, .single (t := .handle) (by simp [step, stage]), rfl, rfl⟩
  | cons e left ih =>
    have first : step h s .handle = some (s.handle h e left) := by simp [step, stage]
    obtain ⟨t, ht, hl, hs⟩ := ih (s.handle h e left) rfl
    exact ⟨t, .cons first ht, hl, hs⟩

/-- A wait that comes to events leads to a round over them. -/
theorem reaches_round (h : Handler τ ω) (s : StoppableLoop τ ω) (batch : List Event)
    (resumed : Bool) (stage : s.stage = .waiting) (allowed : s.allows batch = true) :
    ∃ t, Reaches (step h) s t ∧ t.loop = s.loop.round h batch resumed ∧ t.stage = .looking := by
  have first : step h s (.wait (.events batch resumed) {}) =
      some (s.awake batch resumed) := by simp [step, stage, allowed]
  obtain ⟨t, ht, hl, hs⟩ := reaches_handleAll h (s.awake batch resumed) batch rfl
  refine ⟨t, .cons first ht, ?_, hs⟩
  cases batch with
  | nil => simpa [awake, EventLoop.round, EventLoop.handleAll] using hl
  | cons e left => simpa [awake, EventLoop.round] using hl

end StoppableLoop

end RenderBroker

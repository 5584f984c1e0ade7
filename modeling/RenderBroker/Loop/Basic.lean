import RenderBroker.Loop.Poller
import RenderBroker.Loop.Service

/-!
# The event loop

One thread serves all connections of a listening socket. It holds a table of clients by descriptor,
and watches their sockets, the listening socket and a waker. Whatever the operating system answers
is laid down in the events that the loop is given.
-/

namespace RenderBroker

inductive AcceptResult where
  /-- A connection, with whether its socket could be set up and whether the poller took it. -/
  | connection (d : Descriptor) (setUp : Bool) (watched : Bool)
  | interrupted
  /-- No descriptor is left; the poller may fail to let the listening socket go. -/
  | exhausted (paused : Bool)
  | failed
  deriving DecidableEq, Repr

/-- Whether the poller does what it is told while an event is handled. -/
structure Control where
  modify : Bool := true
  resume : Bool := true
  deriving DecidableEq, Repr

/-- An event that the poller reports, with what the system calls that it leads to come to. -/
structure Event where
  descriptor : Descriptor
  flags : Readiness := {}
  accepts : List AcceptResult := []
  read : ReadOutcome := .fault .wouldBlock
  writes : List WriteOutcome := []
  control : Control := {}

/-- How a table of clients is emptied. A table has no order of its own, so its descriptors come in
any; behind each client the poller may fail to watch the listening socket again. -/
structure Clearing where
  order : List Descriptor → List Descriptor := id
  perm : ∀ ds, (order ds).Perm ds := by exact fun ds => .refl ds
  resumed : Descriptor → Bool := fun _ => true

/-- The state of the loop, with the handler's world and what has happened so far, the latest
first. -/
structure EventLoop (τ ω : Type) where
  listener : Descriptor
  waker : Descriptor
  inputCapacity : Nat
  outputCapacity : Nat
  world : ω
  /-- The table of clients; no two have the same descriptor. -/
  clients : List (Client τ) := []
  poller : Poller
  /-- The clients that are watched for room to write. -/
  writeArmed : List Descriptor := []
  /-- The listening socket is not watched because descriptors ran out. -/
  acceptPaused : Bool := false
  nextSerial : Nat := 0
  crashed : Bool := false
  history : List (Occurrence τ ω) := []

namespace EventLoop

variable {τ ω : Type}

def create (listener waker : Descriptor) (inputCapacity outputCapacity : Nat) (world : ω) :
    EventLoop τ ω :=
  { listener, waker, inputCapacity, outputCapacity, world
    poller := ((Poller.mk []).add listener {}).add waker {} }

def note (l : EventLoop τ ω) (o : Occurrence τ ω) : EventLoop τ ω :=
  { l with history := o :: l.history }

def client? (l : EventLoop τ ω) (d : Descriptor) : Option (Client τ) :=
  l.clients.find? fun c => c.descriptor == d

def erase (l : EventLoop τ ω) (d : Descriptor) : EventLoop τ ω :=
  { l with clients := l.clients.filter fun c => c.descriptor != d }

/-- Puts a client into the table, in place of one with the same descriptor. -/
def insert (l : EventLoop τ ω) (c : Client τ) : EventLoop τ ω :=
  { l with clients := (l.erase c.descriptor).clients ++ [c] }

def update (l : EventLoop τ ω) (c : Client τ) : EventLoop τ ω :=
  { l with clients := l.clients.map fun b => if b.descriptor = c.descriptor then c else b }

/-- The thread of the loop ends by a panic: all sockets close, and the handler hears nothing. -/
def crash (l : EventLoop τ ω) : EventLoop τ ω :=
  { l with
    crashed := true
    clients := []
    writeArmed := []
    poller := {}
    acceptPaused := false
    history := l.clients.reverse.map .abandoned ++ l.history }

/-- Stops watching the listening socket, unless the poller fails. -/
def pause (l : EventLoop τ ω) (paused : Bool) : EventLoop τ ω :=
  if l.acceptPaused || !paused then l
  else { l with poller := l.poller.remove l.listener, acceptPaused := true }

/-- Watches the listening socket again, unless the poller fails. -/
def resume (l : EventLoop τ ω) (resumed : Bool) : EventLoop τ ω :=
  if l.acceptPaused && resumed then
    { l with poller := l.poller.add l.listener {}, acceptPaused := false }
  else l

def newcomer (h : Handler τ ω) (l : EventLoop τ ω) (d : Descriptor) : Client τ :=
  { descriptor := d
    serial := l.nextSerial
    tag := h.blank
    inputCapacity := l.inputCapacity
    outputCapacity := l.outputCapacity }

/-- Takes a connection on: the poller watches it, the handler hears of it, the table holds it. A
connection that cannot be watched is dropped. -/
def register (h : Handler τ ω) (l : EventLoop τ ω) (d : Descriptor) (setUp watched : Bool) :
    EventLoop τ ω :=
  let c := l.newcomer h d
  let l := { l with nextSerial := l.nextSerial + 1 }
  if setUp && watched then
    match h.opened l.world c with
    | none => (l.note (.abandoned c)).crash
    | some (world, back) =>
      let after : Moment τ ω := ⟨world, c.returned back⟩
      ({ l with world, poller := l.poller.add d (.client false) }.note
        (.opened ⟨l.world, c⟩ after)).insert after.client
  else l.note (.declined c.serial d)

/-- Accepts connections until none waits or one cannot be accepted. -/
def accept (h : Handler τ ω) (l : EventLoop τ ω) : List AcceptResult → EventLoop τ ω
  | [] => l
  | .connection d setUp watched :: results =>
    let l := l.register h d setUp watched
    if l.crashed then l else accept h l results
  | .interrupted :: results => accept h l results
  | .exhausted paused :: _ => l.pause paused
  | .failed :: _ => l

/-- Takes a client out of the table, tells the handler, and closes its socket. -/
def tearDown (h : Handler τ ω) (l : EventLoop τ ω) (d : Descriptor) (resumed : Bool) :
    EventLoop τ ω :=
  match l.client? d with
  | none => l
  | some c =>
    let world := h.closed l.world c
    let l := l.note (.closed ⟨l.world, c⟩ world)
    let l := { l.erase d with
      world
      writeArmed := l.writeArmed.filter (· != d)
      poller := l.poller.remove d }
    l.resume resumed

/-- Watches a client for room to write exactly while it has output that waits, unless the poller
fails. -/
def updateInterest (l : EventLoop τ ω) (d : Descriptor) (wanted modified : Bool) : EventLoop τ ω :=
  if wanted == l.writeArmed.contains d || !modified then l
  else
    { l with
      poller := l.poller.modify d (.client wanted)
      writeArmed := if wanted then d :: l.writeArmed else l.writeArmed.filter (· != d) }

def serveClient (h : Handler τ ω) (l : EventLoop τ ω) (e : Event) : EventLoop τ ω :=
  match l.client? e.descriptor with
  | none => l
  | some c =>
    let (verdict, s) := Session.serve h ⟨l.world, c, []⟩ e.flags e.read e.writes
    let l := { l.update s.client with world := s.world, history := s.history ++ l.history }
    match verdict with
    | .keep => l.updateInterest e.descriptor s.client.hasQueued e.control.modify
    | .tearDown => l.tearDown h e.descriptor e.control.resume
    | .crash => l.crash

def handle (h : Handler τ ω) (l : EventLoop τ ω) (e : Event) : EventLoop τ ω :=
  if l.crashed || e.descriptor == l.waker then l
  else if e.descriptor == l.listener then l.accept h e.accepts
  else l.serveClient h e

def handleAll (h : Handler τ ω) (l : EventLoop τ ω) (batch : List Event) : EventLoop τ ω :=
  batch.foldl (handle h) l

inductive Wait where
  /-- Events; none if the time ran out, and then the poller may watch the listening socket again. -/
  | events (batch : List Event) (resumed : Bool := true)
  | failed

def shutdownAll (h : Handler τ ω) (l : EventLoop τ ω) (clearing : Clearing) : EventLoop τ ω :=
  (clearing.order (l.clients.map Client.descriptor)).foldl
    (fun l d => l.tearDown h d (clearing.resumed d)) l

def round (h : Handler τ ω) (l : EventLoop τ ω) (batch : List Event) (resumed : Bool) :
    EventLoop τ ω :=
  if batch.isEmpty then l.resume resumed else l.handleAll h batch

/-- Goes through the waits until a stop is asked for, which is behind the last one, or until a wait
fails. -/
def wait (h : Handler τ ω) (l : EventLoop τ ω) : List Wait → EventLoop τ ω
  | [] => l
  | .failed :: _ => l
  | .events batch resumed :: waits => wait h (l.round h batch resumed) waits

def run (h : Handler τ ω) (l : EventLoop τ ω) (waits : List Wait) (clearing : Clearing) :
    EventLoop τ ω :=
  (l.wait h waits).shutdownAll h clearing

end EventLoop

end RenderBroker

import RenderBroker.Server.Connector
import RenderBroker.Server.Link

/-!
# The host of a server

A host has the files, the links and the descriptors that a server works with. After everything that
happens outside, the event loop runs until nothing is ready any more; then the host is settled.
-/

namespace RenderBroker

structure Host (τ ω : Type) where
  handler : Handler τ ω
  connector : Connector
  files : FileTree
  loop : EventLoop τ ω
  looping : Bool := false
  /-- The number of listening sockets so far; the latest one has this number. -/
  owner : Nat := 0
  links : List Link := []
  /-- The number of descriptors that are left, if there are not plenty. -/
  spare : Option Nat := none

namespace Host

variable {τ ω : Type}

def listener : Descriptor :=
  3

def waker : Descriptor :=
  5

/-- The descriptor of the connection with a serial number, which no other connection gets. -/
def descriptor (serial : Nat) : Descriptor :=
  6 + Int.ofNat serial

def create (handler : Handler τ ω) (connector : Connector) (files : FileTree) (world : ω) :
    Host τ ω :=
  { handler, connector, files
    loop := .create listener waker connector.inputCapacity connector.outputCapacity world }

def waiting (h : Host τ ω) : List Link :=
  h.links.filter Link.isWaiting

/-- What accepting comes to: each waiting link is a connection, as long as descriptors are left. -/
def accepts (spare : Option Nat) (serial : Nat) : List Link → List AcceptResult
  | [] => []
  | _ :: links =>
    if spare = some 0 then [.exhausted true]
    else
      .connection (descriptor serial) true true
        :: accepts (spare.map (· - 1)) (serial + 1) links

/-- The event of the listening socket, if it is watched and a link waits. -/
def listenerEvent? (h : Host τ ω) : Option Event :=
  if h.loop.poller.watches listener && !h.waiting.isEmpty then
    some
      { descriptor := listener
        flags := { readable := true }
        accepts := accepts h.spare h.loop.nextSerial h.waiting }
  else none

/-- The event of a client's socket, if something wanted is ready. -/
def clientEvent? (h : Host τ ω) (c : Client τ) : Option Event := do
  let k ← h.links.find? fun k => k.serial == some c.serial
  let wanted ← h.loop.poller.interest? c.descriptor
  let flags := k.readiness wanted
  if flags = {} then none
  else some { descriptor := c.descriptor, flags, read := k.read, writes := k.writes }

def ready (h : Host τ ω) : List Event :=
  h.listenerEvent?.toList ++ h.loop.clients.filterMap h.clientEvent?

/-- Numbers the links that were accepted, from a serial number on and in the order they came. -/
def number (next stop : Nat) : List Link → List Link
  | [] => []
  | k :: links =>
    if k.isWaiting ∧ next < stop then { k with serial := some next } :: number (next + 1) stop links
    else k :: number next stop links

/-- The number of sockets that were closed. -/
def closings (history : List (Occurrence τ ω)) : Nat :=
  history.countP Occurrence.ends

/-- The host when the loop has gone on: the links follow what happened on them, and descriptors were
taken and given back. -/
def follow (h : Host τ ω) (loop : EventLoop τ ω) : Host τ ω :=
  let accepted := loop.nextSerial - h.loop.nextSerial
  let links := number h.loop.nextSerial loop.nextSerial h.links
  { h with
    loop := { loop with history := [] }
    links := links.map fun k => loop.history.foldr (fun o k => k.after o) k
    spare := h.spare.map fun n => n + closings loop.history - accepted }

/-- The host after a panic of the loop: nobody listens, and no link is served. -/
def deserted (h : Host τ ω) : Host τ ω :=
  { h with looping := false, links := h.links.map Link.drop }

/-- The loop goes through one wait. -/
def advance (h : Host τ ω) (batch : List Event) : Host τ ω :=
  let h := h.follow (h.loop.round h.handler batch true)
  if h.loop.crashed then h.deserted else h

def canResume (h : Host τ ω) : Bool :=
  h.loop.acceptPaused && !h.waiting.isEmpty && h.spare != some 0

/-- Lets the loop run until nothing is ready, through at most `n` waits. -/
def settleWithin (h : Host τ ω) : Nat → Host τ ω
  | 0 => h
  | n + 1 =>
    if !h.looping then h
    else
      let batch := h.ready
      if batch.isEmpty && !h.canResume then h else settleWithin (h.advance batch) n

/-- A bound on the waits until nothing is ready: each reads a byte, writes what there is room for,
closes a socket, accepts a link, or pauses or resumes accepting, and the latter happens at most once
per closed socket. -/
def work (h : Host τ ω) : Nat :=
  h.links.foldl (fun n k => n + (k.toServer.length + 5)) 4

def settle (h : Host τ ω) : Host τ ω :=
  h.settleWithin h.work

def start (h : Host τ ω) (obstacles : Obstacles := .none) : Except Failure Bool × Host τ ω :=
  let s := h.connector.start obstacles h.files (h.owner + 1)
  let h := { h with connector := s.connector, files := s.files }
  match s.result with
  | .ok true =>
    let loop : EventLoop τ ω :=
      { EventLoop.create listener waker h.connector.inputCapacity h.connector.outputCapacity
          h.loop.world with nextSerial := h.loop.nextSerial }
    (.ok true, { h with loop, looping := true, owner := h.owner + 1 })
  | r => (r, h)

/-- Whether a start of the server comes as far as to bind a socket. -/
def binds (h : Host τ ω) (obstacles : Obstacles := .none) : Bool :=
  !h.connector.running && h.connector.inputCapacity != 0
    && h.connector.binds obstacles h.files (h.owner + 1)

/-- Stops the server: every client is torn down, links that wait are dropped, and the socket file
goes. -/
def stop (h : Host τ ω) (clearing : Clearing := {}) : Host τ ω :=
  if h.connector.running then
    let (connector, files) := h.connector.stop h.files
    { (h.follow (h.loop.shutdownAll h.handler clearing)).deserted with connector, files }
  else h

/-- Whether a socket that the server listens on lies at the end of its path. -/
def reachable (h : Host τ ω) : Bool :=
  h.looping &&
    match h.files.follow? h.connector.path with
    | some (.socket owner _) => owner == h.owner
    | _ => false

/-- Whether something lies at the end of the server's path. -/
def pathTaken (h : Host τ ω) : Bool :=
  h.files.holds h.connector.path

def link? (h : Host τ ω) (peer : String) : Option Link :=
  h.links.find? fun k => k.held && k.peer == peer

def lastLink? (h : Host τ ω) (peer : String) : Option Link :=
  (h.links.reverse).find? fun k => k.peer == peer

/-- Changes the open link of a peer, and settles. -/
def change (h : Host τ ω) (peer : String) (f : Link → Link) : Host τ ω :=
  settle { h with links := h.links.map fun k => if k.held && k.peer == peer then f k else k }

/-- A peer sends bytes over its open link, and is told whether the link took them; sending none
never fails. -/
def send (h : Host τ ω) (peer : String) (bytes : List UInt8) : Bool × Host τ ω :=
  if bytes = [] ∨ (h.link? peer).any Link.takes then (true, h.change peer fun k => k.send bytes)
  else (false, h)

/-- A peer receives up to `n` bytes while the server goes on; each of at most `rounds` rounds takes
what is there. -/
def receiveWithin (h : Host τ ω) (peer : String) (n : Nat) : Nat → List UInt8 × Host τ ω
  | 0 => ([], h)
  | rounds + 1 =>
    let bytes := ((h.link? peer).map fun k => (k.receive n).1).getD []
    if bytes = [] then ([], h)
    else
      let h := h.change peer fun k => (k.receive n).2
      let (more, h) := receiveWithin h peer (n - bytes.length) rounds
      (bytes ++ more, h)

def receive (h : Host τ ω) (peer : String) (n : Nat) : List UInt8 × Host τ ω :=
  h.receiveWithin peer n n

def receiveReady (h : Host τ ω) (peer : String) : List UInt8 × Host τ ω :=
  h.receiveWithin peer (((h.link? peer).map fun k => k.toPeer.size).getD 0) 1

/-- Closes the open link of a peer; the descriptor of its end is free again. -/
def close (h : Host τ ω) (peer : String) : Host τ ω :=
  { h with spare := h.spare.map (· + 1) }.change peer Link.close

/-- Sends bytes over the open link of a peer, if it still takes them, and closes it at once. -/
def sendClose (h : Host τ ω) (peer : String) (bytes : List UInt8) : Host τ ω :=
  { h with spare := h.spare.map (· + 1) }.change peer fun k =>
    (if k.takes then k.send bytes else k).close

/-- Connects a peer, unless nobody listens. A link that the peer has open already is closed then. -/
def connect (h : Host τ ω) (peer : String) : Bool × Host τ ω :=
  if h.reachable then
    let links := h.links.map fun k => if k.held && k.peer == peer then k.close else k
    (true, settle { h with links := links ++ [{ peer }] })
  else (false, h)

def exhaust (h : Host τ ω) : Host τ ω :=
  { h with spare := some 0 }

def restore (h : Host τ ω) : Host τ ω :=
  settle { h with spare := none }

def client? (h : Host τ ω) (peer : String) : Option (Client τ) := do
  let k ← h.link? peer
  h.loop.clients.find? fun c => k.serial == some c.serial

end Host

end RenderBroker

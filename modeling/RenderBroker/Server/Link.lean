import RenderBroker.Loop.Basic
import RenderBroker.Server.Transit

/-!
# Links

A link is a connection as it lies between its two ends: the bytes under way in each direction, and
what each end has closed. A link waits to be accepted until it has a serial number.
-/

namespace RenderBroker

structure Link where
  peer : String
  /-- The number it was accepted under. -/
  serial : Option Nat := none
  /-- The bytes that the server has not read yet. -/
  toServer : List UInt8 := []
  toPeer : Transit := {}
  /-- The peer's socket is open. -/
  held : Bool := true
  /-- The peer may still send. -/
  sends : Bool := true
  /-- The peer may still receive. -/
  receives : Bool := true
  /-- The server's socket is open, or the link waits to be accepted. -/
  served : Bool := true
  /-- The number of requests that were read from it. -/
  handled : Nat := 0

namespace Link

def isWaiting (k : Link) : Bool :=
  k.served && k.serial.isNone

/-- Whether the peer can put bytes on the link. -/
def takes (k : Link) : Bool :=
  k.served && k.sends

def send (k : Link) (bytes : List UInt8) : Link :=
  { k with toServer := k.toServer ++ bytes }

def endSending (k : Link) : Link :=
  { k with sends := false }

def endReceiving (k : Link) : Link :=
  { k with receives := false }

def close (k : Link) : Link :=
  { k with held := false, sends := false, receives := false }

def drop (k : Link) : Link :=
  { k with served := false }

/-- What the poller tells about the server's socket, as far as it is wanted. -/
def readiness (k : Link) (wanted : Interest) : Readiness :=
  { readable := wanted.read && (!k.toServer.isEmpty || !k.sends)
    writable := wanted.write && k.toPeer.isReady
    hangUp := !k.held
    peerClosed := wanted.peerClosed && !k.sends }

def read (k : Link) : ReadOutcome :=
  if k.toServer.isEmpty && k.sends then .fault .wouldBlock else .bytes k.toServer

/-- What writes to the server's socket come to: it takes what it has room for, as long as the peer
receives. -/
def writes (k : Link) : List WriteOutcome :=
  if !k.receives then [.fault .brokenPipe]
  else if k.toPeer.room = 0 then [.fault .wouldBlock]
  else [.accepts k.toPeer.room, .fault .wouldBlock]

/-- The peer takes the first bytes that are there, at most `n`. -/
def receive (k : Link) (n : Nat) : List UInt8 × Link :=
  let (bytes, toPeer) := k.toPeer.receive n
  (bytes, { k with toPeer })

/-- Whether the peer can receive nothing but what is on the link already. -/
def isOver (k : Link) : Bool :=
  !k.served || !k.receives

/-- The link with the serial number `serial` after something happened on the server's side. -/
def afterOn {τ ω : Type} (serial : Nat) (k : Link) (o : Occurrence τ ω) : Link :=
  if o.serial = serial then
    match o with
    | .read _ _ (.ok bytes) => { k with toServer := k.toServer.drop bytes.length }
    | .flushed _ f => { k with toPeer := k.toPeer.send f.taken }
    | .requested .served _ _ => { k with handled := k.handled + 1 }
    | .declined _ _ | .closed _ _ | .abandoned _ => k.drop
    | _ => k
  else k

def after {τ ω : Type} (k : Link) (o : Occurrence τ ω) : Link :=
  match k.serial with
  | some serial => afterOn serial k o
  | none => k

end Link

end RenderBroker

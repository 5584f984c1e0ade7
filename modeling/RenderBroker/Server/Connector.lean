import RenderBroker.Failure
import RenderBroker.Files.Tree
import RenderBroker.Text.Quoted

/-!
# The connector

The connector owns the path of the listening socket. Starting it makes room at the path and binds a
socket there that only its owner can use; stopping it removes the socket again. A start that fails
after the socket was bound leaves none behind.
-/

namespace RenderBroker

/-- A step of a start that the operating system can refuse. -/
inductive StartStep where
  | makeDirectory
  | removeStale
  | bind
  | setMode
  | makeNonBlocking
  | createPoller
  | createWaker
  | watchListener
  | watchWaker
  | spawn
  deriving DecidableEq, Repr

/-- The steps that the operating system refuses beyond what the file tree tells. -/
abbrev Obstacles := StartStep → Option Fault

def Obstacles.none : Obstacles :=
  fun _ => Option.none

/-- The place of the listening socket, the sizes of its clients' streams, and whether it listens. -/
structure Connector where
  path : Path
  inputCapacity : Nat := 4096
  outputCapacity : Nat := 4096
  running : Bool := false
  deriving DecidableEq, Repr

namespace Connector

/-- The directory that the socket lies in, if its path has one. -/
def directory (c : Connector) : Path :=
  c.path.parent?.getD ⟨[]⟩

/-- What a start was doing when a step of it failed. -/
def attempt (c : Connector) : StartStep → String
  | .makeDirectory => "Failed to create socket dir: " ++ c.directory.display
  | .removeStale => "Failed to remove stale socket: " ++ c.path.display
  | .bind => "Failed to bind socket: " ++ c.path.display
  | .setMode => "Failed to set socket permissions: " ++ c.path.display
  | .makeNonBlocking => "Failed to make listener non-blocking"
  | .createPoller => "Failed to create epoll instance"
  | .createWaker => "Failed to create eventfd waker"
  | .watchListener => "Failed to register listener with epoll"
  | .watchWaker => "Failed to register waker with epoll"
  | .spawn => "Failed to spawn connector thread"

/-- The text of a fault that a step met; a path with a null byte is refused before the operating
system sees it. -/
def faultText (c : Connector) (step : StartStep) (f : Fault) : String :=
  if c.path.hasNull ∧ f = .invalidInput then
    if step = .bind then "paths must not contain interior null bytes"
    else "file name contained an unexpected NUL byte"
  else f.numberedText

def failure (c : Connector) (step : StartStep) (f : Fault) : Failure :=
  ⟨[c.attempt step], .fault f (c.faultText step f)⟩

/-- Whether a start has to take a step: the path may have no directory, and nothing may lie at
it. -/
def needs (c : Connector) (t : FileTree) : StartStep → Bool
  | .makeDirectory => c.path.parent?.isSome
  | .removeStale => t.holds c.path
  | _ => true

/-- What a step does to the files, and the fault that it meets there. A socket with the empty path
gets a name outside the tree. -/
def change (c : Connector) (owner : Nat) (t : FileTree) : StartStep → Except Fault Unit × FileTree
  | .makeDirectory => t.ensureDirectories c.directory
  | .removeStale => t.orKeep (t.remove c.path)
  | .bind => if c.path.bytes = [] then (.ok (), t) else t.orKeep (t.bind c.path owner)
  | .setMode => t.orKeep (t.setMode c.path 0o600)
  | _ => (.ok (), t)

def take (c : Connector) (obstacles : Obstacles) (owner : Nat) (t : FileTree) (s : StartStep) :
    Except Failure Unit × FileTree :=
  if !c.needs t s then (.ok (), t)
  else
    match obstacles s with
    | some f => (.error (c.failure s f), t)
    | none =>
      let (r, t) := c.change owner t s
      (r.mapError (c.failure s), t)

def takeAll (c : Connector) (obstacles : Obstacles) (owner : Nat) (t : FileTree) :
    List StartStep → Except Failure Unit × FileTree
  | [] => (.ok (), t)
  | s :: steps =>
    match c.take obstacles owner t s with
    | (.ok (), t) => takeAll c obstacles owner t steps
    | (.error e, t) => (.error e, t)

def bindingSteps : List StartStep :=
  [.makeDirectory, .removeStale, .bind]

def readyingSteps : List StartStep :=
  [.setMode, .makeNonBlocking, .createPoller, .createWaker, .watchListener, .watchWaker, .spawn]

/-- Whether a start comes as far as to bind the socket. -/
def binds (c : Connector) (obstacles : Obstacles) (t : FileTree) (owner : Nat) : Bool :=
  (c.takeAll obstacles owner t bindingSteps).1.isOk

/-- The tree without the socket file; what cannot be removed stays. -/
def cleared (c : Connector) (t : FileTree) : FileTree :=
  (t.orKeep (t.remove c.path)).2

/-- Puts a socket at the path, and takes it away again if it cannot be made ready. -/
def listen (c : Connector) (obstacles : Obstacles) (t : FileTree) (owner : Nat) :
    Except Failure Unit × FileTree :=
  match c.takeAll obstacles owner t bindingSteps with
  | (.error e, t) => (.error e, t)
  | (.ok (), t) =>
    match c.takeAll obstacles owner t readyingSteps with
    | (.ok (), t) => (.ok (), t)
    | (.error e, t) => (.error e, c.cleared t)

structure Start where
  /-- Whether the connector was started; it is not if it runs already. -/
  result : Except Failure Bool
  connector : Connector
  files : FileTree

/-- The failure of a start with input streams of no size, which could never tell that a peer closed
its connection. -/
def noCapacity : Failure :=
  .rejected "Initial input buffer capacity must be greater than zero"

/-- Starts listening with a socket that belongs to `owner`. -/
def start (c : Connector) (obstacles : Obstacles) (t : FileTree) (owner : Nat) : Start :=
  if c.running then ⟨.ok false, c, t⟩
  else if c.inputCapacity = 0 then ⟨.error noCapacity, c, t⟩
  else
    match c.listen obstacles t owner with
    | (.ok (), t) => ⟨.ok true, { c with running := true }, t⟩
    | (.error e, t) => ⟨.error e, c, t⟩

/-- Stops listening: whatever lies at the path then is removed. -/
def stop (c : Connector) (t : FileTree) : Connector × FileTree :=
  if c.running then ({ c with running := false }, c.cleared t) else (c, t)

def shown (c : Connector) : String :=
  "XConnector \x7b socket_path: " ++ Text.quotedBytes c.path.bytes ++ ", running: "
    ++ (if c.running then "true" else "false") ++ ", .. \x7d"

end Connector

end RenderBroker

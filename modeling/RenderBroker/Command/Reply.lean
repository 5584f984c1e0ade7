import RenderBroker.Command.Arguments
import RenderBroker.Options.Document
import RenderBroker.Server.Config
import RenderBroker.Server.Renderer

/-!
# Carrying out commands

A command either comes to an end at once, with an exit code and what it prints, or it starts a
service. A service is started only when everything it was told is valid: until then no file is
touched.
-/

namespace RenderBroker.Command

/-- What a command that has ended leaves: its exit code, its output, and its report of a failure. -/
structure Reply where
  code : Nat
  output : String := ""
  failure : Option Failure := none
  deriving DecidableEq, Repr

namespace Reply

def success (output : String) : Reply :=
  { code := 0, output }

def failed (f : Failure) : Reply :=
  { code := 1, failure := some f }

def misused : Reply :=
  { code := 2 }

def report? (r : Reply) : Option String :=
  r.failure.map fun f => "Error: " ++ f.report

end Reply

/-- Options as they are shown: the members in alphabetical order, and the version both packed and in
words. -/
def shownOptions (o : RenderOptions) : Json.Value :=
  .object
    [("exposed_device_extensions".toList, o.extensions.value),
      ("image_cache_size".toList, .natural o.imageCache.toNat),
      ("max_api_version".toList, .text o.maxVersion.display),
      ("max_api_version_packed".toList, .natural o.maxVersion.packed.toNat),
      ("max_device_memory".toList, .natural o.deviceMemory.toNat)]

def showOptions (settings : String) : Reply :=
  match RenderOptions.parse settings with
  | .ok o => .success ((shownOptions o).spreadText ++ "\n")
  | .error f => .failed f

/-- What a command finds around it: the files, what the system answers about a configuration file,
the variables of its environment that are text, and the directory for temporary files. -/
structure Surroundings where
  files : FileTree
  view : Path → ServerConfig.FileSight
  lookup : String → Option String
  temporary : Path := .ofString "/tmp"

/-- The variables of an environment, byte for byte. -/
abbrev Environment := String → Option (List UInt8)

/-- A variable that is set to a text; the empty text counts. -/
def Environment.text? (env : Environment) (name : String) : Option String :=
  (env name).bind Command.text?

/-- The directory for temporary files, which a variable may name. -/
def Environment.temporary (env : Environment) : Path :=
  match env "TMPDIR" with
  | some bytes => ⟨bytes⟩
  | none => .ofString "/tmp"

def Surroundings.within (files : FileTree) (view : Path → ServerConfig.FileSight)
    (env : Environment) : Surroundings :=
  { files, view, lookup := env.text?, temporary := env.temporary }

def viewIn (t : FileTree) (p : Path) : ServerConfig.FileSight where
  look := t.stat p
  content := t.read p

structure ServicePlan where
  options : RenderOptions
  location : SocketLocation
  maxContexts : Option Nat
  deriving DecidableEq, Repr

def ServeArguments.override (a : ServeArguments) (c : ServerConfig) : ServerConfig :=
  { c with
    socketPath := a.socket.getD c.socketPath
    renderOptions := a.options.getD c.renderOptions }

/-- Makes the plan of a service, or tells the first thing that is wrong: the configuration file, the
render options, or the path of the socket. -/
def ServeArguments.plan (a : ServeArguments) (s : Surroundings) : Except Failure ServicePlan := do
  let c ← ServerConfig.load (a.config.map fun p => (p, (s.view p).found)) s.lookup s.temporary
  let c := a.override c
  let options ← c.options.mapError (Failure.within "Invalid render options")
  let location ← c.location
  return ⟨options, location, a.maxContexts⟩

abbrev Service := Host (Option ContextHandle) Bridge

def ServicePlan.service (p : ServicePlan) (files : FileTree) : Service :=
  Renderer.host p.options p.location.path files
    { backend := { loopback := { limit := p.maxContexts } } }

inductive Outcome where
  | ended (r : Reply)
  /-- A service runs; so far it has printed this. -/
  | serving (output : String) (s : Service)

def listening (p : Path) : String :=
  "Listening on " ++ p.display ++ "\n"

def shuttingDown : String :=
  "Shutting down...\n"

/-- What a command has done outside itself: the files as it has left them, and the threads that it
has spawned and the sockets that it has bound, the latest first. -/
structure Footprint where
  files : FileTree
  threads : List String := []
  sockets : List Path := []

def Surroundings.untouched (s : Surroundings) : Footprint :=
  { files := s.files }

def renderThread : String :=
  "vortek-render"

def connectorThread : String :=
  "vortek-connector"

def Footprint.spawn (f : Footprint) (thread : String) : Footprint :=
  { f with threads := thread :: f.threads }

/-- Spawns the thread that renders, and starts the service. A start that fails may have bound the
socket before. -/
def ServicePlan.launch (p : ServicePlan) (f : Footprint) : Outcome × Footprint :=
  let f := f.spawn renderThread
  let s := p.service f.files
  let f := if s.binds then { f with sockets := p.location.path :: f.sockets } else f
  match s.start with
  | (.error e, h) => (.ended (.failed e), { f with files := h.files })
  | (.ok _, h) =>
    (.serving (listening p.location.path) h, { f.spawn connectorThread with files := h.files })

/-- Serves, and tells what has been done outside so far. -/
def ServeArguments.run (a : ServeArguments) (s : Surroundings) : Outcome × Footprint :=
  match a.plan s with
  | .error f => (.ended (.failed f), s.untouched)
  | .ok p => p.launch s.untouched

def serve (a : ServeArguments) (s : Surroundings) : Outcome :=
  (a.run s).1

def finish (output : String) (s : Service) : Reply × FileTree :=
  (.success (output ++ shuttingDown), s.stop.files)

def Request.carryOut (s : Surroundings) : Request → Outcome
  | .serve a => Command.serve a s
  | .options settings => .ended (showOptions settings)
  | .help t => .ended (.success t.text)
  | .version => .ended (.success versionText)
  | .misuse => .ended .misused

end RenderBroker.Command

import RenderBroker.Json.Reader
import RenderBroker.Json.Value
import RenderBroker.Options.Settings
import RenderBroker.Server.Location

/-!
# Server configuration

Three fields, each from a file, and each overridden by a variable of the environment. The file is an
object or a list; fields that it leaves out keep their defaults, and members of other names do not
count.
-/

namespace RenderBroker

open Json (Problem Token Reader MemberRole Value)

structure ServerConfig where
  /-- The directory that relative socket paths start from. -/
  rootDir : Path := .ofString "/tmp"
  /-- The path of the listening socket. -/
  socketPath : Path := .ofString "tmp/.vortek/V0"
  /-- The settings text of the render options. -/
  renderOptions : String := ""
  deriving DecidableEq, Repr

namespace ServerConfig

instance : Inhabited ServerConfig := ⟨{}⟩

/-- The configuration where nothing is set: its root is the directory for temporary files, which
depends on where the program runs. -/
def unset (temporary : Path) : ServerConfig :=
  { rootDir := temporary }

def location (c : ServerConfig) : Except Failure SocketLocation :=
  SocketLocation.under c.rootDir c.socketPath

def options (c : ServerConfig) : Except Failure RenderOptions :=
  RenderOptions.parse c.renderOptions

/-- Whether the configuration is the default one; paths may differ from it in idle segments. -/
def isDefault (c : ServerConfig) : Bool :=
  let d : ServerConfig := {}
  c.rootDir.sameAs d.rootDir && c.socketPath.sameAs d.socketPath
    && c.renderOptions == d.renderOptions

/-- The variables that override a field, in the order they are looked up. -/
inductive Variable where
  | rootDir
  | socketPath
  | renderOptions
  deriving DecidableEq, Repr

def Variable.name : Variable → String
  | .rootDir => "VORTEK_ROOT_DIR"
  | .socketPath => "VORTEK_SOCKET_PATH"
  | .renderOptions => "VORTEK_RENDER_OPTIONS"

def Variable.all : List Variable :=
  [.rootDir, .socketPath, .renderOptions]

def set (c : ServerConfig) (v : Variable) (value : String) : ServerConfig :=
  match v with
  | .rootDir => { c with rootDir := .ofString value }
  | .socketPath => { c with socketPath := .ofString value }
  | .renderOptions => { c with renderOptions := value }

/-- Sets every field whose variable has a value. -/
def override (c : ServerConfig) (lookup : String → Option String) : ServerConfig :=
  Variable.all.foldl
    (fun c v =>
      match lookup v.name with
      | some value => c.set v value
      | none => c)
    c

def value? (c : ServerConfig) : Option Value := do
  let rootDir ← c.rootDir.text?
  let socketPath ← c.socketPath.text?
  return .object
    [("root_dir".toList, .text rootDir), ("socket_path".toList, .text socketPath),
      ("render_options".toList, .text c.renderOptions)]

structure Draft where
  rootDir : Option String := none
  socketPath : Option String := none
  renderOptions : Option String := none

/-- A wanted string, unless it has been read before. -/
def Draft.once (current : Option String) (set : String → Draft) : MemberRole Draft :=
  if current.isSome then .repeated
  else .wanted fun ts => (Json.readString ts).map fun r => (set r.1, r.2)

def Draft.field (d : Draft) (key : String) : MemberRole Draft :=
  if key = "root_dir" then Draft.once d.rootDir fun s => { d with rootDir := some s }
  else if key = "socket_path" then Draft.once d.socketPath fun s => { d with socketPath := some s }
  else if key = "render_options" then
    Draft.once d.renderOptions fun s => { d with renderOptions := some s }
  else .unknown

def Draft.complete (d : Draft) (temporary : Path) : ServerConfig :=
  let c := unset temporary
  { rootDir := (d.rootDir.map Path.ofString).getD c.rootDir
    socketPath := (d.socketPath.map Path.ofString).getD c.socketPath
    renderOptions := d.renderOptions.getD c.renderOptions }

def readItem? (first : Bool) : Reader (Option String) := fun ts =>
  match Json.nextItem? first ts with
  | .error p => .error p
  | .ok none => .ok (none, ts)
  | .ok (some ts) => (Json.readString ts).map fun r => (some r.1, r.2)

def Draft.reader : Reader Draft
  | [] => .error .ended
  | .openBrace :: ts => (Json.members true ts).read Draft.field {}
  | .openBracket :: ts => do
    let (rootDir, ts) ← readItem? true ts
    let (socketPath, ts) ← readItem? false ts
    let (renderOptions, ts) ← readItem? false ts
    return (⟨rootDir, socketPath, renderOptions⟩, ← Json.endList ts)
  | t :: _ => .error t.unwanted

def Draft.ofDocument (s : List Char) : Except Problem Draft :=
  Json.readDocument Draft.reader s

def ofDocument (s : List Char) (temporary : Path := .ofString "/tmp") :
    Except Problem ServerConfig :=
  (Draft.ofDocument s).map fun d => d.complete temporary

/-- What the system answers where a configuration file is looked for: to a look at what lies there,
and to a read of it. -/
structure FileSight where
  look : Except Fault Unit
  content : Except Fault (List UInt8)

/-- A file as it counts: none, or what a read of it comes to. -/
abbrev FileView := Option (Except Fault (List UInt8))

/-- A look that fails counts as one that finds nothing, whatever made it fail; only what it finds is
read. -/
def FileSight.found (s : FileSight) : FileView :=
  match s.look with
  | .ok () => some s.content
  | .error _ => none

def unreadable (path : Path) (cause : Cause) : Failure :=
  ⟨["Failed to read config: " ++ path.display], cause⟩

/-- Reads what the bytes of the file set. -/
def Draft.ofBytes (path : Path) (bytes : List UInt8) : Except Failure Draft :=
  match Text.decodeUtf8? bytes with
  | none =>
    .error (unreadable path (.fault .invalidData "stream did not contain valid UTF-8"))
  | some s =>
    match Draft.ofDocument s with
    | .ok d => .ok d
    | .error p => .error ⟨["Failed to parse config: " ++ path.display], .json p⟩

/-- What a file sets, if one is named; a file that is not there sets nothing. -/
def Draft.ofFile : Option (Path × FileView) → Except Failure Draft
  | none | some (_, none) => .ok {}
  | some (path, some (.ok bytes)) => Draft.ofBytes path bytes
  | some (path, some (.error f)) => .error (unreadable path (.fault f f.numberedText))

/-- The configuration of a file, if one is named, with the overrides of the environment. -/
def load (file : Option (Path × FileView)) (lookup : String → Option String)
    (temporary : Path := .ofString "/tmp") : Except Failure ServerConfig :=
  (Draft.ofFile file).map fun d => (d.complete temporary).override lookup

/-- The lines that are logged while a configuration is loaded. -/
def remarks (file : Option (Path × FileView)) : List LogLine :=
  match file with
  | some (path, none) =>
    [⟨.info, "[Config] " ++ path.display ++ " not found, using defaults"⟩]
  | _ => []

end ServerConfig

end RenderBroker

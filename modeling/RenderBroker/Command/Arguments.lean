import RenderBroker.Command.Help
import RenderBroker.Path
import RenderBroker.Text.Decimal
import RenderBroker.Text.Split

/-!
# Command line arguments

The first argument names a command. Arguments are read from left to right, and the first one that
cannot be understood, or that asks for help or for the version, decides.
-/

namespace RenderBroker.Command

/-- An argument, byte for byte. -/
abbrev Argument := List UInt8

structure ServeArguments where
  config : Option Path := none
  socket : Option Path := none
  options : Option String := none
  maxContexts : Option Nat := none
  deriving DecidableEq, Repr

inductive Request where
  | serve (a : ServeArguments)
  | options (settings : String)
  | help (t : HelpTopic)
  | version
  | misuse
  deriving DecidableEq, Repr

def hyphen : UInt8 :=
  0x2D

def equalsSign : UInt8 :=
  0x3D

/-- The argument behind which nothing is an option. -/
def separator : Argument :=
  [hyphen, hyphen]

inductive Shape where
  /-- Two hyphens and a name, with a value behind an equals sign if there is one. -/
  | long (name : Argument) (value : Option Argument)
  | short (letters : Argument)
  | separator
  /-- Anything else; a hyphen alone is a value too. -/
  | value (a : Argument)
  deriving DecidableEq, Repr

def Shape.of (a : Argument) : Shape :=
  if a = Command.separator then .separator
  else if Command.separator.isPrefixOf a then
    match Text.cutFirst equalsSign (a.drop 2) with
    | some (name, v) => .long name (some v)
    | none => .long (a.drop 2) none
  else if a.head? = some hyphen ∧ a ≠ [hyphen] then .short (a.drop 1)
  else .value a

def helpName : Argument :=
  Text.utf8 "help"

def versionName : Argument :=
  Text.utf8 "version"

def helpLetter : UInt8 :=
  0x68

def versionLetter : UInt8 :=
  0x56

def text? (a : Argument) : Option String :=
  (Text.decodeUtf8? a).map String.ofList

inductive ServeOption where
  | config
  | socket
  | options
  | maxContexts
  deriving DecidableEq, Repr

def ServeOption.name : ServeOption → String
  | .config => "config"
  | .socket => "socket"
  | .options => "options"
  | .maxContexts => "max-contexts"

def ServeOption.all : List ServeOption :=
  [.config, .socket, .options, .maxContexts]

def ServeOption.ofName? (name : Argument) : Option ServeOption :=
  all.find? fun o => Text.utf8 o.name == name

def readPath (a : Argument) : Option Path :=
  if a = [] then none else some ⟨a⟩

def readAmount (a : Argument) : Option Nat := do
  let s ← Text.decodeUtf8? a
  (Text.readNumeral (UInt64.size - 1) s).toOption

def ServeArguments.has (d : ServeArguments) : ServeOption → Bool
  | .config => d.config.isSome
  | .socket => d.socket.isSome
  | .options => d.options.isSome
  | .maxContexts => d.maxContexts.isSome

def ServeArguments.put (d : ServeArguments) (a : Argument) : ServeOption → Option ServeArguments
  | .config => (readPath a).map fun p => { d with config := some p }
  | .socket => (readPath a).map fun p => { d with socket := some p }
  | .options => (text? a).map fun s => { d with options := some s }
  | .maxContexts => (readAmount a).map fun n => { d with maxContexts := some n }

/-- Gives an option a value, unless it has one or the value does not fit. -/
def ServeArguments.set (d : ServeArguments) (o : ServeOption) (a : Argument) :
    Option ServeArguments :=
  if d.has o then none else d.put a o

def readServe (d : ServeArguments) : List Argument → Request
  | [] => .serve d
  | a :: rest =>
    match Shape.of a with
    | .separator => if rest = [] then .serve d else .misuse
    | .short letters => if letters.head? = some helpLetter then .help .serve else .misuse
    | .value _ => .misuse
    | .long name (some value) =>
      match (ServeOption.ofName? name).bind fun o => d.set o value with
      | some d => readServe d rest
      | none => .misuse
    | .long name none =>
      if name = helpName then .help .serve
      else
        match ServeOption.ofName? name, rest with
        | some o, b :: rest =>
          match Shape.of b with
          | .value value =>
            match d.set o value with
            | some d => readServe d rest
            | none => .misuse
          | _ => .misuse
        | _, _ => .misuse

/-- Takes an argument as the settings text, if it is the first one. -/
def takeSettings (settings : Option String) (a : Argument) : Option String :=
  if settings.isSome then none else text? a

def readSettings (settings : Option String) : List Argument → Request
  | [] => .options (settings.getD "")
  | a :: rest =>
    match takeSettings settings a with
    | some s => readSettings (some s) rest
    | none => .misuse

def readOptions (settings : Option String) : List Argument → Request
  | [] => .options (settings.getD "")
  | a :: rest =>
    match Shape.of a with
    | .separator => readSettings settings rest
    | .short letters => if letters.head? = some helpLetter then .help .options else .misuse
    | .long name value =>
      if name = helpName ∧ value = none then .help .options else .misuse
    | .value a =>
      match takeSettings settings a with
      | some s => readOptions (some s) rest
      | none => .misuse

def readHelp : List Argument → Request
  | [] => .help .program
  | [a] =>
    match (text? a).bind HelpTopic.ofName? with
    | some t => .help t
    | none => .misuse
  | _ => .misuse

def read : List Argument → Request
  | [] => .misuse
  | a :: rest =>
    match Shape.of a with
    | .separator => .misuse
    | .long name value =>
      if value.isSome then .misuse
      else if name = helpName then .help .program
      else if name = versionName then .version
      else .misuse
    | .short letters =>
      if letters.head? = some helpLetter then .help .program
      else if letters.head? = some versionLetter then .version
      else .misuse
    | .value a =>
      if a = Text.utf8 "serve" then readServe {} rest
      else if a = Text.utf8 "options" then readOptions none rest
      else if a = helpName then readHelp rest
      else .misuse

end RenderBroker.Command

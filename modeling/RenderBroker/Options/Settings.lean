import RenderBroker.Options.Basic

/-!
# Settings texts

Render options are set by a text of entries `key=value` between commas. Blank entries do not count.
A text is refused for its first entry without an equals sign, and if there is none for its first
entry whose value does not fit its key.
-/

namespace RenderBroker.Settings

/-- An entry of a settings text, trimmed around its key and its value. -/
structure Entry where
  key : List Char
  value : List Char
  deriving DecidableEq, Repr

inductive Key where
  | maxVersion
  | deviceMemory
  | imageCache
  | extensions
  deriving DecidableEq, Repr

def Key.name : Key → String
  | .maxVersion => "vkMaxVersion"
  | .deviceMemory => "maxDeviceMemory"
  | .imageCache => "imageCacheSize"
  | .extensions => "exposedDeviceExtensions"

def Key.all : List Key :=
  [.maxVersion, .deviceMemory, .imageCache, .extensions]

def Entry.key? (e : Entry) : Option Key :=
  Key.all.find? fun k => k.name.toList == e.key

inductive Refusal where
  /-- The entry has no equals sign. -/
  | malformed (entry : List Char)
  /-- The value is no version. -/
  | version (value : List Char) (e : ApiVersion.ReadError)
  /-- The value is no amount that fits 16 bits. -/
  | amount (key : List Char) (value : List Char) (e : Text.NumeralError)
  deriving DecidableEq, Repr

def Refusal.failure : Refusal → Failure
  | .malformed entry =>
    .rejected ("Malformed render option '" ++ String.ofList entry ++ "': expected key=value")
  | .version value e => e.failure (String.ofList value)
  | .amount key value e =>
    .numeral ("Invalid value '" ++ String.ofList value ++ "' for " ++ String.ofList key
      ++ ": expected 0..=65535") e

/-- The trimmed entries that are not blank. -/
def entryTexts (s : List Char) : List (List Char) :=
  ((Text.cut ',' s).map Text.trim).filter (· ≠ [])

def readEntry (entry : List Char) : Except Refusal Entry :=
  match Text.cutFirst '=' entry with
  | some (key, value) => .ok ⟨Text.trim key, Text.trim value⟩
  | none => .error (.malformed entry)

/-- The entries of a text, if each has an equals sign. -/
def readEntries (s : List Char) : Except Refusal (List Entry) :=
  (entryTexts s).mapM readEntry

/-- The version text that leaves the version as it is. -/
def keptVersion : List Char := ['1', '.', '3']

def readAmount (e : Entry) : Except Refusal UInt16 :=
  match Text.readNumeral 65535 e.value with
  | .ok n => .ok (UInt16.ofNat n)
  | .error p => .error (.amount e.key e.value p)

/-- Sets the option that an entry names; an entry with any other key changes nothing. -/
def Entry.apply (e : Entry) (o : RenderOptions) : Except Refusal RenderOptions :=
  match e.key? with
  | some .maxVersion =>
    if e.value = keptVersion then .ok o
    else
      match ApiVersion.read e.value with
      | .ok v => .ok { o with maxVersion := v }
      | .error p => .error (.version e.value p)
  | some .deviceMemory => (readAmount e).map fun n => { o with deviceMemory := n }
  | some .imageCache => (readAmount e).map fun n => { o with imageCache := n }
  | some .extensions => .ok { o with extensions := .parse e.value }
  | none => .ok o

def applyAll (o : RenderOptions) (entries : List Entry) : Except Refusal RenderOptions :=
  entries.foldlM (fun o e => e.apply o) o

def read (s : List Char) : Except Refusal RenderOptions := do
  applyAll {} (← readEntries s)

/-- The lines that are logged for an entry which is passed over, in whole or in part. -/
def Entry.remarks (e : Entry) : List LogLine :=
  match e.key? with
  | some .maxVersion => if e.value = keptVersion then [] else ApiVersion.remarks e.value
  | some _ => []
  | none =>
    [⟨.debug, "[Config] Ignoring unknown render option '" ++ String.ofList e.key ++ "'"⟩]

/-- The lines that are logged for an accepted text. -/
def remarks (s : List Char) : List LogLine :=
  match readEntries s with
  | .ok entries => entries.flatMap Entry.remarks
  | .error _ => []

end RenderBroker.Settings

namespace RenderBroker

def RenderOptions.parse (s : String) : Except Failure RenderOptions :=
  (Settings.read s.toList).mapError Settings.Refusal.failure

def RenderOptions.remarks (s : String) : List LogLine :=
  Settings.remarks s.toList

end RenderBroker

import RenderBroker.Failure
import RenderBroker.Log
import RenderBroker.Text.Blank
import RenderBroker.Text.Split

/-!
# API versions

A version is packed into one word of 32 bits: seven for the major component, ten for the minor one
and twelve for the patch. A version that is read from a text always has the same patch.
-/

namespace RenderBroker

structure ApiVersion where
  packed : UInt32
  deriving DecidableEq, Repr

namespace ApiVersion

/-- Packs three components, each cut down to its width. -/
def ofParts (major minor patch : UInt32) : ApiVersion :=
  ⟨((major &&& 0x7F) <<< 22) ||| ((minor &&& 0x3FF) <<< 12) ||| (patch &&& 0xFFF)⟩

/-- All bits above the minor component. -/
def major (v : ApiVersion) : UInt32 :=
  v.packed >>> 22

/-- The ten bits above the patch. -/
def minor (v : ApiVersion) : UInt32 :=
  (v.packed >>> 12) &&& 0x3FF

/-- The lowest twelve bits. -/
def patch (v : ApiVersion) : UInt32 :=
  v.packed &&& 0xFFF

/-- The patch of every version that is read from a text. -/
def patchLevel : UInt32 := 128

/-- The version that is offered unless another one is set. -/
def default : ApiVersion :=
  ofParts 1 3 patchLevel

instance : Inhabited ApiVersion := ⟨default⟩

def display (v : ApiVersion) : String :=
  Text.decimal v.major.toNat ++ "." ++ Text.decimal v.minor.toNat ++ "."
    ++ Text.decimal v.patch.toNat

inductive Component where
  | major
  | minor
  deriving DecidableEq, Repr

def Component.name : Component → String
  | .major => "major"
  | .minor => "minor"

def Component.max : Component → Nat
  | .major => 127
  | .minor => 1023

inductive ReadError where
  /-- It has not two or three parts. -/
  | shape
  | numeral (component : Component) (e : Text.NumeralError)
  /-- A part is too large for its component. -/
  | range (component : Component) (value : Nat)
  deriving DecidableEq, Repr

def ReadError.failure (source : String) : ReadError → Failure
  | .shape => .rejected ("Invalid API version '" ++ source ++ "': expected major.minor")
  | .numeral c e =>
    .numeral ("Invalid " ++ c.name ++ " component in API version '" ++ source ++ "'") e
  | .range c value =>
    .rejected (c.name ++ " component " ++ Text.decimal value ++ " out of range (max "
      ++ Text.decimal c.max ++ ") in API version '" ++ source ++ "'")

def readComponent (c : Component) (s : List Char) : Except ReadError Nat :=
  match Text.readNumeral (UInt32.size - 1) s with
  | .error e => .error (.numeral c e)
  | .ok value => if value ≤ c.max then .ok value else .error (.range c value)

def parts (s : List Char) : List (List Char) :=
  Text.cut '.' (Text.trim s)

/-- Reads a version of two parts; a third part may be anything and does not count. -/
def read (s : List Char) : Except ReadError ApiVersion :=
  match parts s with
  | [major, minor] | [major, minor, _] => do
    let major ← readComponent .major major
    let minor ← readComponent .minor minor
    return ofParts (UInt32.ofNat major) (UInt32.ofNat minor) patchLevel
  | _ => .error .shape

/-- The line that is logged where a third part was passed over. -/
def remarks (s : List Char) : List LogLine :=
  if (parts s).length = 3 then
    [⟨.debug, "[Config] Ignoring patch component of API version '" ++ String.ofList s ++ "'"⟩]
  else []

def parse (s : String) : Except Failure ApiVersion :=
  (read s.toList).mapError (ReadError.failure s)

end ApiVersion

end RenderBroker

import RenderBroker.Text.Split
import RenderBroker.Text.Utf8

/-!
# File paths

A path is a byte sequence with `/` between its segments. Nothing is resolved here: joining and
taking the parent work on the bytes alone.
-/

namespace RenderBroker

/-- A file path, byte for byte. -/
structure Path where
  bytes : List UInt8
  deriving DecidableEq, Repr

namespace Path

def slash : UInt8 := 0x2F

/-- The segment that stands for the directory it is in. -/
def dot : List UInt8 := [0x2E]

/-- The segment that stands for the directory above. -/
def dotDot : List UInt8 := [0x2E, 0x2E]

def ofString (s : String) : Path :=
  ⟨Text.utf8 s⟩

/-- The path as text, with the replacement character for bytes that are not UTF-8. -/
def display (p : Path) : String :=
  Text.showUtf8 p.bytes

def text? (p : Path) : Option String :=
  (Text.decodeUtf8? p.bytes).map String.ofList

def size (p : Path) : Nat :=
  p.bytes.length

def isAbsolute (p : Path) : Bool :=
  p.bytes.head? == some slash

/-- The path `q` seen from the directory `p`: an absolute `q` stands for itself, and any other
follows `p` after one slash, which is added if `p` does not end with it. -/
def join (p q : Path) : Path :=
  if q.isAbsolute then q
  else if p.bytes = [] ∨ p.bytes.getLast? = some slash then ⟨p.bytes ++ q.bytes⟩
  else ⟨p.bytes ++ slash :: q.bytes⟩

/-- Whether a null byte is in the path, which no file name can hold. -/
def hasNull (p : Path) : Bool :=
  p.bytes.contains 0

/-- The segments between the slashes, empty ones included. -/
def segments (p : Path) : List (List UInt8) :=
  Text.cut slash p.bytes

/-- Whether slashes stand behind the last name of the path. -/
def endsOpen (p : Path) : Bool :=
  p.bytes.getLast? == some slash && p.bytes.any (· != slash)

/-- The path without slashes behind its last name. -/
def closed (p : Path) : Path :=
  if p.endsOpen then ⟨(p.bytes.reverse.dropWhile (· == slash)).reverse⟩ else p

/-- A segment is idle if it leads nowhere: it is empty, or the single dot. -/
def isIdle (segment : List UInt8) : Bool :=
  segment == [] || segment == dot

/-- The number of leading segments that stay whatever is removed behind them: the empty one before
the first slash, or a dot at the start of a relative path. -/
def anchored (segments : List (List UInt8)) : Nat :=
  match segments with
  | [] :: _ :: _ => 1
  | first :: _ => if first == dot then 1 else 0
  | [] => 0

/-- The segments without idle ones at the end. -/
def dropIdle (keep : Nat) (segments : List (List UInt8)) : List (List UInt8) :=
  segments.take keep ++ ((segments.drop keep).reverse.dropWhile isIdle).reverse

/-- What is left of the segments when the idle ones are taken away that are not anchored. -/
def parts (p : Path) : List (List UInt8) :=
  let segments := p.segments
  let keep := anchored segments
  segments.take keep ++ (segments.drop keep).filter fun s => !isIdle s

/-- Whether two paths differ in nothing but idle segments. -/
def sameAs (p q : Path) : Bool :=
  p.parts == q.parts

/-- The path of the directory that holds the last segment that is not idle. The root has none, and
neither has the empty path. -/
def parent? (p : Path) : Option Path :=
  let segments := p.segments
  let keep := anchored segments
  match ((segments.drop keep).reverse.dropWhile isIdle) with
  | [] => if segments.head? == some dot then some ⟨[]⟩ else none
  | _ :: rest =>
    let above := dropIdle keep (segments.take keep ++ rest.reverse)
    if above = [[]] then some ⟨[slash]⟩ else some ⟨Text.join slash above⟩

/-- The path and up to `n` directories above it, the innermost first. -/
def upwardTo (n : Nat) (p : Path) : List Path :=
  match n, p.parent? with
  | n + 1, some above => p :: upwardTo n above
  | _, _ => [p]

/-- The path and all directories above it, the innermost first; each is shorter than the one before
it. -/
def upward (p : Path) : List Path :=
  p.upwardTo p.size

end Path

end RenderBroker

import RenderBroker.Fault
import RenderBroker.Json.Token
import RenderBroker.Text.Decimal

/-!
# Failures

A failure is a cause and the attempts it happened in, the outermost first. It is shown on one line,
or as a report with the chain of causes below the first message.
-/

namespace RenderBroker

inductive Cause where
  /-- A rule of this program was broken. -/
  | rejected (text : String)
  | numeral (e : Text.NumeralError)
  | fault (f : Fault) (text : String)
  | json (p : Json.Problem)
  deriving DecidableEq, Repr

/-- The text of a cause; what is wrong with a JSON document is not told. -/
def Cause.text? : Cause → Option String
  | .rejected text => some text
  | .numeral e => some e.message
  | .fault _ text => some text
  | .json _ => none

structure Failure where
  attempts : List String
  cause : Cause
  deriving DecidableEq, Repr

namespace Failure

def rejected (text : String) : Failure :=
  ⟨[], .rejected text⟩

def numeral (attempt : String) (e : Text.NumeralError) : Failure :=
  ⟨[attempt], .numeral e⟩

def file (attempt : String) (f : Fault) : Failure :=
  ⟨[attempt], .fault f f.numberedText⟩

def within (attempt : String) (f : Failure) : Failure :=
  { f with attempts := attempt :: f.attempts }

def messages (f : Failure) : List String :=
  f.attempts ++ f.cause.text?.toList

def message (f : Failure) : String :=
  ": ".intercalate f.messages

/-- A number at the right edge of a column that is five wide. -/
def inColumn (n : Nat) : List Char :=
  let ds := Text.digits 8 n
  List.replicate (5 - ds.length) ' ' ++ ds

def indentLines (margin : List Char) : List Char → List Char
  | [] => []
  | c :: s => if c = '\n' then c :: margin ++ indentLines margin s else c :: indentLines margin s

/-- A line of the chain of causes, numbered if there is more than one. -/
def causeLine (number : Option Nat) (message : String) : String :=
  match number with
  | none => String.ofList ("    ".toList ++ indentLines "    ".toList message.toList)
  | some n =>
    String.ofList (inColumn n ++ [':', ' '] ++ indentLines "       ".toList message.toList)

/-- The first message, and the chain of causes below it. -/
def report (f : Failure) : String :=
  match f.messages with
  | [] => ""
  | [message] => message
  | [message, cause] => message ++ "\n\nCaused by:\n" ++ causeLine none cause
  | message :: causes =>
    message ++ "\n\nCaused by:\n"
      ++ "\n".intercalate (causes.zipIdx.map fun c => causeLine (some c.2) c.1)

end Failure

end RenderBroker

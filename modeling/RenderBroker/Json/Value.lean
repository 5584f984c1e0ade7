import RenderBroker.Json.Token

/-!
# JSON values and their written forms

A value is written compactly, with nothing between its tokens, or spread over lines. Object members
keep the order they are given in.
-/

namespace RenderBroker.Json

inductive Value where
  | null
  | bool (b : Bool)
  | number (n : Number)
  | string (s : List Char)
  | list (items : List Value)
  | object (members : List (List Char × Value))

def Number.ofNat (n : Nat) : Number :=
  ⟨false, Text.digits 8 n, none, none⟩

def Value.natural (n : Nat) : Value :=
  .number (.ofNat n)

def Value.text (s : String) : Value :=
  .string s.toList

def escapeLetter? (c : Char) : Option Char :=
  if c = '"' then some '"'
  else if c = '\\' then some '\\'
  else if c = '\x08' then some 'b'
  else if c = '\x0C' then some 'f'
  else if c = '\n' then some 'n'
  else if c = '\r' then some 'r'
  else if c = '\t' then some 't'
  else none

/-- A character inside a string: control characters are escaped, and all others but the quote and
the backslash stand for themselves. -/
def encodeChar (c : Char) : List Char :=
  match escapeLetter? c with
  | some e => ['\\', e]
  | none =>
    if c.toNat < 0x20 then
      ['\\', 'u', '0', '0', Text.digitChar (c.toNat / 16), Text.digitChar (c.toNat % 16)]
    else [c]

def encodeString (s : List Char) : List Char :=
  '"' :: s.flatMap encodeChar ++ ['"']

def Number.written (n : Number) : List Char :=
  (if n.negative then ['-'] else []) ++ n.whole
    ++ (match n.fraction with | none => [] | some ds => '.' :: ds)
    ++ match n.exponent with
      | none => []
      | some (true, ds) => 'e' :: '-' :: ds
      | some (false, ds) => 'e' :: ds

def Value.atom : Value → List Char
  | .null => Word.null.letters
  | .bool true => Word.true.letters
  | .bool false => Word.false.letters
  | .number n => n.written
  | .string s => encodeString s
  | .list _ => ['[', ']']
  | .object _ => ['\x7b', '\x7d']

mutual

def Value.compact : Value → List Char
  | .list items => '[' :: compactItems items ++ [']']
  | .object members => '\x7b' :: compactMembers members ++ ['\x7d']
  | .null => Value.atom .null
  | .bool b => Value.atom (.bool b)
  | .number n => Value.atom (.number n)
  | .string s => Value.atom (.string s)

def compactItems : List Value → List Char
  | [] => []
  | [v] => v.compact
  | v :: w :: vs => v.compact ++ ',' :: compactItems (w :: vs)

def compactMembers : List (List Char × Value) → List Char
  | [] => []
  | [(k, v)] => encodeString k ++ ':' :: v.compact
  | (k, v) :: m :: ms => encodeString k ++ ':' :: v.compact ++ ',' :: compactMembers (m :: ms)

end

/-- The start of a line at a depth, two blanks for each level. -/
def newLine (depth : Nat) : List Char :=
  '\n' :: List.replicate (2 * depth) ' '

mutual

def Value.spread (depth : Nat) : Value → List Char
  | .list [] => ['[', ']']
  | .list (v :: vs) => '[' :: spreadItems (depth + 1) (v :: vs) ++ newLine depth ++ [']']
  | .object [] => ['\x7b', '\x7d']
  | .object (m :: ms) =>
    '\x7b' :: spreadMembers (depth + 1) (m :: ms) ++ newLine depth ++ ['\x7d']
  | .null => Value.atom .null
  | .bool b => Value.atom (.bool b)
  | .number n => Value.atom (.number n)
  | .string s => Value.atom (.string s)

def spreadItems (depth : Nat) : List Value → List Char
  | [] => []
  | [v] => newLine depth ++ v.spread depth
  | v :: w :: vs => newLine depth ++ v.spread depth ++ ',' :: spreadItems depth (w :: vs)

def spreadMembers (depth : Nat) : List (List Char × Value) → List Char
  | [] => []
  | [(k, v)] => newLine depth ++ encodeString k ++ ':' :: ' ' :: v.spread depth
  | (k, v) :: m :: ms =>
    newLine depth ++ encodeString k ++ ':' :: ' ' :: v.spread depth
      ++ ',' :: spreadMembers depth (m :: ms)

end

def Value.compactText (v : Value) : String :=
  String.ofList v.compact

def Value.spreadText (v : Value) : String :=
  String.ofList (v.spread 0)

end RenderBroker.Json

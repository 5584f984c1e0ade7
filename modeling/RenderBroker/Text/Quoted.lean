import RenderBroker.Text.Decimal
import RenderBroker.Text.Hidden
import RenderBroker.Text.Utf8

/-!
# Quoted text

Text in double quotes, as it stands in the shown form of a value. The double quote, the backslash
and hidden characters are escaped, so that the shown form stays on one line and can be told from the
text around it.
-/

namespace RenderBroker.Text

/-- The letter of the one-letter escape for a character that has one. -/
def shortEscape? (c : Char) : Option Char :=
  if c = '"' then some '"'
  else if c = '\x00' then some '0'
  else if c = '\t' then some 't'
  else if c = '\r' then some 'r'
  else if c = '\n' then some 'n'
  else if c = '\\' then some '\\'
  else none

def quoteChar (c : Char) : List Char :=
  match shortEscape? c with
  | some e => ['\\', e]
  | none => if isHidden c then ['\\', 'u', '{'] ++ digits 14 c.toNat ++ ['}'] else [c]

def quoted (s : String) : String :=
  String.ofList ('"' :: s.toList.flatMap quoteChar ++ ['"'])

/-- A byte in hexadecimal, with two digits in upper case. -/
def escapeByte (b : UInt8) : List Char :=
  ['\\', 'x'] ++ [b.toNat / 16, b.toNat % 16].map fun n => (digitChar n).toUpper

/-- A piece of a byte sequence between quotes; bytes that are no text are escaped. -/
def quotePiece : Utf8.Piece → List Char
  | .char c => quoteChar c
  | .broken bytes => bytes.flatMap escapeByte

def quotedBytes (bytes : List UInt8) : String :=
  String.ofList ('"' :: (Utf8.pieces bytes).flatMap quotePiece ++ ['"'])

end RenderBroker.Text

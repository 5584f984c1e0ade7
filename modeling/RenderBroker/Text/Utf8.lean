/-!
# UTF-8

A byte sequence is cut into characters and broken pieces. Within a character the reader knows how
many bytes are owed and between which bounds the next one must lie, so it gives up at the first byte
that no character can hold there, and the bytes up to it form one broken piece.
-/

namespace RenderBroker.Text

def encodeUtf8 (s : List Char) : List UInt8 :=
  s.flatMap String.utf8EncodeChar

def utf8 (s : String) : List UInt8 :=
  encodeUtf8 s.toList

namespace Utf8

inductive Piece where
  | char (c : Char)
  | broken (bytes : List UInt8)
  deriving DecidableEq

/-- A character that has begun: its bytes so far, the latest first, the bits they carry, the number
of bytes owed, and the bounds of the next one. -/
structure Partial where
  taken : List UInt8
  bits : Nat
  owed : Nat
  low : UInt8 := 0x80
  high : UInt8 := 0xBF

/-- What a byte begins: a whole character, a character that owes bytes, or nothing. -/
inductive Start where
  | whole (c : Char)
  | owing (p : Partial)
  | nothing

def start (b : UInt8) : Start :=
  if b ≤ 0x7F then .whole (Char.ofNat b.toNat)
  else if b < 0xC2 then .nothing
  else if b ≤ 0xDF then .owing { taken := [b], bits := b.toNat - 0xC0, owed := 1 }
  else if b = 0xE0 then .owing { taken := [b], bits := 0, owed := 2, low := 0xA0 }
  else if b = 0xED then .owing { taken := [b], bits := 0xD, owed := 2, high := 0x9F }
  else if b ≤ 0xEF then .owing { taken := [b], bits := b.toNat - 0xE0, owed := 2 }
  else if b = 0xF0 then .owing { taken := [b], bits := 0, owed := 3, low := 0x90 }
  else if b ≤ 0xF3 then .owing { taken := [b], bits := b.toNat - 0xF0, owed := 3 }
  else if b = 0xF4 then .owing { taken := [b], bits := 4, owed := 3, high := 0x8F }
  else .nothing

def Partial.broken (p : Partial) : Piece :=
  .broken p.taken.reverse

def Partial.extend (p : Partial) (b : UInt8) : Partial :=
  { taken := b :: p.taken, bits := p.bits * 64 + (b.toNat - 0x80), owed := p.owed - 1 }

/-- The pieces of the bytes that follow a character that may have begun. -/
def piecesAfter : Option Partial → List UInt8 → List Piece
  | none, [] => []
  | some p, [] => [p.broken]
  | none, b :: s =>
    match start b with
    | .whole c => .char c :: piecesAfter none s
    | .owing p => piecesAfter (some p) s
    | .nothing => .broken [b] :: piecesAfter none s
  | some p, b :: s =>
    if p.low ≤ b ∧ b ≤ p.high then
      let q := p.extend b
      if q.owed = 0 then .char (Char.ofNat q.bits) :: piecesAfter none s
      else piecesAfter (some q) s
    else
      match start b with
      | .whole c => p.broken :: .char c :: piecesAfter none s
      | .owing q => p.broken :: piecesAfter (some q) s
      | .nothing => p.broken :: .broken [b] :: piecesAfter none s

def pieces (s : List UInt8) : List Piece :=
  piecesAfter none s

/-- The characters of the pieces, if none is broken. -/
def wholeText : List Piece → Option (List Char)
  | [] => some []
  | .char c :: ps => (wholeText ps).map (c :: ·)
  | .broken _ :: _ => none

/-- A broken piece is shown as the replacement character. -/
def Piece.shown : Piece → Char
  | .char c => c
  | .broken _ => '\uFFFD'

end Utf8

/-- The text that the bytes encode, if they encode one. -/
def decodeUtf8? (s : List UInt8) : Option (List Char) :=
  Utf8.wholeText (Utf8.pieces s)

/-- The text that the bytes encode, with the replacement character for every broken piece. -/
def showUtf8 (s : List UInt8) : String :=
  String.ofList ((Utf8.pieces s).map Utf8.Piece.shown)

end RenderBroker.Text

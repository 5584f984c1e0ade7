import RenderBroker.Text.Decimal

/-!
# JSON tokens

A document is cut into tokens before it is read. A token keeps its own problems, because a reader
that stops earlier never meets them: `lex` never fails, and the token list of a broken document ends
with the broken token. Strings and numbers carry two verdicts. The strict one is for a value that is
wanted, the loose one for a value that is skipped.
-/

namespace RenderBroker.Json

/-- Why a document is refused: its text is malformed, a value does not fit what is wanted there, or
the input ended early. -/
inductive Problem where
  | malformed
  | mismatch
  | ended
  deriving DecidableEq, Repr

inductive Word where
  | null
  | true
  | false
  deriving DecidableEq, Repr

def Word.letters : Word → List Char
  | .null => ['n', 'u', 'l', 'l']
  | .true => ['t', 'r', 'u', 'e']
  | .false => ['f', 'a', 'l', 's', 'e']

structure Number where
  negative : Bool
  whole : List Char
  fraction : Option (List Char)
  exponent : Option (Bool × List Char)
  deriving DecidableEq, Repr

/-- A token with the problems it would cause. -/
inductive Token where
  | openBracket
  | closeBracket
  | openBrace
  | closeBrace
  | colon
  | comma
  | word (w : Word) (verdict : Except Problem Unit)
  | number (strict : Except Problem Number) (loose : Except Problem Unit)
  | string (strict : Except Problem (List Char)) (loose : Except Problem Unit)
  | stray (c : Char)

/-- A unit of a string: a character, or the 16 bits of a numeric escape. -/
inductive Piece where
  | char (c : Char)
  | unit (n : Nat)
  deriving DecidableEq

def hexValue? (c : Char) : Option Nat :=
  let n := c.toNat
  if 48 ≤ n ∧ n ≤ 57 then some (n - 48)
  else if 97 ≤ n ∧ n ≤ 102 then some (n - 87)
  else if 65 ≤ n ∧ n ≤ 70 then some (n - 55)
  else none

def hexValue4? (a b c d : Char) : Option Nat := do
  let a ← hexValue? a
  let b ← hexValue? b
  let c ← hexValue? c
  let d ← hexValue? d
  return ((a * 16 + b) * 16 + c) * 16 + d

def escaped? : Char → Option Char
  | '"' => some '"'
  | '\\' => some '\\'
  | '/' => some '/'
  | 'b' => some '\x08'
  | 'f' => some '\x0C'
  | 'n' => some '\n'
  | 'r' => some '\r'
  | 't' => some '\t'
  | _ => none

/-- A numeric escape that is not four digits has ended early only if fewer than four bytes
follow. -/
def brokenUnit (s : List Char) : Problem :=
  if s.foldl (fun n c => n + c.utf8Size) 0 < 4 then .ended else .malformed

def withPiece (p : Piece) (r : List Piece × Except Problem (List Char)) :
    List Piece × Except Problem (List Char) :=
  (p :: r.1, r.2)

/-- The pieces of a string body, and the text behind its closing quote or the problem met. -/
def scanBody : List Char → List Piece × Except Problem (List Char)
  | [] => ([], .error .ended)
  | '"' :: s => ([], .ok s)
  | '\\' :: [] => ([], .error .ended)
  | '\\' :: 'u' :: a :: b :: c :: d :: s =>
    match hexValue4? a b c d with
    | some n => withPiece (.unit n) (scanBody s)
    | none => ([], .error .malformed)
  | '\\' :: 'u' :: s => ([], .error (brokenUnit s))
  | '\\' :: e :: s =>
    match escaped? e with
    | some c => withPiece (.char c) (scanBody s)
    | none => ([], .error .malformed)
  | c :: s => if c.toNat < 0x20 then ([], .error .malformed) else withPiece (.char c) (scanBody s)

def isLead (n : Nat) : Bool := 0xD800 ≤ n && n ≤ 0xDBFF

def isTrail (n : Nat) : Bool := 0xDC00 ≤ n && n ≤ 0xDFFF

/-- The characters of the pieces, unless half of a surrogate pair stands alone. -/
def joinPieces : List Piece → Option (List Char)
  | [] => some []
  | .char c :: ps => (joinPieces ps).map (c :: ·)
  | .unit n :: .unit m :: ps =>
    if isLead n then
      if isTrail m then
        (joinPieces ps).map (Char.ofNat (0x10000 + (n - 0xD800) * 0x400 + (m - 0xDC00)) :: ·)
      else none
    else if isTrail n then none
    else (joinPieces (.unit m :: ps)).map (Char.ofNat n :: ·)
  | .unit n :: ps =>
    if isLead n || isTrail n then none else (joinPieces ps).map (Char.ofNat n :: ·)

/-- The pieces without a first half of a pair at their end, whose other half may still follow. -/
def settled (ps : List Piece) : List Piece :=
  match ps.getLast? with
  | some (.unit n) => if isLead n then ps.dropLast else ps
  | _ => ps

/-- The strict verdict on scanned pieces: the first problem of the scan or of the pairs. -/
def strictText (ps : List Piece) (rest : Except Problem (List Char)) : Except Problem (List Char) :=
  match rest with
  | .ok _ =>
    match joinPieces ps with
    | some s => .ok s
    | none => .error .malformed
  | .error p => if (joinPieces (settled ps)).isSome then .error p else .error .malformed

def lexString (s : List Char) : Token × List Char :=
  match scanBody s with
  | (ps, .ok rest) => (.string (strictText ps (.ok rest)) (.ok ()), rest)
  | (ps, .error p) => (.string (strictText ps (.error p)) (.error p), [])

def leadingDigits (s : List Char) : List Char :=
  s.takeWhile Char.isDigit

def afterDigits (s : List Char) : List Char :=
  s.dropWhile Char.isDigit

def noDigit (s : List Char) : Problem :=
  if s.isEmpty then .ended else .malformed

/-- The digits behind the point or the exponent mark, at least one. -/
def someDigits (s : List Char) : Except Problem (List Char × List Char) :=
  if (leadingDigits s).isEmpty then .error (noDigit s) else .ok (leadingDigits s, afterDigits s)

def exponentSign : List Char → Bool × List Char
  | '-' :: s => (true, s)
  | '+' :: s => (false, s)
  | s => (false, s)

def lexExponent : List Char → Except Problem (Option (Bool × List Char) × List Char)
  | [] => .ok (none, [])
  | c :: s =>
    if c = 'e' ∨ c = 'E' then
      (someDigits (exponentSign s).2).map fun r => (some ((exponentSign s).1, r.1), r.2)
    else .ok (none, c :: s)

def lexFraction : List Char → Except Problem (Option (List Char) × List Char)
  | '.' :: s => (someDigits s).map fun r => (some r.1, r.2)
  | s => .ok (none, s)

/-- The digits before the point: no zero stands in front of another digit. -/
def lexWhole (s : List Char) : Except Problem (List Char × List Char) :=
  match leadingDigits s with
  | [] => .error (noDigit s)
  | '0' :: _ :: _ => .error .malformed
  | ds => .ok (ds, afterDigits s)

/-- The number behind an optional minus sign. -/
def lexUnsigned (negative : Bool) (s : List Char) : Except Problem (Number × List Char) := do
  let (whole, s) ← lexWhole s
  let (fraction, s) ← lexFraction s
  let (exponent, s) ← lexExponent s
  return (⟨negative, whole, fraction, exponent⟩, s)

/-- A decimal significand that fits 64 bits, and the power of ten it is multiplied with. -/
structure Scaled where
  significand : Nat
  power : Int

def maxSignificand : Nat := UInt64.size - 1

/-- Digits before the point that no longer fit only raise the power. -/
def scaleWhole (n : Scaled) : List Char → Scaled
  | [] => n
  | c :: s =>
    let value := n.significand * 10 + (c.toNat - 48)
    if value ≤ maxSignificand then scaleWhole { n with significand := value } s
    else { n with power := n.power + (s.length + 1) }

/-- Digits behind the point count until one no longer fits. -/
def scaleFraction (n : Scaled) : List Char → Scaled
  | [] => n
  | c :: s =>
    let value := n.significand * 10 + (c.toNat - 48)
    if value ≤ maxSignificand then
      scaleFraction { significand := value, power := n.power - 1 } s
    else n

def bitLength (n : Nat) : Nat :=
  if n = 0 then 0 else n.log2 + 1

/-- The nearest number with 53 significant bits, a tie going to the even one. -/
def nearestBinary (n : Nat) : Nat :=
  let drop := bitLength n - 53
  let unit := Nat.pow 2 drop
  let low := n / unit
  let rest := n % unit
  if 2 * rest > unit ∨ (2 * rest = unit ∧ low % 2 = 1) then (low + 1) * unit else low * unit

/-- The least product that rounds past the largest finite double. -/
def overflowBound : Nat := Nat.pow 2 1024 - Nat.pow 2 970

namespace Number

def scaled (n : Number) : Scaled :=
  let whole := scaleWhole ⟨0, 0⟩ n.whole
  let fraction := scaleFraction whole (n.fraction.getD [])
  match n.exponent with
  | none => fraction
  | some (true, ds) => { fraction with power := fraction.power - Text.valueOfDigits 0 ds }
  | some (false, ds) => { fraction with power := fraction.power + Text.valueOfDigits 0 ds }

/-- A number is too large if it rounds past the largest finite double. -/
def isTooLarge (n : Number) : Bool :=
  let s := n.scaled
  if s.significand = 0 ∨ s.power < 0 then false
  else if s.power > 308 then true
  else overflowBound ≤ nearestBinary s.significand * nearestBinary (Nat.pow 10 s.power.toNat)

/-- The natural number up to 64 bits that is written without sign, point and exponent. -/
def natural? (n : Number) : Option Nat :=
  if n.negative ∨ n.fraction.isSome ∨ n.exponent.isSome then none
  else
    let value := Text.valueOfDigits 0 n.whole
    if value ≤ maxSignificand then some value else none

end Number

def lexNumber (negative : Bool) (s : List Char) : Token × List Char :=
  match lexUnsigned negative s with
  | .ok (n, rest) => (.number (if n.isTooLarge then .error .malformed else .ok n) (.ok ()), rest)
  | .error p => (.number (.error p) (.error .malformed), [])

/-- The text behind the letters, if it starts with them. -/
def afterLetters : List Char → List Char → Except Problem (List Char)
  | [], s => .ok s
  | _ :: _, [] => .error .ended
  | c :: cs, d :: s => if c = d then afterLetters cs s else .error .malformed

def lexWord (w : Word) (s : List Char) : Token × List Char :=
  match afterLetters w.letters.tail s with
  | .ok rest => (.word w (.ok ()), rest)
  | .error p => (.word w (.error p), [])

def isBlank (c : Char) : Bool :=
  c == ' ' || c == '\n' || c == '\t' || c == '\r'

def lexFrom (c : Char) (s : List Char) : Token × List Char :=
  match c with
  | '[' => (.openBracket, s)
  | ']' => (.closeBracket, s)
  | '\x7b' => (.openBrace, s)
  | '\x7d' => (.closeBrace, s)
  | ':' => (.colon, s)
  | ',' => (.comma, s)
  | '"' => lexString s
  | '-' => lexNumber true s
  | 'n' => lexWord .null s
  | 't' => lexWord .true s
  | 'f' => lexWord .false s
  | c => if c.isDigit then lexNumber false (c :: s) else (.stray c, [])

theorem scanBody_le {s rest : List Char} {ps : List Piece} (h : scanBody s = (ps, .ok rest)) :
    rest.length ≤ s.length := by
  fun_induction scanBody s generalizing ps with
  | case1 => simp at h
  | case2 s => simp at h; simp [h.2]
  | case3 => simp at h
  | case4 a b c d s n _ ih =>
    simp only [withPiece, Prod.mk.injEq] at h
    have := ih (Prod.ext rfl h.2)
    simp only [List.length_cons]; omega
  | case5 => simp at h
  | case6 => simp at h
  | case7 e s _ _ c _ ih =>
    simp only [withPiece, Prod.mk.injEq] at h
    have := ih (Prod.ext rfl h.2)
    simp only [List.length_cons]; omega
  | case8 => simp at h
  | case9 => simp at h
  | case10 c s _ _ _ _ _ _ ih =>
    simp only [withPiece, Prod.mk.injEq] at h
    have := ih (Prod.ext rfl h.2)
    simp only [List.length_cons]; omega

theorem lexString_le (s : List Char) : (lexString s).2.length ≤ s.length := by
  rw [lexString]
  split
  next h => exact scanBody_le h
  next => simp

theorem afterDigits_le (s : List Char) : (afterDigits s).length ≤ s.length :=
  (List.dropWhile_sublist _).length_le

theorem someDigits_le {s ds rest : List Char} (h : someDigits s = .ok (ds, rest)) :
    rest.length ≤ s.length := by
  rw [someDigits] at h
  split at h
  · simp at h
  · simp only [Except.ok.injEq, Prod.mk.injEq] at h
    exact h.2 ▸ afterDigits_le s

theorem exponentSign_le (s : List Char) : (exponentSign s).2.length ≤ s.length := by
  unfold exponentSign
  split <;> simp

theorem lexExponent_le {s rest : List Char} {e : Option (Bool × List Char)}
    (h : lexExponent s = .ok (e, rest)) : rest.length ≤ s.length := by
  cases s with
  | nil =>
    simp only [lexExponent, Except.ok.injEq, Prod.mk.injEq] at h
    simp [← h.2]
  | cons c s =>
    simp only [lexExponent] at h
    split at h
    · cases hs : someDigits (exponentSign s).2 with
      | error p => simp [hs, Except.map] at h
      | ok r =>
        simp only [hs, Except.map, Except.ok.injEq, Prod.mk.injEq] at h
        have h1 := someDigits_le (show _ = Except.ok (r.1, r.2) from hs)
        have h2 := exponentSign_le s
        simp only [List.length_cons]
        rw [← h.2]
        omega
    · simp only [Except.ok.injEq, Prod.mk.injEq] at h
      simp [← h.2]

theorem lexFraction_le {s rest : List Char} {f : Option (List Char)}
    (h : lexFraction s = .ok (f, rest)) : rest.length ≤ s.length := by
  unfold lexFraction at h
  split at h
  · next s =>
    cases hs : someDigits s with
    | error p => simp [hs, Except.map] at h
    | ok r =>
      simp only [hs, Except.map, Except.ok.injEq, Prod.mk.injEq] at h
      have := someDigits_le (show _ = Except.ok (r.1, r.2) from hs)
      simp only [List.length_cons]
      rw [← h.2]
      omega
  · simp only [Except.ok.injEq, Prod.mk.injEq] at h
    simp [← h.2]

theorem lexWhole_lt {s ds rest : List Char} (h : lexWhole s = .ok (ds, rest)) :
    rest.length < s.length := by
  have split_eq : leadingDigits s ++ afterDigits s = s := List.takeWhile_append_dropWhile
  have nonempty : leadingDigits s ≠ [] ∧ afterDigits s = rest := by
    rw [lexWhole] at h
    split at h
    · simp at h
    · simp at h
    · next hne _ =>
      simp only [Except.ok.injEq, Prod.mk.injEq] at h
      exact ⟨hne, h.2⟩
  have := congrArg List.length split_eq
  have pos := List.length_pos_iff.2 nonempty.1
  simp only [List.length_append, nonempty.2] at this
  omega

theorem lexUnsigned_lt {negative : Bool} {s rest : List Char} {n : Number}
    (h : lexUnsigned negative s = .ok (n, rest)) : rest.length < s.length := by
  simp only [lexUnsigned, bind, Except.bind, pure, Except.pure] at h
  cases hw : lexWhole s with
  | error p => simp [hw] at h
  | ok w =>
    cases hf : lexFraction w.2 with
    | error p => simp [hw, hf] at h
    | ok f =>
      cases he : lexExponent f.2 with
      | error p => simp [hw, hf, he] at h
      | ok e =>
        simp only [hw, hf, he, Except.ok.injEq, Prod.mk.injEq] at h
        have h1 := lexWhole_lt (show _ = Except.ok (w.1, w.2) from hw)
        have h2 := lexFraction_le (show _ = Except.ok (f.1, f.2) from hf)
        have h3 := lexExponent_le (show _ = Except.ok (e.1, e.2) from he)
        rw [← h.2]
        omega

theorem lexNumber_lt (negative : Bool) (s : List Char) :
    (lexNumber negative s).2.length < s.length ∨ (lexNumber negative s).2 = [] := by
  rw [lexNumber]
  split
  next h => exact .inl (lexUnsigned_lt h)
  next => exact .inr rfl

theorem afterLetters_le {cs s rest : List Char} (h : afterLetters cs s = .ok rest) :
    rest.length ≤ s.length := by
  induction cs generalizing s with
  | nil => simp only [afterLetters, Except.ok.injEq] at h; simp [h]
  | cons c cs ih =>
    cases s with
    | nil => simp [afterLetters] at h
    | cons d s =>
      simp only [afterLetters] at h
      split at h
      · have := ih h
        simp only [List.length_cons]; omega
      · simp at h

theorem lexWord_le (w : Word) (s : List Char) : (lexWord w s).2.length ≤ s.length := by
  rw [lexWord]
  split
  next h => exact afterLetters_le h
  next => simp

theorem lexFrom_le (c : Char) (s : List Char) : (lexFrom c s).2.length ≤ s.length := by
  unfold lexFrom
  split
  case h_7 => exact lexString_le s
  case h_8 =>
    rcases lexNumber_lt true s with h | h
    · exact Nat.le_of_lt h
    · simp [h]
  case h_9 | h_10 | h_11 => exact lexWord_le _ s
  case h_12 =>
    split
    · rcases lexNumber_lt false (c :: s) with h | h
      · simp only [List.length_cons] at h; omega
      · simp [h]
    · simp
  all_goals exact Nat.le_refl _

def lex : List Char → List Token
  | [] => []
  | c :: s =>
    if isBlank c then lex s
    else
      have := lexFrom_le c s
      (lexFrom c s).1 :: lex (lexFrom c s).2
termination_by s => s.length

end RenderBroker.Json

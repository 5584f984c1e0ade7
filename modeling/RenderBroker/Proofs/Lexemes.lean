import Mathlib.Data.List.TakeWhile
import RenderBroker.Proofs.Tokens

namespace RenderBroker

namespace Json

def escapes : List (Char × Char) :=
  [('"', '"'), ('\\', '\\'), ('/', '/'), ('b', '\x08'), ('f', '\x0C'), ('n', '\n'), ('r', '\r'),
    ('t', '\t')]

def HexDigit (c : Char) (n : Nat) : Prop :=
  n < 16 ∧ (c = Text.digitChar n ∨ c = (Text.digitChar n).toUpper)

/-- The ways to write a piece of a string. -/
inductive Piece.Spelled : Piece → List Char → Prop
  | plain {c : Char} (quote : c ≠ '"') (backslash : c ≠ '\\') (control : 0x20 ≤ c.toNat) :
      Spelled (.char c) [c]
  | escape {e c : Char} (stands : (e, c) ∈ escapes) : Spelled (.char c) ['\\', e]
  | unit {a b c d : Char} {k l m n : Nat} (first : HexDigit a k) (second : HexDigit b l)
      (third : HexDigit c m) (fourth : HexDigit d n) :
      Spelled (.unit (((k * 16 + l) * 16 + m) * 16 + n)) ['\\', 'u', a, b, c, d]

inductive Body : List Piece → List Char → Prop
  | nil : Body [] []
  | cons {p : Piece} {ps : List Piece} {s t : List Char} (first : p.Spelled s) (rest : Body ps t) :
      Body (p :: ps) (s ++ t)

/-- The characters that pieces stand for. The halves of a surrogate pair stand for one character
together, and for none alone. -/
inductive StandFor : List Piece → List Char → Prop
  | nil : StandFor [] []
  | char (c : Char) {ps : List Piece} {t : List Char} (rest : StandFor ps t) :
      StandFor (.char c :: ps) (c :: t)
  | unit {n : Nat} {ps : List Piece} {t : List Char} (whole : n < 0xD800 ∨ 0xDFFF < n)
      (rest : StandFor ps t) : StandFor (.unit n :: ps) (Char.ofNat n :: t)
  | pair {m n : Nat} {ps : List Piece} {t : List Char} (lead : 0xD800 ≤ m ∧ m ≤ 0xDBFF)
      (trail : 0xDC00 ≤ n ∧ n ≤ 0xDFFF) (rest : StandFor ps t) :
      StandFor (.unit m :: .unit n :: ps)
        (Char.ofNat (0x10000 + (m - 0xD800) * 0x400 + (n - 0xDC00)) :: t)

theorem hexValue?_of_hexDigit {c : Char} {n : Nat} (digit : HexDigit c n) :
    hexValue? c = some n := by
  have all : ∀ n < 16, hexValue? (Text.digitChar n) = some n ∧
      hexValue? (Text.digitChar n).toUpper = some n := by decide
  obtain ⟨small, capital⟩ := all n digit.1
  rcases digit.2 with rfl | rfl
  · exact small
  · exact capital

theorem hexValue4?_of_hexDigits {a b c d : Char} {k l m n : Nat} (first : HexDigit a k)
    (second : HexDigit b l) (third : HexDigit c m) (fourth : HexDigit d n) :
    hexValue4? a b c d = some (((k * 16 + l) * 16 + m) * 16 + n) := by
  rw [hexValue4?, hexValue?_of_hexDigit first, hexValue?_of_hexDigit second,
    hexValue?_of_hexDigit third, hexValue?_of_hexDigit fourth]
  rfl

theorem scanBody_spelled {p : Piece} {s : List Char} (spelled : p.Spelled s) (rest : List Char) :
    scanBody (s ++ rest) = withPiece p (scanBody rest) := by
  cases spelled with
  | @plain c _ backslash control =>
    have visible : ¬ c.toNat < 0x20 := Nat.not_lt.mpr control
    simp [scanBody, backslash, visible]
  | @escape e c stands =>
    have all : ∀ m ∈ escapes, escaped? m.1 = some m.2 ∧ m.1 ≠ 'u' := by decide
    obtain ⟨letter, other⟩ := all (e, c) stands
    simp [scanBody, letter, other]
  | unit first second third fourth =>
    simp only [List.cons_append, List.nil_append, scanBody,
      hexValue4?_of_hexDigits first second third fourth]

theorem scanBody_body {ps : List Piece} {s : List Char} (body : Body ps s) (rest : List Char) :
    scanBody (s ++ '"' :: rest) = (ps, .ok rest) := by
  induction body with
  | nil => rfl
  | cons first _ ih =>
    rw [List.append_assoc, scanBody_spelled first, ih]
    rfl

theorem joinPieces_eq_some_iff {ps : List Piece} {t : List Char} :
    joinPieces ps = some t ↔ StandFor ps t := by
  constructor
  · intro joined
    fun_induction joinPieces ps generalizing t with
    | case1 =>
      cases joined
      exact .nil
    | case2 c ps ih =>
      obtain ⟨u, rest, rfl⟩ := Option.map_eq_some_iff.mp joined
      exact .char c (ih rest)
    | case3 n m ps lead trail ih =>
      obtain ⟨u, rest, rfl⟩ := Option.map_eq_some_iff.mp joined
      simp only [isLead, isTrail, Bool.and_eq_true, decide_eq_true_eq] at lead trail
      exact .pair lead trail (ih rest)
    | case4 => cases joined
    | case5 => cases joined
    | case6 n m ps lead trail ih =>
      obtain ⟨u, rest, rfl⟩ := Option.map_eq_some_iff.mp joined
      simp [isLead, isTrail] at lead trail
      exact .unit (by omega) (ih rest)
    | case7 => cases joined
    | case8 n ps _ alone ih =>
      obtain ⟨u, rest, rfl⟩ := Option.map_eq_some_iff.mp joined
      simp [isLead, isTrail] at alone
      exact .unit (by omega) (ih rest)
  · intro stands
    induction stands with
    | nil => rfl
    | char c _ ih => rw [joinPieces, ih]; rfl
    | unit whole _ ih => rw [joinPieces_unit whole, ih]; rfl
    | pair lead trail _ ih =>
      simp [joinPieces, isLead, isTrail, lead, trail, ih]

theorem standFor_chars (t : List Char) : StandFor (t.map .char) t := by
  induction t with
  | nil => exact .nil
  | cons c t ih => exact .char c ih

def Digits (s : List Char) : Prop :=
  s ≠ [] ∧ ∀ c ∈ s, c.isDigit = true

inductive Fraction : Option (List Char) → List Char → Prop
  | none : Fraction none []
  | some {ds : List Char} (digits : Digits ds) : Fraction (some ds) ('.' :: ds)

/-- The ways to write an exponent, if there is one: its mark is small or capital, and only a minus
sign counts. -/
inductive Exponent : Option (Bool × List Char) → List Char → Prop
  | none : Exponent none []
  | plain {e : Char} {ds : List Char} (mark : e = 'e' ∨ e = 'E') (digits : Digits ds) :
      Exponent (some (false, ds)) (e :: ds)
  | plus {e : Char} {ds : List Char} (mark : e = 'e' ∨ e = 'E') (digits : Digits ds) :
      Exponent (some (false, ds)) (e :: '+' :: ds)
  | minus {e : Char} {ds : List Char} (mark : e = 'e' ∨ e = 'E') (digits : Digits ds) :
      Exponent (some (true, ds)) (e :: '-' :: ds)

inductive Number.Spelled (n : Number) : List Char → Prop
  | mk {fraction exponent : List Char} (whole : Digits n.whole)
      (zero : n.whole.head? = some '0' → n.whole = ['0']) (behind : Fraction n.fraction fraction)
      (scale : Exponent n.exponent exponent) :
      n.Spelled ((if n.negative then ['-'] else []) ++ (n.whole ++ (fraction ++ exponent)))

/-- A text that does not go on with the number before it. -/
def Apart (s : List Char) : Prop :=
  ∀ c ∈ s.head?, c.isDigit = false ∧ c ∉ ['.', 'e', 'E']

variable {s rest : List Char}

theorem someDigits_append {ds : List Char} (digits : Digits ds)
    (stops : ∀ c ∈ rest.head?, c.isDigit = false) : someDigits (ds ++ rest) = .ok (ds, rest) := by
  obtain ⟨leading, after⟩ := takeWhile_digits digits.2 stops
  rw [someDigits, leading, after, if_neg (by simp [digits.1])]

theorem exponentSign_of_digits {ds : List Char} (digits : Digits ds) :
    exponentSign (ds ++ rest) = (false, ds ++ rest) := by
  obtain ⟨c, ds, rfl⟩ := List.exists_cons_of_ne_nil digits.1
  have digit := digits.2 c (.head ds)
  rw [List.cons_append, exponentSign]
  · rintro _ ⟨⟩
    cases digit
  · rintro _ ⟨⟩
    cases digit

theorem lexExponent_append {e : Option (Bool × List Char)} (exponent : Exponent e s)
    (apart : Apart rest) : lexExponent (s ++ rest) = .ok (e, rest) := by
  have stops : ∀ c ∈ rest.head?, c.isDigit = false := fun c first => (apart c first).1
  cases exponent with
  | none =>
    cases rest with
    | nil => rfl
    | cons c rest =>
      have other := (apart c rfl).2
      simp only [List.mem_cons, List.not_mem_nil, or_false, not_or] at other
      rw [List.nil_append, lexExponent, if_neg (by simp [other])]
  | plain mark digits =>
    rw [List.cons_append, lexExponent, if_pos mark, exponentSign_of_digits digits,
      someDigits_append digits stops]
    rfl
  | plus mark digits | minus mark digits =>
    rw [List.cons_append, lexExponent, if_pos mark, List.cons_append, exponentSign,
      someDigits_append digits stops]
    rfl

theorem head?_exponent {e : Option (Bool × List Char)} (exponent : Exponent e s)
    (apart : Apart rest) : ∀ c ∈ (s ++ rest).head?, c.isDigit = false ∧ c ≠ '.' := by
  intro c first
  cases exponent with
  | none =>
    obtain ⟨digit, other⟩ := apart c first
    exact ⟨digit, fun point => other (by simp [point])⟩
  | plain mark | plus mark | minus mark =>
    obtain rfl := Option.some.inj first
    rcases mark with rfl | rfl <;> decide

theorem lexFraction_append {f : Option (List Char)} (fraction : Fraction f s)
    (stops : ∀ c ∈ rest.head?, c.isDigit = false ∧ c ≠ '.') :
    lexFraction (s ++ rest) = .ok (f, rest) := by
  cases fraction with
  | none =>
    rw [List.nil_append]
    unfold lexFraction
    split
    next => exact absurd rfl (stops '.' rfl).2
    next => rfl
  | some digits =>
    rw [List.cons_append, lexFraction, someDigits_append digits fun c first => (stops c first).1]
    rfl

theorem head?_fraction {f : Option (List Char)} (fraction : Fraction f s)
    (stops : ∀ c ∈ rest.head?, c.isDigit = false ∧ c ≠ '.') :
    ∀ c ∈ (s ++ rest).head?, c.isDigit = false := by
  intro c first
  cases fraction with
  | none => exact (stops c first).1
  | some digits =>
    obtain rfl := Option.some.inj first
    rfl

theorem lexUnsigned_append {n : Number} {fraction exponent : List Char} (whole : Digits n.whole)
    (zero : n.whole.head? = some '0' → n.whole = ['0']) (behind : Fraction n.fraction fraction)
    (scale : Exponent n.exponent exponent) (apart : Apart rest) :
    lexUnsigned n.negative (n.whole ++ (fraction ++ exponent) ++ rest) = .ok (n, rest) := by
  have stops := head?_exponent scale apart
  have digits := lexWhole_append whole.1 whole.2 zero (head?_fraction behind stops)
  rw [List.append_assoc, List.append_assoc, lexUnsigned, digits]
  simp only [lexFraction_append behind stops, lexExponent_append scale apart, bind, Except.bind,
    pure, Except.pure]

theorem lexNumber_append {n : Number} {fraction exponent : List Char} (whole : Digits n.whole)
    (zero : n.whole.head? = some '0' → n.whole = ['0']) (behind : Fraction n.fraction fraction)
    (scale : Exponent n.exponent exponent) (apart : Apart rest) :
    lexNumber n.negative (n.whole ++ (fraction ++ exponent) ++ rest) =
      (.number (if n.isTooLarge then .error .malformed else .ok n) (.ok ()), rest) := by
  rw [lexNumber, lexUnsigned_append whole zero behind scale apart]

inductive Lexeme where
  | openBracket
  | closeBracket
  | openBrace
  | closeBrace
  | colon
  | comma
  | word (w : Word)
  | number (n : Number)
  | string (ps : List Piece)

namespace Lexeme

inductive Spelled : Lexeme → List Char → Prop
  | openBracket : Spelled .openBracket ['[']
  | closeBracket : Spelled .closeBracket [']']
  | openBrace : Spelled .openBrace ['\x7b']
  | closeBrace : Spelled .closeBrace ['\x7d']
  | colon : Spelled .colon [':']
  | comma : Spelled .comma [',']
  | word (w : Word) : Spelled (.word w) w.letters
  | number {n : Number} {s : List Char} (spelled : n.Spelled s) : Spelled (.number n) s
  | string {ps : List Piece} {s : List Char} (body : Body ps s) :
      Spelled (.string ps) ('"' :: s ++ ['"'])

/-- A number would go on with the digits behind it; all other lexemes end by themselves. -/
def Ends : Lexeme → List Char → Prop
  | .number _, s => Apart s
  | _, _ => True

def token : Lexeme → Token
  | .openBracket => .openBracket
  | .closeBracket => .closeBracket
  | .openBrace => .openBrace
  | .closeBrace => .closeBrace
  | .colon => .colon
  | .comma => .comma
  | .word w => .word w (.ok ())
  | .number n => .number (if n.isTooLarge then .error .malformed else .ok n) (.ok ())
  | .string ps => .string (strictText ps (.ok [])) (.ok ())

end Lexeme

/-- A text that begins with the lexemes, blanks before and between them, and ends with the rest. -/
inductive Spaced (rest : List Char) : List Lexeme → List Char → Prop
  | nil : Spaced rest [] rest
  | blank {c : Char} {ls : List Lexeme} {s : List Char} (blank : c ∈ [' ', '\t', '\n', '\r'])
      (more : Spaced rest ls s) : Spaced rest ls (c :: s)
  | lexeme {l : Lexeme} {ls : List Lexeme} {s t : List Char} (first : l.Spelled s) (ends : l.Ends t)
      (more : Spaced rest ls t) : Spaced rest (l :: ls) (s ++ t)

theorem Spaced.quoted {s t : List Char} {ps : List Piece} {ls : List Lexeme} (body : Body ps s)
    (more : Spaced rest ls t) : Spaced rest (.string ps :: ls) ('"' :: s ++ ['"'] ++ t) :=
  .lexeme (.string body) trivial more

theorem Spaced.keyed {s t : List Char} {ps : List Piece} {ls : List Lexeme} (body : Body ps s)
    (more : Spaced rest ls t) :
    Spaced rest (.string ps :: .colon :: ls) ('"' :: s ++ ['"'] ++ (':' :: t)) :=
  .quoted body (.lexeme .colon trivial more)

theorem isBlank_of_mem {c : Char} (blank : c ∈ [' ', '\t', '\n', '\r']) : isBlank c = true := by
  simp only [List.mem_cons, List.not_mem_nil, or_false] at blank
  rcases blank with rfl | rfl | rfl | rfl <;> rfl

theorem lex_number {n : Number} {t : List Char} (spelled : n.Spelled s) (apart : Apart t) :
    lex (s ++ t) = .number (if n.isTooLarge then .error .malformed else .ok n) (.ok ()) :: lex t := by
  obtain @⟨fraction, exponent, whole, zero, behind, scale⟩ := spelled
  have number := lexNumber_append whole zero behind scale apart
  cases sign : n.negative with
  | true =>
    rw [sign] at number
    rw [if_pos rfl, List.cons_append, List.nil_append, List.cons_append, lex_cons rfl, lexFrom,
      number]
  | false =>
    obtain ⟨c, ds, written⟩ := List.exists_cons_of_ne_nil whole.1
    have digit : c.isDigit = true := whole.2 c (by rw [written]; exact .head ds)
    rw [sign, written, List.cons_append, List.cons_append] at number
    rw [if_neg Bool.false_ne_true, List.nil_append, written, List.cons_append, List.cons_append,
      lex_cons (isBlank_of_isDigit digit), lexFrom_of_isDigit digit, number]

theorem lex_lexeme {l : Lexeme} {t : List Char} (spelled : l.Spelled s) (ends : l.Ends t) :
    lex (s ++ t) = l.token :: lex t := by
  cases spelled with
  | openBracket | closeBracket | openBrace | closeBrace | colon | comma => exact lex_cons rfl t
  | word w => cases w <;> exact lex_cons rfl _
  | number spelled => exact lex_number spelled ends
  | string body =>
    rw [List.append_assoc, List.cons_append, List.singleton_append, lex_cons rfl, lexFrom, lexString,
      scanBody_body body]
    rfl

/-- A text is cut into the tokens of its lexemes. -/
theorem lex_spaced {ls : List Lexeme} (spaced : Spaced rest ls s) :
    lex s = ls.map Lexeme.token ++ lex rest := by
  induction spaced with
  | nil => rfl
  | blank blank _ ih => rw [lex, if_pos (isBlank_of_mem blank), ih]
  | lexeme first ends _ ih => rw [lex_lexeme first ends, ih, List.map_cons, List.cons_append]

theorem hexDigit_of_hexValue? {c : Char} {n : Nat} (value : hexValue? c = some n) :
    HexDigit c n := by
  have all : ∀ k < 103, ∀ n ∈ hexValue? (Char.ofNat k), n < 16 ∧
      (Char.ofNat k = Text.digitChar n ∨ Char.ofNat k = (Text.digitChar n).toUpper) := by decide
  have small : c.toNat < 103 := by
    unfold hexValue? at value
    dsimp only at value
    repeat' split at value
    all_goals first | omega | cases value
  rw [← Char.ofNat_toNat c] at value ⊢
  exact all c.toNat small n value

theorem exists_hexDigits {a b c d : Char} {n : Nat} (value : hexValue4? a b c d = some n) :
    Piece.Spelled (.unit n) ['\\', 'u', a, b, c, d] := by
  simp only [hexValue4?, Option.bind_eq_bind, Option.bind_eq_some_iff, Option.pure_def,
    Option.some.injEq] at value
  obtain ⟨k, first, l, second, m, third, n, fourth, rfl⟩ := value
  exact .unit (hexDigit_of_hexValue? first) (hexDigit_of_hexValue? second)
    (hexDigit_of_hexValue? third) (hexDigit_of_hexValue? fourth)

theorem mem_escapes {e c : Char} (stands : escaped? e = some c) : (e, c) ∈ escapes := by
  unfold escaped? at stands
  split at stands
  all_goals cases stands
  all_goals decide

theorem exists_body {ps : List Piece} (scanned : scanBody s = (ps, .ok rest)) :
    ∃ b, Body ps b ∧ s = b ++ '"' :: rest := by
  fun_induction scanBody s generalizing ps with
  | case1 => cases scanned
  | case2 s =>
    cases scanned
    exact ⟨[], .nil, rfl⟩
  | case3 => cases scanned
  | case4 a b c d s n value ih =>
    cases inner : scanBody s with | mk qs r
    rw [inner] at scanned
    cases scanned
    obtain ⟨t, body, rfl⟩ := ih inner
    exact ⟨_, .cons (exists_hexDigits value) body, rfl⟩
  | case5 => cases scanned
  | case6 => cases scanned
  | case7 e s _ _ c stands ih =>
    cases inner : scanBody s with | mk qs r
    rw [inner] at scanned
    cases scanned
    obtain ⟨t, body, rfl⟩ := ih inner
    exact ⟨_, .cons (.escape (mem_escapes stands)) body, rfl⟩
  | case8 => cases scanned
  | case9 => cases scanned
  | case10 c s quote alone _ _ other control ih =>
    have backslash : c ≠ '\\' := by
      intro same
      cases s with
      | nil => exact alone same rfl
      | cons e s => exact other e s same rfl
    cases inner : scanBody s with | mk qs r
    rw [inner] at scanned
    cases scanned
    obtain ⟨t, body, rfl⟩ := ih inner
    exact ⟨_, .cons (.plain quote backslash (Nat.not_lt.mp control)) body, rfl⟩

theorem body_iff {ps : List Piece} :
    Body ps s ↔ scanBody (s ++ ['"']) = (ps, .ok []) := by
  constructor
  · intro body
    exact scanBody_body body []
  · intro scanned
    obtain ⟨b, body, same⟩ := exists_body scanned
    rwa [List.append_cancel_right same]

theorem exists_of_bind_eq_ok {ε α β : Type} {x : Except ε α} {f : α → Except ε β} {b : β}
    (bound : x >>= f = .ok b) : ∃ a, x = .ok a ∧ f a = .ok b := by
  cases x with
  | error => cases bound
  | ok a => exact ⟨a, rfl, bound⟩

theorem exists_of_map_eq_ok {ε α β : Type} {x : Except ε α} {f : α → β} {b : β}
    (mapped : x.map f = .ok b) : ∃ a, x = .ok a ∧ f a = b := by
  cases x with
  | error => cases mapped
  | ok a =>
    cases mapped
    exact ⟨a, rfl, rfl⟩

theorem digits_of_someDigits {ds : List Char} (some : someDigits s = .ok (ds, rest)) :
    Digits ds ∧ s = ds ++ rest ∧ ∀ c ∈ rest.head?, c.isDigit = false := by
  rw [someDigits] at some
  split at some
  next => cases some
  next nonempty =>
    cases some
    refine ⟨⟨by simpa using nonempty, fun c => List.mem_takeWhile_imp⟩,
      List.takeWhile_append_dropWhile.symm, ?_⟩
    intro c first
    have stops := List.head?_dropWhile_not Char.isDigit s
    rw [Option.mem_def, afterDigits] at first
    rwa [first] at stops

theorem digits_of_lexWhole {ds : List Char} (whole : lexWhole s = .ok (ds, rest)) :
    someDigits s = .ok (ds, rest) ∧ (ds.head? = some '0' → ds = ['0']) := by
  rw [lexWhole] at whole
  split at whole
  next => cases whole
  next => cases whole
  next nonempty zero =>
    cases whole
    refine ⟨by rw [someDigits, if_neg (by simpa using nonempty)], ?_⟩
    intro first
    cases digits : leadingDigits s with
    | nil => exact absurd digits nonempty
    | cons c more =>
      rw [digits] at first
      cases first
      cases more with
      | nil => rfl
      | cons d more => exact absurd digits (zero d more)

theorem exists_signed {e : Char} {ds : List Char} (mark : e = 'e' ∨ e = 'E') (digits : Digits ds)
    (whole : (exponentSign s).2 = ds ++ rest) :
    ∃ t, Exponent (some ((exponentSign s).1, ds)) t ∧ e :: s = t ++ rest := by
  unfold exponentSign at whole ⊢
  split at whole
  next s => exact ⟨_, .minus mark digits, congrArg (e :: '-' :: ·) whole⟩
  next s => exact ⟨_, .plus mark digits, congrArg (e :: '+' :: ·) whole⟩
  next => exact ⟨_, .plain mark digits, congrArg (e :: ·) whole⟩

theorem exists_exponent {e : Option (Bool × List Char)} (read : lexExponent s = .ok (e, rest))
    (stops : ∀ c ∈ s.head?, c.isDigit = false) :
    ∃ t, Exponent e t ∧ s = t ++ rest ∧ ∀ c ∈ rest.head?, c.isDigit = false := by
  cases s with
  | nil =>
    cases read
    exact ⟨[], .none, rfl, stops⟩
  | cons c s =>
    rw [lexExponent] at read
    split at read
    next mark =>
      obtain ⟨r, found, same⟩ := exists_of_map_eq_ok read
      cases same
      obtain ⟨digits, whole, stops⟩ := digits_of_someDigits found
      obtain ⟨t, exponent, same⟩ := exists_signed mark digits whole
      exact ⟨t, exponent, same, stops⟩
    next =>
      cases read
      exact ⟨[], .none, rfl, stops⟩

theorem exists_fraction {f : Option (List Char)} (read : lexFraction s = .ok (f, rest))
    (stops : ∀ c ∈ s.head?, c.isDigit = false) :
    ∃ t, Fraction f t ∧ s = t ++ rest ∧ ∀ c ∈ rest.head?, c.isDigit = false := by
  unfold lexFraction at read
  split at read
  next s =>
    obtain ⟨r, found, same⟩ := exists_of_map_eq_ok read
    cases same
    obtain ⟨digits, whole, stops⟩ := digits_of_someDigits found
    exact ⟨_, .some digits, congrArg _ whole, stops⟩
  next =>
    cases read
    exact ⟨[], .none, rfl, stops⟩

theorem exists_number {negative : Bool} {n : Number} (read : lexUnsigned negative s = .ok (n, rest)) :
    ∃ t, n.Spelled t ∧ (if negative then ['-'] else []) ++ s = t ++ rest ∧
      ∀ c ∈ rest.head?, c.isDigit = false := by
  obtain ⟨⟨ds, s₁⟩, whole, read⟩ := exists_of_bind_eq_ok read
  obtain ⟨⟨f, s₂⟩, fraction, read⟩ := exists_of_bind_eq_ok read
  obtain ⟨⟨e, s₃⟩, exponent, read⟩ := exists_of_bind_eq_ok read
  cases read
  obtain ⟨found, zero⟩ := digits_of_lexWhole whole
  obtain ⟨digits, front, stops⟩ := digits_of_someDigits found
  obtain ⟨behind, spelled, middle, stops⟩ := exists_fraction fraction stops
  obtain ⟨scale, spelled', last, stops⟩ := exists_exponent exponent stops
  refine ⟨_, .mk digits zero spelled spelled', ?_, stops⟩
  simp only [front, middle, last, List.append_assoc]

theorem eq_append_of_afterLetters {cs : List Char} (after : afterLetters cs s = .ok rest) :
    s = cs ++ rest := by
  induction cs generalizing s with
  | nil =>
    cases after
    rfl
  | cons c cs ih =>
    cases s with
    | nil => cases after
    | cons d s =>
      rw [afterLetters] at after
      split at after
      next same => rw [same, ih after, List.cons_append]
      next => cases after

/-- What is cut from the front of a text: a lexeme, or a broken token and all that is left. A number
that is cut ends there, unless a point or the mark of an exponent follows. -/
inductive Cut : List Char → Token → List Char → Prop
  | lexeme {l : Lexeme} {s rest : List Char} (spelled : l.Spelled s)
      (ends : (∀ c ∈ rest.head?, c ∉ ['.', 'e', 'E']) → l.Ends rest) : Cut (s ++ rest) l.token rest
  | broken {s : List Char} {t : Token} (other : t ≠ .closeBrace) : Cut s t []

theorem cut_lexString (s : List Char) : Cut ('"' :: s) (lexString s).1 (lexString s).2 := by
  rw [lexString]
  split
  next ps rest scanned =>
    obtain ⟨b, body, rfl⟩ := exists_body scanned
    have cut : Cut ('"' :: b ++ ['"'] ++ rest) (Lexeme.string ps).token rest :=
      .lexeme (.string body) fun _ => trivial
    rwa [List.append_assoc] at cut
  next => exact .broken (by rintro ⟨⟩)

theorem cut_lexNumber (negative : Bool) (s : List Char) :
    Cut ((if negative then ['-'] else []) ++ s) (lexNumber negative s).1
      (lexNumber negative s).2 := by
  rw [lexNumber]
  cases read : lexUnsigned negative s with
  | error p => exact .broken (by rintro ⟨⟩)
  | ok r =>
    obtain ⟨t, spelled, whole, stops⟩ := exists_number read
    rw [whole]
    exact .lexeme (.number spelled) fun apart c first => ⟨stops c first, apart c first⟩

theorem cut_lexWord {w : Word} {c : Char} (letters : c :: w.letters.tail = w.letters)
    (s : List Char) : Cut (c :: s) (lexWord w s).1 (lexWord w s).2 := by
  rw [lexWord]
  split
  next rest after =>
    rw [eq_append_of_afterLetters after, ← List.cons_append, letters]
    exact .lexeme (.word w) fun _ => trivial
  next => exact .broken (by rintro ⟨⟩)

theorem cut_lexFrom (c : Char) (s : List Char) : Cut (c :: s) (lexFrom c s).1 (lexFrom c s).2 := by
  unfold lexFrom
  split
  case h_1 => exact .lexeme .openBracket fun _ => trivial
  case h_2 => exact .lexeme .closeBracket fun _ => trivial
  case h_3 => exact .lexeme .openBrace fun _ => trivial
  case h_4 => exact .lexeme .closeBrace fun _ => trivial
  case h_5 => exact .lexeme .colon fun _ => trivial
  case h_6 => exact .lexeme .comma fun _ => trivial
  case h_7 => exact cut_lexString s
  case h_8 => exact cut_lexNumber true s
  case h_9 | h_10 | h_11 => exact cut_lexWord rfl s
  case h_12 =>
    split
    · exact cut_lexNumber false (c :: s)
    · exact .broken (by rintro ⟨⟩)

theorem mem_of_isBlank {c : Char} (blank : isBlank c = true) : c ∈ [' ', '\t', '\n', '\r'] := by
  simp only [isBlank, Bool.or_eq_true, beq_iff_eq] at blank
  rcases blank with ((rfl | rfl) | rfl) | rfl <;> decide

theorem lex_dropWhile (s : List Char) : lex (s.dropWhile isBlank) = lex s := by
  induction s with
  | nil => rfl
  | cons c s ih =>
    cases blank : isBlank c with
    | true => rw [List.dropWhile_cons_of_pos blank, ih, lex, if_pos blank]
    | false => rw [List.dropWhile_cons_of_neg (by simp [blank])]

theorem lex_stray {c : Char} (stray : c ∈ ['.', 'e', 'E']) (s : List Char) :
    lex (c :: s) = [.stray c] := by
  simp only [List.mem_cons, List.not_mem_nil, or_false] at stray
  have cut : isBlank c = false ∧ lexFrom c s = (.stray c, []) := by
    rcases stray with rfl | rfl | rfl <;> exact ⟨rfl, rfl⟩
  rw [lex_cons cut.1, cut.2, lex]

theorem exists_spaced (closed : ∀ t ∈ (lex s).getLast?, t = .closeBrace) :
    ∃ ls, Spaced [] ls s ∧ lex s = ls.map Lexeme.token := by
  fun_induction lex s with
  | case1 => exact ⟨[], .nil, rfl⟩
  | case2 c s blank ih =>
    obtain ⟨ls, spaced, cut⟩ := ih closed
    exact ⟨ls, .blank (mem_of_isBlank blank) spaced, cut⟩
  | case3 c s _ _ ih =>
    -- the cut is taken apart only once the token, the rest and the whole text are variables
    have cut := cut_lexFrom c s
    generalize lexFrom c s = r at *
    generalize c :: s = whole at *
    obtain ⟨t, rest⟩ := r
    dsimp only at *
    cases cut with
    | broken other =>
      exact absurd (closed t (by rw [lex]; rfl)) other
    | @lexeme l front _ spelled ends =>
      obtain ⟨ls, spaced, tokens⟩ := ih fun t last => closed t (by
        rw [List.getLast?_cons, Option.mem_def.mp last]
        rfl)
      refine ⟨l :: ls, .lexeme spelled (ends ?_) spaced, by rw [tokens, List.map_cons]⟩
      -- a point or a mark behind a number would be a token by itself, and the last one
      intro c first stray
      obtain ⟨rest, rfl⟩ := List.head?_eq_some_iff.mp first
      have last : (l.token :: lex (c :: rest)).getLast? = some (.stray c) := by
        rw [lex_stray stray]
        rfl
      cases closed _ last

end Json

end RenderBroker

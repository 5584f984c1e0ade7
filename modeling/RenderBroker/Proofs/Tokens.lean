import RenderBroker.Json.Value
import RenderBroker.Proofs.Numerals

namespace RenderBroker

namespace Json

open Text (digits digitChar)

/-- What the scan of a string finds for a character that is written in it. -/
def piece (c : Char) : Piece :=
  if escapeLetter? c = none ∧ c.toNat < 0x20 then .unit c.toNat else .char c

theorem hexValue?_digitChar {n : Nat} (small : n < 16) : hexValue? (digitChar n) = some n := by
  have all : ∀ n < 16, hexValue? (digitChar n) = some n := by decide
  exact all n small

theorem hexValue4?_control {n : Nat} (control : n < 0x20) :
    hexValue4? '0' '0' (digitChar (n / 16)) (digitChar (n % 16)) = some n := by
  have zero : hexValue? '0' = some 0 := rfl
  rw [hexValue4?, zero, hexValue?_digitChar (by omega), hexValue?_digitChar (by omega)]
  simp only [Option.bind_eq_bind, Option.bind_some, Option.pure_def, Option.some.injEq]
  omega

theorem scanBody_escape {c e : Char} (escaped : escapeLetter? c = some e) (s : List Char) :
    scanBody ('\\' :: e :: s) = withPiece (.char c) (scanBody s) := by
  unfold escapeLetter? at escaped
  repeat' split at escaped
  all_goals cases escaped
  all_goals subst_vars; simp [scanBody, escaped?]

theorem scanBody_encodeChar (c : Char) (s : List Char) :
    scanBody (encodeChar c ++ s) = withPiece (piece c) (scanBody s) := by
  rw [encodeChar, piece]
  cases escaped : escapeLetter? c with
  | some e =>
    dsimp only
    rw [if_neg (by simp)]
    exact scanBody_escape escaped s
  | none =>
    dsimp only
    split
    next control =>
      rw [if_pos ⟨rfl, control⟩]
      simp only [List.cons_append, List.nil_append, scanBody, hexValue4?_control control]
    next plain =>
      rw [if_neg fun h => plain h.2]
      have quote : c ≠ '"' := by
        rintro rfl
        cases escaped
      have backslash : c ≠ '\\' := by
        rintro rfl
        cases escaped
      simp [scanBody, plain, backslash]

theorem scanBody_encodeString (t rest : List Char) :
    scanBody (t.flatMap encodeChar ++ '"' :: rest) = (t.map piece, .ok rest) := by
  induction t with
  | nil => rfl
  | cons c t ih =>
    rw [List.flatMap_cons, List.append_assoc, scanBody_encodeChar, ih]
    rfl

theorem joinPieces_unit {n : Nat} (whole : n < 0xD800 ∨ 0xDFFF < n) (ps : List Piece) :
    joinPieces (.unit n :: ps) = (joinPieces ps).map (Char.ofNat n :: ·) := by
  have lead : isLead n = false := by simp [isLead]; omega
  have trail : isTrail n = false := by simp [isTrail]; omega
  cases ps with
  | nil => simp [joinPieces, lead, trail]
  | cons p ps => cases p <;> simp [joinPieces, lead, trail]

theorem joinPieces_map_piece (t : List Char) : joinPieces (t.map piece) = some t := by
  induction t with
  | nil => rfl
  | cons c t ih =>
    rw [List.map_cons, piece]
    split
    next control => rw [joinPieces_unit (.inl (by omega)), ih, Char.ofNat_toNat]; rfl
    next => rw [joinPieces, ih]; rfl

theorem lexString_encodeString (t rest : List Char) :
    lexString (t.flatMap encodeChar ++ '"' :: rest) = (.string (.ok t) (.ok ()), rest) := by
  rw [lexString, scanBody_encodeString]
  simp only [strictText, joinPieces_map_piece]

/-- A text does not go on with the number before it. -/
def Stops (s : List Char) : Prop :=
  ∀ c ∈ s.head?, c = ',' ∨ c = ']' ∨ c = '\x7d'

theorem Stops.isDigit {rest : List Char} (stops : Stops rest) :
    ∀ c ∈ rest.head?, c.isDigit = false := by
  intro c first
  rcases stops c first with rfl | rfl | rfl <;> rfl

theorem takeWhile_digits {ds rest : List Char} (all : ∀ c ∈ ds, c.isDigit = true)
    (stops : ∀ c ∈ rest.head?, c.isDigit = false) :
    leadingDigits (ds ++ rest) = ds ∧ afterDigits (ds ++ rest) = rest := by
  have none : leadingDigits rest = [] ∧ afterDigits rest = rest := by
    cases rest with
    | nil => exact ⟨rfl, rfl⟩
    | cons c rest => simp [leadingDigits, afterDigits, stops c rfl]
  rw [leadingDigits, List.takeWhile_append_of_pos all, afterDigits,
    List.dropWhile_append_of_pos all]
  exact ⟨by rw [← leadingDigits, none.1, List.append_nil], none.2⟩

theorem lexWhole_append {ds rest : List Char} (nonempty : ds ≠ []) (all : ∀ c ∈ ds, c.isDigit = true)
    (zero : ds.head? = some '0' → ds = ['0']) (stops : ∀ c ∈ rest.head?, c.isDigit = false) :
    lexWhole (ds ++ rest) = .ok (ds, rest) := by
  obtain ⟨leading, after⟩ := takeWhile_digits all stops
  rw [lexWhole, leading, after]
  split
  next => exact absurd rfl nonempty
  next => cases zero rfl
  next => rfl

theorem lexWhole_digits (n : Nat) {rest : List Char} (stops : Stops rest) :
    lexWhole (digits 8 n ++ rest) = .ok (digits 8 n, rest) := by
  refine lexWhole_append (Text.digits_ne_nil 8 n) (fun _ => Text.isDigit_of_mem_digits) ?_
    stops.isDigit
  intro zero
  rcases Nat.eq_zero_or_pos n with rfl | positive
  · exact Text.digits_eq_singleton (by omega)
  · exact absurd zero (Text.head?_digits positive)

theorem lexUnsigned_digits (n : Nat) {rest : List Char} (stops : Stops rest) :
    lexUnsigned false (digits 8 n ++ rest) = .ok (.ofNat n, rest) := by
  have fraction : lexFraction rest = .ok (none, rest) := by
    cases rest with
    | nil => rfl
    | cons c rest => rcases stops c rfl with rfl | rfl | rfl <;> rfl
  have exponent : lexExponent rest = .ok (none, rest) := by
    cases rest with
    | nil => rfl
    | cons c rest => rcases stops c rfl with rfl | rfl | rfl <;> rfl
  simp only [lexUnsigned, lexWhole_digits n stops, fraction, exponent, bind, Except.bind, pure,
    Except.pure]
  rfl

theorem scaleWhole_eq {v : Nat} {p : Int} {ds : List Char}
    (fits : Text.valueOfDigits v ds ≤ maxSignificand) :
    scaleWhole ⟨v, p⟩ ds = ⟨Text.valueOfDigits v ds, p⟩ := by
  induction ds generalizing v with
  | nil => rfl
  | cons c ds ih =>
    rw [scaleWhole]
    dsimp only
    rw [if_pos (Nat.le_trans (Text.le_valueOfDigits _ ds) fits)]
    exact ih fits

theorem nearestBinary_le (n : Nat) : nearestBinary n ≤ n + n := by
  rcases Nat.eq_zero_or_pos n with rfl | positive
  · exact Nat.le_of_eq rfl
  have unit_le : Nat.pow 2 (bitLength n - 53) ≤ n := by
    rw [bitLength, if_neg (Nat.ne_of_gt positive)]
    calc 2 ^ (n.log2 + 1 - 53) ≤ 2 ^ n.log2 := Nat.pow_le_pow_right (by omega) (by omega)
      _ ≤ n := Nat.log2_self_le (Nat.ne_of_gt positive)
  have low := Nat.div_mul_le_self n (Nat.pow 2 (bitLength n - 53))
  rw [nearestBinary]
  split
  · rw [Nat.succ_mul]
    exact Nat.add_le_add low unit_le
  · exact Nat.le_trans low (Nat.le_add_right n n)

theorem isTooLarge_ofNat {n : Nat} (fits : n ≤ maxSignificand) :
    (Number.ofNat n).isTooLarge = false := by
  have value : (Number.ofNat n).scaled = ⟨n, 0⟩ := by
    have whole := Text.valueOfDigits_digits n
    simp only [Number.scaled, Number.ofNat, Option.getD_none, scaleFraction]
    rw [scaleWhole_eq (by rw [whole]; exact fits), whole]
  -- rounding at most doubles a number, and the bound is far above that
  have far : maxSignificand + maxSignificand < overflowBound := by decide +kernel
  have near := nearestBinary_le n
  have one : nearestBinary (Nat.pow 10 0) = 1 := rfl
  rw [Number.isTooLarge, value]
  simp only [Int.lt_irrefl, or_false, Int.toNat_zero, one, Nat.mul_one]
  split
  · rfl
  · rw [if_neg (by decide), decide_eq_false_iff_not]
    omega

theorem natural?_ofNat {n : Nat} (fits : n ≤ maxSignificand) :
    (Number.ofNat n).natural? = some n := by
  simp [Number.natural?, Number.ofNat, Text.valueOfDigits_digits, fits]

theorem lex_cons {c : Char} (black : isBlank c = false) (s : List Char) :
    lex (c :: s) = (lexFrom c s).1 :: lex (lexFrom c s).2 := by
  rw [lex, if_neg (by simp [black])]

theorem isBlank_of_isDigit {c : Char} (digit : c.isDigit = true) : isBlank c = false := by
  cases blank : isBlank c with
  | false => rfl
  | true =>
    simp only [isBlank, Bool.or_eq_true, beq_iff_eq] at blank
    rcases blank with ((rfl | rfl) | rfl) | rfl <;> cases digit

theorem lexFrom_of_isDigit {c : Char} (digit : c.isDigit = true) (s : List Char) :
    lexFrom c s = lexNumber false (c :: s) := by
  unfold lexFrom
  split
  case h_12 => exact if_pos digit
  all_goals cases digit

theorem lex_digits {n : Nat} (fits : n ≤ maxSignificand) {rest : List Char} (stops : Stops rest) :
    lex (digits 8 n ++ rest) = .number (.ok (.ofNat n)) (.ok ()) :: lex rest := by
  obtain ⟨c, ds, written⟩ := List.exists_cons_of_ne_nil (Text.digits_ne_nil 8 n)
  have digit : c.isDigit = true := Text.isDigit_of_mem_digits (by rw [written]; simp)
  rw [written, List.cons_append, lex_cons (isBlank_of_isDigit digit), lexFrom_of_isDigit digit,
    ← List.cons_append, ← written, lexNumber, lexUnsigned_digits n stops]
  simp [isTooLarge_ofNat fits]

theorem lex_encodeString (t rest : List Char) :
    lex (encodeString t ++ rest) = .string (.ok t) (.ok ()) :: lex rest := by
  rw [encodeString, List.cons_append, List.cons_append, List.append_assoc, List.singleton_append,
    lex_cons rfl, lexFrom, lexString_encodeString]

def separator (first : Bool) : List Token :=
  if first then [] else [.comma]

mutual

def Value.tokens : Value → List Token
  | .null => [.word .null (.ok ())]
  | .bool true => [.word .true (.ok ())]
  | .bool false => [.word .false (.ok ())]
  | .number n => [.number (.ok n) (.ok ())]
  | .string s => [.string (.ok s) (.ok ())]
  | .list items => .openBracket :: itemTokens true items ++ [.closeBracket]
  | .object members => .openBrace :: memberTokens true members ++ [.closeBrace]

def itemTokens (first : Bool) : List Value → List Token
  | [] => []
  | v :: vs => separator first ++ v.tokens ++ itemTokens false vs

def memberTokens (first : Bool) : List (List Char × Value) → List Token
  | [] => []
  | (k, v) :: ms =>
    separator first ++ .string (.ok k) (.ok ()) :: .colon :: v.tokens ++ memberTokens false ms

end

/-- All numbers of a value are natural ones that fit 64 bits. -/
inductive Value.Plain : Value → Prop
  | null : Plain .null
  | bool (b : Bool) : Plain (.bool b)
  | natural {n : Nat} (fits : n ≤ maxSignificand) : Plain (.natural n)
  | string (s : List Char) : Plain (.string s)
  | list {items : List Value} (each : ∀ v ∈ items, Plain v) : Plain (.list items)
  | object {members : List (List Char × Value)} (each : ∀ m ∈ members, Plain m.2) :
      Plain (.object members)

/-- A value is cut into its tokens, whatever follows. -/
def Value.Lexes (v : Value) : Prop :=
  ∀ rest, Stops rest → lex (v.compact ++ rest) = v.tokens ++ lex rest

theorem lex_compactItems {items : List Value} (each : ∀ v ∈ items, v.Lexes) (rest : List Char) :
    lex (compactItems items ++ ']' :: rest) =
      itemTokens true items ++ .closeBracket :: lex rest := by
  induction items with
  | nil => exact lex_cons rfl rest
  | cons v vs ih =>
    have first := each v (List.mem_cons_self ..)
    cases vs with
    | nil =>
      rw [compactItems, first _ (by simp [Stops]), lex_cons rfl]
      simp [itemTokens, separator, lexFrom]
    | cons w vs =>
      have others := ih fun u member => each u (List.mem_cons_of_mem v member)
      rw [compactItems, List.append_assoc, first _ (by simp [Stops]), List.cons_append,
        lex_cons rfl]
      simp only [lexFrom, others]
      simp [itemTokens, separator]

theorem lex_compactMembers {ms : List (List Char × Value)} (each : ∀ m ∈ ms, m.2.Lexes)
    (rest : List Char) :
    lex (compactMembers ms ++ '\x7d' :: rest) =
      memberTokens true ms ++ .closeBrace :: lex rest := by
  induction ms with
  | nil => exact lex_cons rfl rest
  | cons m ms ih =>
    obtain ⟨k, v⟩ := m
    have first := each (k, v) (List.mem_cons_self ..)
    cases ms with
    | nil =>
      rw [compactMembers, List.append_assoc, lex_encodeString, List.cons_append, lex_cons rfl]
      simp only [lexFrom]
      rw [first _ (by simp [Stops]), lex_cons rfl]
      simp [memberTokens, separator, lexFrom]
    | cons m ms =>
      have others := ih fun u member => each u (List.mem_cons_of_mem (k, v) member)
      rw [compactMembers, List.append_assoc, List.append_assoc, lex_encodeString, List.cons_append,
        lex_cons rfl]
      simp only [lexFrom]
      rw [first _ (by simp [Stops]), List.cons_append, lex_cons rfl]
      simp only [lexFrom, others]
      simp [memberTokens, separator]

/-- A value that is written with nothing between its tokens is cut into these tokens. -/
theorem lex_compact {v : Value} (plain : v.Plain) : v.Lexes := by
  induction plain with
  | null =>
    intro rest _
    exact lex_cons rfl _
  | bool b =>
    intro rest _
    cases b <;> exact lex_cons rfl _
  | natural fits =>
    intro rest stops
    have digits := lex_digits fits stops
    simpa [Value.natural, Value.compact, Value.atom, Number.written, Number.ofNat, Value.tokens]
      using digits
  | string s =>
    intro rest _
    rw [Value.compact, Value.atom, lex_encodeString]
    rfl
  | list _ each =>
    intro rest _
    rw [Value.compact, List.cons_append, List.cons_append, List.append_assoc, lex_cons rfl]
    simp only [lexFrom]
    rw [List.singleton_append, lex_compactItems each]
    simp [Value.tokens]
  | object _ each =>
    intro rest _
    rw [Value.compact, List.cons_append, List.cons_append, List.append_assoc, lex_cons rfl]
    simp only [lexFrom]
    rw [List.singleton_append, lex_compactMembers each]
    simp [Value.tokens]

end Json

end RenderBroker

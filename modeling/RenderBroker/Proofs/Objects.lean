import RenderBroker.Proofs.Values

namespace RenderBroker

namespace Json

theorem token_string (ps : List Piece) :
    (Lexeme.string ps).token = .string (strictText ps (.ok [])) (.ok ()) :=
  rfl

theorem strictText_of_standFor {ps : List Piece} {t : List Char} (stands : StandFor ps t) :
    strictText ps (.ok []) = .ok t := by
  simp only [strictText, joinPieces_eq_some_iff.mpr stands]

theorem standFor_of_strictText {ps : List Piece} {t : List Char}
    (strict : strictText ps (.ok []) = .ok t) : StandFor ps t := by
  rw [← joinPieces_eq_some_iff]
  cases joined : joinPieces ps with
  | none => simp [strictText, joined] at strict
  | some u => simpa [strictText, joined] using strict

/-- A member of an object: a key that stands for its name, and the lexemes of its value. -/
structure Member where
  key : List Piece
  name : String
  stands : StandFor key name.toList
  value : List Lexeme
  isValue : IsValue value

namespace Member

def lexemes (m : Member) : List Lexeme :=
  entry (m.key, m.value)

def IsText (m : Member) (t : String) : Prop :=
  ∃ ps, m.value = [.string ps] ∧ StandFor ps t.toList

def tokens (m : Member) : List Token :=
  m.lexemes.map Lexeme.token

variable {m : Member} {t : String} {ts us : List Token}

theorem members_tokens (m : Member) (first : Bool) (ts : List Token) :
    members first (separator first ++ (m.tokens ++ ts)) =
      .member m.name.toList (.ok (m.value.map Lexeme.token ++ ts)) (members false ts) := by
  have tokens : m.tokens ++ ts = .string (.ok m.name.toList) (.ok ()) :: .colon ::
      (m.value.map Lexeme.token ++ ts) := by
    rw [tokens, lexemes, entry, List.map_cons, token_string, strictText_of_standFor m.stands]
    rfl
  rw [tokens, members_skips (skips_of_isValue m.isValue)]

theorem IsText.readString (text : m.IsText t) :
    readString (m.value.map Lexeme.token ++ ts) = .ok (t, ts) := by
  obtain ⟨ps, value, stands⟩ := text
  rw [value, List.map_singleton, List.singleton_append, Json.readString, token_string, Token.text,
    strictText_of_standFor stands, Except.map, String.ofList_toList]

theorem isText_of_readString (read : readString (m.value.map Lexeme.token ++ ts) = .ok (t, us)) :
    m.IsText t := by
  obtain ⟨key, name, stands, value, isValue⟩ := m
  cases isValue with
  | word | number | list | object => cases read
  | string ps =>
    rw [List.map_singleton, List.singleton_append, Json.readString, token_string, Token.text]
      at read
    cases strict : strictText ps (.ok []) with
    | error p =>
      rw [strict] at read
      cases read
    | ok u =>
      rw [strict] at read
      cases read
      exact ⟨ps, rfl, by rw [String.toList_ofList]; exact standFor_of_strictText strict⟩

end Member

theorem Members.read_repeated {δ : Type} {field : δ → String → MemberRole δ} {d : δ}
    {k : List Char} (repeated : field d (String.ofList k) = .repeated)
    (value : Except Problem (List Token)) (more : Members) :
    (Members.member k value more).read field d = .error .mismatch := by
  cases value <;> rw [Members.read, repeated]

/-- The text is an object with the members. -/
def ObjectText (ms : List Member) (s : List Char) : Prop :=
  Spaced [] (.openBrace :: [Lexeme.comma].intercalate (ms.map Member.lexemes) ++ [.closeBrace]) s

/-- The text begins with an object that has the members, and goes on with the lexemes of a further
one and with any rest. -/
def Opens (ms : List Member) (next : List Lexeme) (rest s : List Char) : Prop :=
  Spaced rest (.openBrace :: [Lexeme.comma].intercalate (ms.map Member.lexemes ++ [next])) s

/-- The tokens of members, and those behind them, which begin with a comma if they are not the
first. -/
def ahead (first : Bool) : List Member → (Bool → List Token) → List Token
  | [], behind => behind first
  | m :: ms, behind => separator first ++ (m.tokens ++ ahead false ms behind)

theorem ahead_false (ms : List Member) (behind : Bool → List Token) :
    ahead false ms behind = (ms.map Member.tokens).flatMap (.comma :: ·) ++ behind false := by
  induction ms with
  | nil => rfl
  | cons m ms ih =>
    rw [ahead, ih, List.map_cons, List.flatMap_cons, List.append_assoc]
    rfl

theorem lex_object {ms : List Member} {s : List Char} (object : ObjectText ms s) :
    lex s = .openBrace :: ahead true ms fun _ => [.closeBrace] := by
  rw [lex_spaced object, lex, List.append_nil, List.map_append, List.map_cons,
    map_token_intercalate, List.map_map]
  cases ms with
  | nil => rfl
  | cons m ms =>
    rw [List.map_cons, intercalate_cons, ahead, ahead_false, List.cons_append, List.append_assoc]
    rfl

theorem lex_opens {ms : List Member} {next : List Lexeme} {rest s : List Char}
    (opens : Opens ms next rest s) : lex s = .openBrace ::
      ahead true ms fun first => separator first ++ (next.map Lexeme.token ++ lex rest) := by
  rw [lex_spaced opens, List.map_cons, map_token_intercalate, List.map_append, List.map_map,
    List.map_singleton]
  cases ms with
  | nil =>
    rw [List.map_nil, List.nil_append, intercalate_cons, List.flatMap_nil, List.append_nil]
    rfl
  | cons m ms =>
    rw [List.map_cons, List.cons_append, List.cons_append, intercalate_cons, ahead, ahead_false,
      List.flatMap_append, List.flatMap_singleton, List.append_assoc, List.append_assoc]
    rfl

theorem exists_string {l : Lexeme} {k : List Char} {loose : Except Problem Unit}
    (token : l.token = .string (.ok k) loose) : ∃ ps, l = .string ps ∧ StandFor ps k := by
  cases l with
  | string ps =>
    rw [token_string] at token
    injection token with strict
    exact ⟨ps, rfl, standFor_of_strictText strict⟩
  | _ => cases token

def listed (first : Bool) (ms : List Member) : List Lexeme :=
  if first then [Lexeme.comma].intercalate (ms.map Member.lexemes)
  else (ms.map Member.lexemes).flatMap (.comma :: ·)

theorem listed_cons (first : Bool) (m : Member) (ms : List Member) :
    listed first (m :: ms) =
      (if first then [] else [.comma]) ++ m.lexemes ++ listed false ms := by
  cases first with
  | true => simp [listed, intercalate_cons]
  | false => simp [listed]

theorem exists_key {first : Bool} {ls : List Lexeme} {k : List Char} {loose : Except Problem Unit}
    {value : List Token} (tokens : ls.map Lexeme.token =
      separator first ++ .string (.ok k) loose :: .colon :: value) :
    ∃ ps more, StandFor ps k ∧ value = more.map Lexeme.token ∧
      ls = (if first then [] else [.comma]) ++ .string ps :: .colon :: more := by
  obtain ⟨before, behind, rfl, front, back⟩ := List.map_eq_append_iff.mp tokens
  obtain ⟨l, _, rfl, key, back⟩ := List.map_eq_cons_iff.mp back
  obtain ⟨l', more, rfl, colon, rfl⟩ := List.map_eq_cons_iff.mp back
  obtain ⟨ps, rfl, stands⟩ := exists_string key
  obtain rfl := eq_of_token (m := .colon) colon rfl
  refine ⟨ps, more, stands, rfl, ?_⟩
  cases first with
  | true =>
    obtain rfl := List.map_eq_nil_iff.mp front
    rfl
  | false =>
    obtain ⟨l, _, rfl, comma, front⟩ := List.map_eq_cons_iff.mp front
    obtain rfl := List.map_eq_nil_iff.mp front
    rw [eq_of_token (m := .comma) comma rfl]
    rfl

theorem exists_listed {δ : Type} {field : δ → String → MemberRole δ} {d : δ} {first : Bool}
    {ls : List Lexeme} {r : δ × List Token}
    (read : (members first (ls.map Lexeme.token)).read field d = .ok r) :
    ∃ ms more, ls = listed first ms ++ .closeBrace :: more ∧ r.2 = more.map Lexeme.token := by
  rcases members_read_cases read with
    last | ⟨k, loose, value, rest, e, tokens, skipped, read⟩
  · obtain ⟨l, more, rfl, close, left⟩ := List.map_eq_cons_iff.mp last
    obtain rfl := eq_of_token (m := .closeBrace) close rfl
    refine ⟨[], more, ?_, left.symm⟩
    cases first <;> rfl
  · obtain ⟨ps, behind, stands, rfl, rfl⟩ := exists_key tokens
    obtain ⟨v, more, isValue, rfl, rfl⟩ := exists_isValue skipped
    obtain ⟨ms, after, rfl, left⟩ := exists_listed read
    let m : Member := ⟨ps, String.ofList k, by rwa [String.toList_ofList], v, isValue⟩
    refine ⟨m :: ms, after, ?_, left⟩
    rw [listed_cons]
    simp [m, Member.lexemes, entry]
termination_by ls.length
decreasing_by
  subst_vars
  simp only [List.length_append, List.length_cons]
  omega

theorem exists_lex_of_brace {s : List Char} (brace : (s.dropWhile isBlank).head? = some '\x7b') :
    ∃ ts, lex s = .openBrace :: ts := by
  obtain ⟨rest, front⟩ := List.head?_eq_some_iff.mp brace
  rw [← lex_dropWhile, front, lex_cons rfl]
  exact ⟨_, rfl⟩

/-- A text that is read as an object is one. -/
theorem exists_object {δ : Type} {field : δ → String → MemberRole δ} {d e : δ} {s : List Char}
    {ts : List Token} (lexed : lex s = .openBrace :: ts)
    (read : (members true ts).read field d = .ok (e, [])) : ∃ ms, ObjectText ms s := by
  obtain ⟨before, rfl⟩ := suffix_of_read read
  obtain ⟨ls, spaced, tokens⟩ := exists_spaced (s := s) fun t last => by
    rw [lexed, ← List.cons_append, List.getLast?_concat] at last
    exact (Option.some.inj last).symm
  rw [lexed] at tokens
  obtain ⟨l, behind, rfl, brace, inner⟩ := List.map_eq_cons_iff.mp tokens.symm
  obtain rfl := eq_of_token (m := .openBrace) brace rfl
  rw [← inner] at read
  obtain ⟨ms, more, rfl, left⟩ := exists_listed read
  obtain rfl := List.map_eq_nil_iff.mp left.symm
  exact ⟨ms, spaced⟩

theorem readString_word (w : Word) (s : List Char) (ts : List Token) :
    ∃ p, readString ((lexWord w s).1 :: ts) = .error p := by
  rw [lexWord]
  split <;> exact ⟨_, rfl⟩

theorem readString_number (negative : Bool) (s : List Char) (ts : List Token) :
    ∃ p, readString ((lexNumber negative s).1 :: ts) = .error p := by
  rw [lexNumber]
  split <;> exact ⟨_, rfl⟩

theorem readString_lexFrom {c : Char} (other : c ≠ '"') (s : List Char) (ts : List Token) :
    ∃ p, readString ((lexFrom c s).1 :: ts) = .error p := by
  unfold lexFrom
  split
  case h_7 => exact absurd rfl other
  case h_8 => exact readString_number true s ts
  case h_9 | h_10 | h_11 => exact readString_word _ s ts
  case h_12 =>
    split
    · exact readString_number false _ ts
    · exact ⟨_, rfl⟩
  all_goals exact ⟨_, rfl⟩

theorem readString_lex {s : List Char} (other : (s.dropWhile isBlank).head? ≠ some '"') :
    ∃ p, readString (lex s) = .error p := by
  rw [← lex_dropWhile]
  have black := List.head?_dropWhile_not isBlank s
  cases front : s.dropWhile isBlank with
  | nil => exact ⟨.ended, by rw [lex]; rfl⟩
  | cons c rest =>
    rw [front] at other black
    rw [lex_cons black]
    exact readString_lexFrom (fun quote => other (congrArg some quote)) rest _

end Json

end RenderBroker

import RenderBroker.Proofs.Objects
import RenderBroker.Server.Config
import RenderBroker.Proofs.Encodings

namespace RenderBroker

namespace Json

def named (ms : List Member) (name : String) : List Member :=
  ms.filter (·.name = name)

/-- What the members of its name make of a field that has a text or has none: without a member it
stays as it is, and one member that is a string gives its text to a field that has none. -/
inductive Gives (before : Option String) : List Member → Option String → Prop
  | nothing : Gives before [] before
  | text {m : Member} {t : String} (fresh : before = none) (text : m.IsText t) :
      Gives before [m] (some t)

variable {before v w : Option String} {m : Member} {ms ns : List Member} {t : String}

theorem Gives.cons (fresh : before = none) (text : m.IsText t) (rest : Gives (some t) ms v) :
    Gives before (m :: ms) v := by
  cases rest with
  | nothing => exact .text fresh text
  | text fresh => cases fresh

theorem Gives.of_cons (gives : Gives before (m :: ms) v) :
    before = none ∧ ∃ t, m.IsText t ∧ Gives (some t) ms v := by
  cases gives with
  | text fresh text => exact ⟨fresh, _, text, .nothing⟩

theorem Gives.perm (gives : Gives before ms v) (perm : ms.Perm ns) : Gives before ns v := by
  cases gives with
  | nothing =>
    obtain rfl := perm.nil_eq
    exact .nothing
  | text fresh text =>
    obtain rfl := perm.singleton_eq
    exact .text fresh text

theorem Gives.isSome (gives : Gives before ms v) (given : ms ≠ []) : v.isSome = true := by
  cases gives with
  | nothing => exact absurd rfl given
  | text => rfl

theorem Gives.sole (gives : Gives before ms v) :
    ms.length ≤ 1 ∧ ∀ m ∈ ms, ∃ t, m.IsText t := by
  cases gives with
  | nothing => exact ⟨Nat.zero_le 1, List.forall_mem_nil _⟩
  | text fresh text => exact ⟨Nat.le_refl 1, List.forall_mem_singleton.mpr ⟨_, text⟩⟩

end Json

namespace ServerConfig

open Json (Member Gives named members separator)

inductive Field where
  | rootDir
  | socketPath
  | renderOptions
  deriving DecidableEq

namespace Field

def all : List Field :=
  [.rootDir, .socketPath, .renderOptions]

def name : Field → String
  | .rootDir => "root_dir"
  | .socketPath => "socket_path"
  | .renderOptions => "render_options"

theorem name_injective {f g : Field} (same : f.name = g.name) : f = g := by
  revert same
  cases f <;> cases g <;> decide

end Field

namespace Draft

def get (d : Draft) : Field → Option String
  | .rootDir => d.rootDir
  | .socketPath => d.socketPath
  | .renderOptions => d.renderOptions

def set (d : Draft) (f : Field) (t : String) : Draft :=
  match f with
  | .rootDir => { d with rootDir := some t }
  | .socketPath => { d with socketPath := some t }
  | .renderOptions => { d with renderOptions := some t }

variable {d e : Draft} {f g : Field} {t : String}

theorem get_set_same (d : Draft) (f : Field) (t : String) : (d.set f t).get f = some t := by
  cases f <;> rfl

theorem get_set_other (other : f ≠ g) (d : Draft) (t : String) : (d.set f t).get g = d.get g := by
  cases f <;> cases g <;> first | rfl | exact absurd rfl other

theorem eq_of_get (same : ∀ f, d.get f = e.get f) : d = e := by
  obtain ⟨_, _, _⟩ := d
  have root := same .rootDir
  have socket := same .socketPath
  have options := same .renderOptions
  simp only [get] at root socket options
  rw [root, socket, options]

theorem field_name (d : Draft) (f : Field) : d.field f.name =
    if (d.get f).isSome then .repeated
    else .wanted fun ts => (Json.readString ts).map fun r => (d.set f r.1, r.2) := by
  cases f <;> rfl

theorem field_of_unknown {name : String} (d : Draft) (unknown : ∀ f : Field, name ≠ f.name) :
    d.field name = .unknown := by
  have root : name ≠ "root_dir" := unknown .rootDir
  have socket : name ≠ "socket_path" := unknown .socketPath
  have options : name ≠ "render_options" := unknown .renderOptions
  rw [field, if_neg root, if_neg socket, if_neg options]

/-- What a draft makes of a member: one of another name leaves it as it is, and a field that has no
text yet takes the text of a string. -/
inductive Takes (d : Draft) (m : Member) : Draft → Prop
  | unknown (unknown : ∀ f : Field, m.name ≠ f.name) : Takes d m d
  | text {f : Field} {t : String} (named : m.name = f.name) (fresh : d.get f = none)
      (text : m.IsText t) : Takes d m (d.set f t)

variable {m : Member} {ms : List Member}

theorem read_of_takes (takes : d.Takes m e) (first : Bool) (ts : List Json.Token) :
    (members first (separator first ++ (m.tokens ++ ts))).read field d =
      (members false ts).read field e := by
  rw [m.members_tokens, Json.Members.read, String.ofList_toList]
  cases takes with
  | unknown unknown => rw [d.field_of_unknown unknown]
  | text named fresh text =>
    rw [named, d.field_name, fresh]
    simp only [Option.isSome_none, Bool.false_eq_true, if_false, text.readString, Except.map]

theorem takes_of_read {first : Bool} {ts : List Json.Token} {r : Draft × List Json.Token}
    (read : (members first (separator first ++ (m.tokens ++ ts))).read field d = .ok r) :
    ∃ e, d.Takes m e ∧ (members false ts).read field e = .ok r := by
  rw [m.members_tokens, Json.Members.read, String.ofList_toList] at read
  by_cases known : ∃ f : Field, m.name = f.name
  · obtain ⟨f, known⟩ := known
    rw [known, d.field_name] at read
    cases fresh : d.get f with
    | some t =>
      rw [fresh] at read
      cases read
    | none =>
      rw [fresh] at read
      simp only [Option.isSome_none, Bool.false_eq_true, if_false] at read
      cases value : Json.readString (m.value.map Json.Lexeme.token ++ ts) with
      | error p =>
        rw [value] at read
        cases read
      | ok u =>
        rw [value] at read
        exact ⟨_, .text known fresh (Member.isText_of_readString value), read⟩
  · have unknown : ∀ f : Field, m.name ≠ f.name := fun f named => known ⟨f, named⟩
    rw [d.field_of_unknown unknown] at read
    exact ⟨d, .unknown unknown, read⟩

inductive TakesAll : Draft → List Member → Draft → Prop
  | nil (d : Draft) : TakesAll d [] d
  | cons {d e g : Draft} {m : Member} {ms : List Member} (first : d.Takes m e)
      (rest : TakesAll e ms g) : TakesAll d (m :: ms) g

variable {behind : Bool → List Json.Token} {r : Draft × List Json.Token}

theorem read_of_takesAll (takes : d.TakesAll ms e) (first : Bool) :
    ∃ first', (members first (Json.ahead first ms behind)).read field d =
      (members first' (behind first')).read field e := by
  induction takes generalizing first with
  | nil d => exact ⟨first, rfl⟩
  | cons taken _ ih =>
    obtain ⟨first', read⟩ := ih false
    exact ⟨first', (read_of_takes taken first _).trans read⟩

theorem takesAll_of_read {first : Bool}
    (read : (members first (Json.ahead first ms behind)).read field d = .ok r) :
    ∃ e first', d.TakesAll ms e ∧ (members first' (behind first')).read field e = .ok r := by
  induction ms generalizing d first with
  | nil => exact ⟨d, first, .nil d, read⟩
  | cons m ms ih =>
    obtain ⟨e, taken, read⟩ := takes_of_read read
    obtain ⟨g, first', rest, read⟩ := ih read
    exact ⟨g, first', .cons taken rest, read⟩

theorem named_cons_same (same : m.name = f.name) :
    named (m :: ms) f.name = m :: named ms f.name :=
  List.filter_cons_of_pos (by simp [same])

theorem named_cons_other (other : m.name ≠ f.name) : named (m :: ms) f.name = named ms f.name :=
  List.filter_cons_of_neg (by simp [other])

theorem gives_of_takesAll (takes : d.TakesAll ms e) (f : Field) :
    Gives (d.get f) (named ms f.name) (e.get f) := by
  induction takes with
  | nil d => exact .nothing
  | cons first _ ih =>
    cases first with
    | unknown unknown => rwa [named_cons_other (unknown f)]
    | @text g t same fresh text =>
      by_cases here : g = f
      · subst here
        rw [get_set_same] at ih
        rw [named_cons_same same]
        exact ih.cons fresh text
      · rw [get_set_other here] at ih
        rwa [named_cons_other fun other => here (Field.name_injective (same.symm.trans other))]

theorem takesAll_of_gives (gives : ∀ f, Gives (d.get f) (named ms f.name) (e.get f)) :
    d.TakesAll ms e := by
  induction ms generalizing d with
  | nil =>
    obtain rfl : d = e := eq_of_get fun f => by
      have none : Gives (d.get f) [] (e.get f) := gives f
      generalize d.get f = before at none
      generalize e.get f = after at none
      cases none
      rfl
    exact .nil d
  | cons m ms ih =>
    by_cases known : ∃ f : Field, m.name = f.name
    · obtain ⟨f, known⟩ := known
      have given := gives f
      rw [named_cons_same known] at given
      obtain ⟨fresh, t, text, rest⟩ := given.of_cons
      refine .cons (.text known fresh text) (ih ?_)
      intro g
      by_cases here : f = g
      · subst here
        rwa [get_set_same]
      · have others := gives g
        rw [named_cons_other fun other => here (Field.name_injective (known.symm.trans other))]
          at others
        rwa [get_set_other here]
    · have unknown : ∀ f : Field, m.name ≠ f.name := fun f named => known ⟨f, named⟩
      refine .cons (.unknown unknown) (ih ?_)
      intro f
      have others := gives f
      rwa [named_cons_other (unknown f)] at others

theorem ofDocument_of_brace {s : List Char} {ts : List Json.Token}
    (lexed : Json.lex s = .openBrace :: ts) (d : Draft) :
    ofDocument s = .ok d ↔ (members true ts).read field {} = .ok (d, []) := by
  rw [ofDocument, Json.readDocument, lexed, reader]
  cases (members true ts).read field {} with
  | error p => exact iff_of_false nofun nofun
  | ok r =>
    obtain ⟨e, _ | ⟨t, rest⟩⟩ := r
    · simp
    · simp

/-- An object is read as a draft just if every field is given by its members. -/
theorem ofDocument_object_iff {s : List Char} (object : Json.ObjectText ms s) :
    ofDocument s = .ok d ↔ ∀ f, Gives none (named ms f.name) (d.get f) := by
  have start (f : Field) : ({} : Draft).get f = none := by cases f <;> rfl
  rw [ofDocument_of_brace (Json.lex_object object)]
  constructor
  · intro read f
    obtain ⟨e, first, takes, read⟩ := takesAll_of_read read
    rw [Json.members_closeBrace] at read
    cases read
    rw [← start f]
    exact gives_of_takesAll takes f
  · intro gives
    have takes : ({} : Draft).TakesAll ms d := takesAll_of_gives fun f => by
      rw [start]
      exact gives f
    obtain ⟨first, read⟩ : ∃ first,
        (members true (Json.ahead true ms fun _ => [.closeBrace])).read field {} =
          (members first [.closeBrace]).read field d := read_of_takesAll takes true
    rw [read, Json.members_closeBrace]
    rfl

variable {next : List Json.Lexeme} {key : List Json.Piece} {rest s : List Char}

theorem exists_ahead_of_opens (opens : Json.Opens ms next rest s) (read : ofDocument s = .ok d) :
    ∃ e first, ({} : Draft).TakesAll ms e ∧
      (members first (separator first ++ (next.map Json.Lexeme.token ++ Json.lex rest))).read field e =
        .ok (d, []) :=
  takesAll_of_read ((ofDocument_of_brace (Json.lex_opens opens) d).mp read)

/-- No draft is read where a field is given again. -/
theorem ofDocument_ne_of_again (opens : Json.Opens ms [.string key] rest s)
    (stands : Json.StandFor key f.name.toList) (given : named ms f.name ≠ []) :
    ofDocument s ≠ .ok d := by
  intro read
  obtain ⟨e, first, takes, read⟩ := exists_ahead_of_opens opens read
  have taken : (e.get f).isSome = true := (gives_of_takesAll takes f).isSome given
  have repeated : e.field (String.ofList f.name.toList) = .repeated := by
    rw [String.ofList_toList, field_name, if_pos taken]
  rw [List.map_singleton, Json.token_string, Json.strictText_of_standFor stands] at read
  obtain ⟨value, more, again⟩ := Json.members_key first f.name.toList (.ok ()) (Json.lex rest)
  rw [List.singleton_append, again, Json.Members.read_repeated repeated] at read
  cases read

theorem ofDocument_ne_of_other (opens : Json.Opens ms [.string key, .colon] rest s)
    (stands : Json.StandFor key f.name.toList)
    (other : (rest.dropWhile Json.isBlank).head? ≠ some '"') : ofDocument s ≠ .ok d := by
  intro read
  obtain ⟨e, first, takes, read⟩ := exists_ahead_of_opens opens read
  rw [List.map_cons, Json.token_string, Json.strictText_of_standFor stands] at read
  obtain ⟨more, colon⟩ := Json.members_colon first f.name.toList (.ok ()) (Json.lex rest)
  obtain ⟨p, refused⟩ := Json.readString_lex other
  have value : members first (separator first ++
      (.string (.ok f.name.toList) (.ok ()) :: [Json.Lexeme.colon].map Json.Lexeme.token ++
        Json.lex rest)) = .member f.name.toList (.ok (Json.lex rest)) more := colon
  rw [value, Json.Members.read, String.ofList_toList, field_name] at read
  cases taken : (e.get f).isSome with
  | true =>
    rw [taken] at read
    cases read
  | false =>
    rw [taken] at read
    simp only [Bool.false_eq_true, if_false, refused, Except.map] at read
    cases read

end Draft

def known (ms : List Member) : List Member :=
  ms.filter fun m => Field.all.any (m.name = ·.name)

theorem named_known (ms : List Member) (f : Field) : named (known ms) f.name = named ms f.name := by
  rw [named, known, List.filter_filter]
  refine List.filter_congr ?_
  intro m _
  rw [Bool.and_eq_left_iff_imp]
  intro same
  have every : f ∈ Field.all := by cases f <;> decide
  exact List.any_eq_true.mpr ⟨f, every, same⟩

/-- The members give the values to the fields. -/
def GivenBy (ms : List Member) (values : Field → Option String) : Prop :=
  ∀ f, Gives none (named ms f.name) (values f)

variable {ms ns : List Member} {values : Field → Option String} {s t : List Char}

theorem GivenBy.of_known (given : GivenBy ms values) (perm : (known ms).Perm (known ns)) :
    GivenBy ns values := by
  intro f
  have gives := given f
  rw [← named_known] at gives ⊢
  exact gives.perm (perm.filter _)

variable (path : Path) (lookup : String → Option String) (temporary : Path)

def loadText (s : List Char) : Except Failure ServerConfig :=
  load (some (path, some (.ok (Text.encodeUtf8 s)))) lookup temporary

def Refused (s : List Char) : Prop :=
  ∃ p, loadText path lookup temporary s =
    .error ⟨["Failed to parse config: " ++ path.display], .json p⟩

def ofValues (values : Field → Option String) : ServerConfig :=
  { rootDir := ((values .rootDir).map .ofString).getD temporary
    socketPath := ((values .socketPath).map .ofString).getD (.ofString "tmp/.vortek/V0")
    renderOptions := (values .renderOptions).getD "" }

theorem loadText_eq : loadText path lookup temporary s =
    match Draft.ofDocument s with
    | .ok d => .ok ((d.complete temporary).override lookup)
    | .error p => .error ⟨["Failed to parse config: " ++ path.display], .json p⟩ := by
  rw [loadText, load, Draft.ofFile, Draft.ofBytes, Text.decodeUtf8?_encodeUtf8]
  dsimp only
  cases Draft.ofDocument s <;> rfl

theorem loadText_of_given (object : Json.ObjectText ms s) (given : GivenBy ms values) :
    loadText path lookup temporary s = .ok ((ofValues temporary values).override lookup) := by
  let d : Draft := ⟨values .rootDir, values .socketPath, values .renderOptions⟩
  have read : Draft.ofDocument s = .ok d := (Draft.ofDocument_object_iff object).mpr fun f => by
    cases f <;> exact given _
  rw [loadText_eq, read]
  rfl

theorem refused_of_ne (none : ∀ d, Draft.ofDocument s ≠ .ok d) :
    Refused path lookup temporary s := by
  cases read : Draft.ofDocument s with
  | ok d => exact absurd read (none d)
  | error p => exact ⟨p, by rw [loadText_eq, read]⟩

/-- An object is refused if it gives a field twice, or gives it something that is no text. -/
theorem refused_of_wrong {f : Field} (object : Json.ObjectText ms s)
    (wrong : 2 ≤ (named ms f.name).length ∨ ∃ m ∈ named ms f.name, ∀ t, ¬ m.IsText t) :
    Refused path lookup temporary s := by
  refine refused_of_ne path lookup temporary ?_
  intro d read
  obtain ⟨once, texts⟩ := ((Draft.ofDocument_object_iff object).mp read f).sole
  rcases wrong with twice | ⟨m, member, other⟩
  · exact Nat.not_succ_le_self 1 (Nat.le_trans twice once)
  · obtain ⟨t, text⟩ := texts m member
    exact other t text

theorem object_or_refused (brace : (s.dropWhile Json.isBlank).head? = some '\x7b') :
    (∃ ms, Json.ObjectText ms s) ∨ Refused path lookup temporary s := by
  obtain ⟨ts, lexed⟩ := Json.exists_lex_of_brace brace
  cases read : Draft.ofDocument s with
  | ok d => exact .inl (Json.exists_object lexed ((Draft.ofDocument_of_brace lexed d).mp read))
  | error p => exact .inr ⟨p, by rw [loadText_eq, read]⟩

theorem loadText_of_known (first : Json.ObjectText ms s) (second : Json.ObjectText ns t)
    (perm : (known ms).Perm (known ns)) {c : ServerConfig}
    (loaded : loadText path lookup temporary s = .ok c) :
    loadText path lookup temporary t = .ok c := by
  rw [loadText_eq] at loaded ⊢
  cases read : Draft.ofDocument s with
  | error p =>
    rw [read] at loaded
    cases loaded
  | ok d =>
    have given : GivenBy ms d.get := (Draft.ofDocument_object_iff first).mp read
    have same : Draft.ofDocument t = .ok d :=
      (Draft.ofDocument_object_iff second).mpr (given.of_known perm)
    rwa [same, ← read]

theorem loadText_congr (first : Json.ObjectText ms s) (second : Json.ObjectText ms t) :
    loadText path lookup temporary s = loadText path lookup temporary t := by
  have same : Draft.ofDocument s = Draft.ofDocument t := by
    rw [Draft.ofDocument, Json.readDocument, Json.lex_object first, ← Json.lex_object second,
      ← Json.readDocument, ← Draft.ofDocument]
  rw [loadText_eq, same, ← loadText_eq]

end ServerConfig

open Json (Body Digits IsValue Lexeme Member ObjectText Opens Piece StandFor body_iff named)
open ServerConfig (Draft Field GivenBy Refused known loadText ofValues)

/-- An object that gives each known field at most once, by a string, is loaded: a field is what its
member says, or its default. Other members, the order and the blanks do not count. Any other text
that begins like an object is refused. -/
theorem fields_decided (path : Path) (lookup : String → Option String) (temporary : Path) :
    (∀ ms s, ObjectText ms s → ∀ values, GivenBy ms values →
      loadText path lookup temporary s = .ok ((ofValues temporary values).override lookup)) ∧
    (∀ ms s, ObjectText ms s → ∀ f : Field,
      (2 ≤ (named ms f.name).length ∨ ∃ m ∈ named ms f.name, ∀ t, ¬ m.IsText t) →
      Refused path lookup temporary s) ∧
    (∀ s : List Char, (s.dropWhile Json.isBlank).head? = some '\x7b' →
      (∃ ms, ObjectText ms s) ∨ Refused path lookup temporary s) ∧
    (∀ ms ns s t, ObjectText ms s → ObjectText ns t → (known ms).Perm (known ns) → ∀ c,
      (loadText path lookup temporary s = .ok c ↔ loadText path lookup temporary t = .ok c)) ∧
    (∀ ms s t, ObjectText ms s → ObjectText ms t →
      loadText path lookup temporary s = loadText path lookup temporary t) ∧
    (∀ (f : Field) ms key rest s, Opens ms [.string key] rest s → StandFor key f.name.toList →
      named ms f.name ≠ [] → Refused path lookup temporary s) ∧
    ∀ (f : Field) ms key rest s, Opens ms [.string key, .colon] rest s →
      StandFor key f.name.toList → (rest.dropWhile Json.isBlank).head? ≠ some '"' →
      Refused path lookup temporary s := by
  refine ⟨?_, ?_, ?_, ?_, ?_, ?_, ?_⟩
  · intro ms s object values given
    exact ServerConfig.loadText_of_given path lookup temporary object given
  · intro ms s object f wrong
    exact ServerConfig.refused_of_wrong path lookup temporary object wrong
  · intro s brace
    exact ServerConfig.object_or_refused path lookup temporary brace
  · intro ms ns s t first second perm c
    exact ⟨ServerConfig.loadText_of_known path lookup temporary first second perm,
      ServerConfig.loadText_of_known path lookup temporary second first perm.symm⟩
  · intro ms s t first second
    exact ServerConfig.loadText_congr path lookup temporary first second
  · intro f ms key rest s opens stands given
    exact ServerConfig.refused_of_ne path lookup temporary fun d =>
      Draft.ofDocument_ne_of_again opens stands given
  · intro f ms key rest s opens stands other
    exact ServerConfig.refused_of_ne path lookup temporary fun d =>
      Draft.ofDocument_ne_of_other opens stands other

/-- A member that does not count repeats a name in its value and holds half of a surrogate pair there;
the name of a field has an escape. -/
theorem fields_decided_nested :
    let path : Path := .ofString "c.json"
    let loaded (s : String) := loadText path (fun _ => none) (.ofString "/v") s.toList
    let refused (s : String) := Refused path (fun _ => none) (.ofString "/v") s.toList
    let c : ServerConfig := ⟨.ofString "/r", .ofString "", ""⟩
    loaded ("\x7b\"note\":\x7b\"a\":0,\"a\":\"\\ud800\"\x7d," ++
        "\"root_dir\":\"/r\",\"socket\\u005fpath\":\"\"\x7d") = .ok c ∧
      loaded "\x7b\"socket\\u005fpath\":\"\",\"root_dir\":\"/r\"\x7d" = .ok c ∧
      loaded "\x7b \"socket\\u005fpath\":\"\", \"root_dir\":\"/r\"\x7d" = .ok c ∧
      refused "\x7b\"root_dir\":null\x7d" ∧ refused "\x7b" ∧
      refused "\x7b\"root_dir\":\"/r\",\"root_dir\"!" ∧ refused "\x7b\"root_dir\":[" := by
  intro path loaded refused c
  obtain ⟨given, wrong, other, fields, blanks, again, begun⟩ :=
    fields_decided path (fun _ => none) (.ofString "/v")
  let chars (t : String) := t.toList.map Piece.char
  let escaped := chars "socket" ++ .unit 0x5F :: chars "path"
  have digits : Digits ['0'] := ⟨List.cons_ne_nil _ _, List.forall_mem_singleton.mpr rfl⟩
  have number := Json.Number.Spelled.mk (n := ⟨false, ['0'], none, none⟩) digits (fun _ => rfl)
    .none .none
  have a : Body (chars "a") "a".toList := body_iff.mpr rfl
  have half : Body [.unit 0xD800] "\\ud800".toList := body_iff.mpr rfl
  have noteKey : Body (chars "note") "note".toList := body_iff.mpr rfl
  have rootKey : Body (chars "root_dir") "root_dir".toList := body_iff.mpr rfl
  have rootText : Body (chars "/r") "/r".toList := body_iff.mpr rfl
  have socketKey : Body escaped "socket\\u005fpath".toList := body_iff.mpr rfl
  let inner : List (List Piece × List Lexeme) :=
    [(chars "a", [.number ⟨false, ['0'], none, none⟩]), (chars "a", [.string [.unit 0xD800]])]
  have nested : IsValue
      (.openBrace :: [Lexeme.comma].intercalate (inner.map Json.entry) ++ [.closeBrace]) :=
    .object (List.forall_mem_cons.mpr ⟨.number _, List.forall_mem_singleton.mpr (.string _)⟩)
  let note : Member := ⟨chars "note", "note", Json.standFor_chars _, _, nested⟩
  let null : Member := ⟨chars "root_dir", "root_dir", Json.standFor_chars _, _, .word .null⟩
  let root : Member :=
    ⟨chars "root_dir", "root_dir", Json.standFor_chars _, _, .string (chars "/r")⟩
  let socket : Member :=
    ⟨escaped, "socket_path", Json.joinPieces_eq_some_iff.mp rfl, _, .string []⟩
  have first : ObjectText [note, root, socket] ("\x7b\"note\":\x7b\"a\":0,\"a\":\"\\ud800\"\x7d," ++
      "\"root_dir\":\"/r\",\"socket\\u005fpath\":\"\"\x7d").toList :=
    .lexeme .openBrace trivial <| .keyed noteKey <| .lexeme .openBrace trivial <| .keyed a <|
    .lexeme (.number number) (by rintro c ⟨⟩; decide) <| .lexeme .comma trivial <| .keyed a <|
    .quoted half <| .lexeme .closeBrace trivial <| .lexeme .comma trivial <| .keyed rootKey <|
    .quoted rootText <| .lexeme .comma trivial <| .keyed socketKey <| .quoted .nil <|
    .lexeme .closeBrace trivial .nil
  have second : ObjectText [socket, root]
      "\x7b\"socket\\u005fpath\":\"\",\"root_dir\":\"/r\"\x7d".toList :=
    .lexeme .openBrace trivial <| .keyed socketKey <| .quoted .nil <| .lexeme .comma trivial <|
    .keyed rootKey <| .quoted rootText <| .lexeme .closeBrace trivial .nil
  have third : ObjectText [socket, root]
      "\x7b \"socket\\u005fpath\":\"\", \"root_dir\":\"/r\"\x7d".toList :=
    .lexeme .openBrace trivial <| .blank (.head _) <| .keyed socketKey <| .quoted .nil <|
    .lexeme .comma trivial <| .blank (.head _) <| .keyed rootKey <| .quoted rootText <|
    .lexeme .closeBrace trivial .nil
  have loads : loaded ("\x7b\"note\":\x7b\"a\":0,\"a\":\"\\ud800\"\x7d," ++
      "\"root_dir\":\"/r\",\"socket\\u005fpath\":\"\"\x7d") = .ok c :=
    given _ _ first (Draft.mk (some "/r") (some "") none).get fun f => by
      cases f with
      | rootDir => exact .text rfl ⟨_, rfl, Json.standFor_chars _⟩
      | socketPath => exact .text rfl ⟨_, rfl, .nil⟩
      | renderOptions => exact .nothing
  have permuted : loaded "\x7b\"socket\\u005fpath\":\"\",\"root_dir\":\"/r\"\x7d" = .ok c :=
    (fields _ _ _ _ first second (.swap socket root []) c).mp loads
  refine ⟨loads, permuted, (blanks _ _ _ third second).trans permuted, ?_, ?_, ?_, ?_⟩
  · refine wrong [null] _ ?_ .rootDir (.inr ⟨null, .head _, ?_⟩)
    · exact .lexeme .openBrace trivial <| .keyed rootKey <| .lexeme (.word .null) trivial <|
        .lexeme .closeBrace trivial .nil
    · rintro t ⟨ps, value, -⟩
      cases value
  · rcases other "\x7b".toList rfl with ⟨ms, object⟩ | refused
    · have alone : Json.lex "\x7b".toList = [.openBrace] := by
        rw [show "\x7b".toList = ['\x7b'] from rfl, Json.lex_cons rfl, Json.lexFrom, Json.lex]
      cases ms <;> cases alone.symm.trans (Json.lex_object object)
    · exact refused
  · refine again .rootDir [root] (chars "root_dir") ['!'] _ ?_ (Json.standFor_chars _)
      (List.cons_ne_nil root [])
    exact .lexeme .openBrace trivial <| .keyed rootKey <| .quoted rootText <|
      .lexeme .comma trivial <| .quoted rootKey .nil
  · refine begun .rootDir [] (chars "root_dir") ['['] _ ?_ (Json.standFor_chars _) (by decide)
    exact .lexeme .openBrace trivial <| .keyed rootKey .nil

end RenderBroker

import RenderBroker.Options.Document
import RenderBroker.Proofs.Encodings
import RenderBroker.Proofs.Skipping
import RenderBroker.Server.Config

namespace RenderBroker

namespace Json

theorem tokens_object (ms : List (List Char × Value)) (ts : List Token) :
    (Value.object ms).tokens ++ ts =
      .openBrace :: (memberTokens true ms ++ .closeBrace :: ts) := by
  simp [Value.tokens]

def Value.Skips (v : Value) : Prop :=
  ∀ frames ts, skipFrom frames .value (v.tokens ++ ts) = resume frames ts

theorem itemTokens_eq (first : Bool) (items : List Value) : itemTokens first items =
    if first then [Token.comma].intercalate (items.map Value.tokens)
    else (items.map Value.tokens).flatMap (.comma :: ·) := by
  induction items generalizing first with
  | nil => cases first <;> rfl
  | cons v vs ih =>
    rw [itemTokens, ih, List.map_cons, intercalate_cons]
    cases first <;> rfl

theorem memberTokens_eq (first : Bool) (ms : List (List Char × Value)) : memberTokens first ms =
    if first then [Token.comma].intercalate ((ms.map fun m => (.ok m.1, m.2.tokens)).map keyed)
    else ((ms.map fun m => (.ok m.1, m.2.tokens)).map keyed).flatMap (.comma :: ·) := by
  induction ms generalizing first with
  | nil => cases first <;> rfl
  | cons m ms ih =>
    rw [memberTokens, ih, List.map_cons, List.map_cons, intercalate_cons]
    cases first <;> rfl

theorem skips_of_plain {v : Value} (plain : v.Plain) : v.Skips := by
  induction plain with
  | null | natural | string =>
    intro frames ts
    rfl
  | bool b =>
    intro frames ts
    cases b <;> rfl
  | @list items _ each =>
    have skips : Skips (.openBracket :: itemTokens true items ++ [.closeBracket]) := by
      rw [itemTokens_eq]
      exact .list (List.forall_mem_map.mpr each)
    rwa [← Value.tokens] at skips
  | @object ms _ each =>
    have skips : Skips (.openBrace :: memberTokens true ms ++ [.closeBrace]) := by
      rw [memberTokens_eq]
      exact .object (List.forall_mem_map.mpr each)
    rwa [← Value.tokens] at skips

/-- A reader takes a value that is written down for what it is, and nothing more. -/
def Reads {α : Type} (read : Reader α) (v : Value) (a : α) : Prop :=
  ∀ ts, read (v.tokens ++ ts) = .ok (a, ts)

theorem Reads.map {α β : Type} {read : Reader α} {v : Value} {a : α} (reads : Reads read v a)
    (f : α → β) : Reads (fun ts => (read ts).map fun r => (f r.1, r.2)) v (f a) := by
  intro ts
  dsimp only
  rw [reads ts]
  rfl

theorem reads_natural {max n : Nat} (most : n ≤ max) (fits : n ≤ maxSignificand) :
    Reads (readNatural max) (.natural n) n := by
  intro ts
  simp [Value.natural, Value.tokens, readNatural, natural?_ofNat fits, most]

theorem reads_text (s : String) : Reads readString (.text s) s := by
  intro ts
  simp [Value.text, Value.tokens, readString, Token.text, Except.map]

theorem readMoreStrings_tokens (names : List String) (ts : List Token) :
    readMoreStrings (itemTokens false (names.map Value.text) ++ .closeBracket :: ts) =
      .ok (names, ts) := by
  induction names with
  | nil => rfl
  | cons name names ih =>
    simp [itemTokens, separator, Value.text, Value.tokens, readMoreStrings, Token.text, ih, bind,
      Except.bind, pure, Except.pure]

theorem reads_strings (names : List String) :
    Reads readStrings (.list (names.map Value.text)) names := by
  intro ts
  cases names with
  | nil => rfl
  | cons name names =>
    have more := readMoreStrings_tokens names ts
    simp [itemTokens, separator, Value.text, Value.tokens, readStrings, Token.text, more, bind,
      Except.bind, pure, Except.pure]

theorem readDocument_compact {α : Type} {read : Reader α} {v : Value} {a : α} (plain : v.Plain)
    (reads : Reads read v a) : readDocument read v.compact = .ok a := by
  have tokens := lex_compact plain [] (by simp [Stops])
  have value := reads []
  rw [List.append_nil, lex, List.append_nil] at tokens
  rw [List.append_nil] at value
  rw [readDocument, tokens, value]

theorem members_nil (first : Bool) (ts : List Token) :
    members first (memberTokens first [] ++ .closeBrace :: ts) = .done ts := by
  rw [memberTokens, List.nil_append, members_closeBrace]

theorem members_cons (first : Bool) (k : List Char) {v : Value} (plain : v.Plain)
    (ms : List (List Char × Value)) (ts : List Token) :
    members first (memberTokens first ((k, v) :: ms) ++ .closeBrace :: ts) =
      .member k (.ok (v.tokens ++ (memberTokens false ms ++ .closeBrace :: ts)))
        (members false (memberTokens false ms ++ .closeBrace :: ts)) := by
  rw [memberTokens, List.append_assoc, List.append_assoc]
  exact members_skips (skips_of_plain plain) first k (.ok ()) _

variable {δ : Type} {field : δ → String → MemberRole δ} {d e : δ}

/-- A record takes members that are written down one after the other. -/
inductive Gathers (field : δ → String → MemberRole δ) : δ → List (List Char × Value) → δ → Prop
  | nil (d : δ) : Gathers field d [] d
  | cons {d e f : δ} {k : String} {v : Value} {ms : List (List Char × Value)} {read : Reader δ}
      (plain : v.Plain) (wanted : field d k = .wanted read) (reads : Reads read v e)
      (rest : Gathers field e ms f) : Gathers field d ((k.toList, v) :: ms) f

theorem Gathers.plain {ms : List (List Char × Value)} (gathers : Gathers field d ms e) :
    (Value.object ms).Plain := by
  refine .object ?_
  induction gathers with
  | nil => simp
  | cons plain _ _ _ ih => exact List.forall_mem_cons.mpr ⟨plain, ih⟩

theorem Gathers.read {ms : List (List Char × Value)} (gathers : Gathers field d ms e) (first : Bool)
    (ts : List Token) :
    (members first (memberTokens first ms ++ .closeBrace :: ts)).read field d = .ok (e, ts) := by
  induction gathers generalizing first with
  | nil d =>
    rw [members_nil]
    rfl
  | cons plain wanted reads _ ih =>
    rw [members_cons first _ plain, Members.read, String.ofList_toList, wanted]
    simp only [reads _, ih]

end Json

open Json (Value Reads)

namespace ApiVersion

theorem fits (v : ApiVersion) : v.packed.toNat ≤ Json.maxSignificand :=
  Nat.le_trans (Nat.le_of_lt v.packed.toNat_lt) (by decide)

theorem reads_value (v : ApiVersion) : Reads ApiVersion.reader v.value v := by
  have natural : Reads (Json.readNatural (UInt32.size - 1)) v.value v.packed.toNat :=
    Json.reads_natural (Nat.le_sub_one_of_lt v.packed.toNat_lt) v.fits
  have packed := natural.map fun n => (⟨UInt32.ofNat n⟩ : ApiVersion)
  rw [UInt32.ofNat_toNat] at packed
  exact packed

end ApiVersion

theorem ExposedExtensions.plain_value (e : ExposedExtensions) : e.value.Plain := by
  cases e with
  | all => exact .string _
  | only names =>
    refine .object (List.forall_mem_singleton.mpr (.list ?_))
    intro v member
    obtain ⟨name, -, rfl⟩ := List.mem_map.mp member
    exact .string _

theorem ExposedExtensions.reads_value (e : ExposedExtensions) :
    Reads ExposedExtensions.reader e.value e := by
  intro ts
  cases e with
  | all => rfl
  | only names =>
    have names := Json.reads_strings names (.closeBrace :: ts)
    simp [ExposedExtensions.value, Json.tokens_object, Json.memberTokens, Json.separator,
      ExposedExtensions.reader, Json.expect, Json.Token.isColon, Json.Token.isCloseBrace, names,
      bind, Except.bind, pure, Except.pure]

namespace RenderOptions

theorem fits_amount (n : UInt16) : n.toNat ≤ Json.maxSignificand :=
  Nat.le_trans (Nat.le_of_lt n.toNat_lt) (by decide)

theorem reads_amount (n : UInt16) : Reads readAmount (.natural n.toNat) n := by
  have natural : Reads (Json.readNatural 65535) (.natural n.toNat) n.toNat :=
    Json.reads_natural (Nat.le_sub_one_of_lt n.toNat_lt) (fits_amount n)
  have amount := natural.map UInt16.ofNat
  rw [UInt16.ofNat_toNat] at amount
  exact amount

theorem gathers_members (o : RenderOptions) : Json.Gathers Draft.field {}
    [("max_api_version".toList, o.maxVersion.value),
      ("max_device_memory".toList, .natural o.deviceMemory.toNat),
      ("image_cache_size".toList, .natural o.imageCache.toNat),
      ("exposed_device_extensions".toList, o.extensions.value)]
    ⟨some o.maxVersion, some o.deviceMemory, some o.imageCache, some o.extensions⟩ := by
  let version : Draft := { maxVersion := some o.maxVersion }
  let memory : Draft := { version with deviceMemory := some o.deviceMemory }
  let cache : Draft := { memory with imageCache := some o.imageCache }
  refine .cons (.natural o.maxVersion.fits) rfl
    (o.maxVersion.reads_value.map fun v => ({ maxVersion := some v } : Draft)) ?_
  refine .cons (.natural (fits_amount _)) rfl
    ((reads_amount o.deviceMemory).map fun n => { version with deviceMemory := some n }) ?_
  refine .cons (.natural (fits_amount _)) rfl
    ((reads_amount o.imageCache).map fun n => { memory with imageCache := some n }) ?_
  refine .cons o.extensions.plain_value rfl
    (o.extensions.reads_value.map fun e => { cache with extensions := some e }) ?_
  exact .nil _

theorem ofDocument_compact (o : RenderOptions) : ofDocument o.value.compact = .ok o := by
  refine Json.readDocument_compact o.gathers_members.plain ?_
  intro ts
  rw [value, Json.tokens_object, reader, o.gathers_members.read]
  rfl

end RenderOptions

namespace ServerConfig

theorem value?_ofString (rootDir socketPath renderOptions : String) :
    (ServerConfig.mk (.ofString rootDir) (.ofString socketPath) renderOptions).value? =
      some (.object
        [("root_dir".toList, .text rootDir), ("socket_path".toList, .text socketPath),
          ("render_options".toList, .text renderOptions)]) := by
  rw [value?, Path.text?_eq_some_iff.mpr rfl, Path.text?_eq_some_iff.mpr rfl]
  rfl

theorem gathers_members (rootDir socketPath renderOptions : String) : Json.Gathers Draft.field {}
    [("root_dir".toList, .text rootDir), ("socket_path".toList, .text socketPath),
      ("render_options".toList, .text renderOptions)]
    ⟨some rootDir, some socketPath, some renderOptions⟩ := by
  let root : Draft := { rootDir := some rootDir }
  let socket : Draft := { root with socketPath := some socketPath }
  refine .cons (.string _) rfl
    ((Json.reads_text rootDir).map fun s => ({ rootDir := some s } : Draft)) ?_
  refine .cons (.string _) rfl
    ((Json.reads_text socketPath).map fun s => { root with socketPath := some s }) ?_
  refine .cons (.string _) rfl
    ((Json.reads_text renderOptions).map fun s => { socket with renderOptions := some s }) ?_
  exact .nil _

theorem Draft.ofDocument_compact {v : Value} {d : Draft} {ms : List (List Char × Value)}
    (object : v = .object ms) (gathers : Json.Gathers Draft.field {} ms d) :
    Draft.ofDocument v.compact = .ok d := by
  subst object
  refine Json.readDocument_compact gathers.plain ?_
  intro ts
  rw [Json.tokens_object, Draft.reader, gathers.read]

theorem exists_value (c : ServerConfig) {rootDir socketPath : String}
    (root : c.rootDir = .ofString rootDir) (socket : c.socketPath = .ofString socketPath) :
    ∃ v, c.value? = some v ∧ ∀ temporary, ofDocument v.compact temporary = .ok c := by
  obtain ⟨_, _, renderOptions⟩ := c
  obtain rfl := root
  obtain rfl := socket
  refine ⟨_, value?_ofString .., ?_⟩
  intro temporary
  rw [ofDocument, Draft.ofDocument_compact rfl (gathers_members ..)]
  rfl

end ServerConfig

/-- Render options, and configurations with paths that are text, are read as exactly what was
written as JSON with nothing between its tokens. -/
theorem documents_read_back :
    (∀ o : RenderOptions, RenderOptions.ofDocument o.value.compact = .ok o) ∧
    ∀ c : ServerConfig, (∃ s, c.rootDir = .ofString s) → (∃ s, c.socketPath = .ofString s) →
      ∃ v, c.value? = some v ∧
        ∀ temporary, ServerConfig.ofDocument v.compact temporary = .ok c := by
  refine ⟨RenderOptions.ofDocument_compact, ?_⟩
  rintro c ⟨rootDir, root⟩ ⟨socketPath, socket⟩
  exact c.exists_value root socket

/-- Quotes, backslashes, control characters and characters of every width, and numbers at both ends
of their range. -/
theorem documents_read_back_escaped :
    let o : RenderOptions := ⟨⟨0xFFFFFFFF⟩, 0, 65535, .only ["", "\"\\\x00\n\x7F", "é€𝄞"]⟩
    let c : ServerConfig := ⟨.ofString "/\"é€𝄞", .ofString "", "\\\x1F\t"⟩
    RenderOptions.ofDocument o.value.compact = .ok o ∧
      ∃ v, c.value? = some v ∧ ServerConfig.ofDocument v.compact = .ok c ∧
        v.compactText = "\x7b\"root_dir\":\"/\\\"é€𝄞\",\"socket_path\":\"\"," ++
          "\"render_options\":\"\\\\\\u001f\\t\"\x7d" := by
  intro o c
  obtain ⟨options, configurations⟩ := documents_read_back
  obtain ⟨v, written, read⟩ := configurations c ⟨_, rfl⟩ ⟨_, rfl⟩
  refine ⟨options o, v, written, read _, ?_⟩
  obtain rfl := Option.some.inj ((ServerConfig.value?_ofString ..).symm.trans written)
  rfl

end RenderBroker

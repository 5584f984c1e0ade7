import Mathlib.Data.List.Forall2
import RenderBroker.Options.Settings
import RenderBroker.Proofs.Versions

namespace RenderBroker

namespace Settings

open Text (Numeral)

variable {s t : List Char} {e : Entry} {o p : RenderOptions} {r : Refusal}

/-- A text with an equals sign, as the entry that it is read as. -/
inductive Written : List Char → Entry → Prop
  | mk {k v : List Char} (first : '=' ∉ k) : Written (k ++ '=' :: v) ⟨Text.trim k, Text.trim v⟩

def Key.Takes : Key → List Char → Prop
  | .maxVersion, v => ∃ m n, ApiVersion.Names v m n ∧ m ≤ 127 ∧ n ≤ 1023
  | .deviceMemory, v | .imageCache, v => ∃ n, Numeral v n ∧ n ≤ 65535
  | .extensions, _ => True

/-- The key of an entry is no option's or takes its value. -/
def Entry.Fits (e : Entry) : Prop :=
  ∀ k : Key, e.key = k.name.toList → k.Takes e.value

theorem readEntry_eq_ok_iff : readEntry t = .ok e ↔ Written t e := by
  constructor
  · intro read
    rw [readEntry] at read
    split at read
    next k v split =>
      cases read
      obtain ⟨rfl, first⟩ := Text.cutFirst_eq_some_iff.mp split
      exact .mk first
    next => cases read
  · rintro ⟨first⟩
    rw [readEntry, Text.cutFirst_eq_some_iff.mpr ⟨rfl, first⟩]

theorem readEntry_eq_error_iff : readEntry t = .error r ↔ '=' ∉ t ∧ r = .malformed t := by
  rw [readEntry, ← Text.cutFirst_eq_none_iff]
  split
  next split => simp [split]
  next none => simp [none, eq_comm]

theorem Written.trim_value (written : Written t e) : Text.trim e.value = e.value := by
  cases written
  exact Text.trim_trim _

theorem Written.unique {f : Entry} (first : Written t e) (second : Written t f) : e = f :=
  Except.ok.inj ((readEntry_eq_ok_iff.mpr first).symm.trans (readEntry_eq_ok_iff.mpr second))

theorem exists_written_iff : (∃ e, Written t e) ↔ '=' ∈ t := by
  constructor
  · rintro ⟨e, ⟨first⟩⟩
    simp
  · intro sign
    cases read : readEntry t with
    | ok e => exact ⟨e, readEntry_eq_ok_iff.mp read⟩
    | error r => exact absurd sign (readEntry_eq_error_iff.mp read).1

theorem key?_eq_some_iff {k : Key} : e.key? = some k ↔ e.key = k.name.toList := by
  have distinct : ∀ j k : Key, j.name.toList = k.name.toList ↔ j = k := by
    intro j k
    cases j <;> cases k <;> decide
  constructor
  · intro known
    have same := List.find?_some (p := fun k : Key => k.name.toList == e.key) known
    exact (beq_iff_eq.mp same).symm
  · intro named
    rw [Entry.key?, named]
    cases k <;> simp [Key.all, distinct]

theorem readAmount_eq_ok_iff {n : UInt16} :
    readAmount e = .ok n ↔ Numeral e.value n.toNat := by
  rw [readAmount]
  constructor
  · intro read
    split at read
    next m numeral =>
      cases read
      obtain ⟨numeral, fits⟩ := Text.readNumeral_eq_ok_iff.mp numeral
      rwa [UInt16.toNat_ofNat_of_lt' (Nat.lt_succ_of_le fits)]
    next => cases read
  · intro numeral
    have fits : n.toNat ≤ 65535 := Nat.le_of_lt_succ n.toNat_lt
    rw [Text.readNumeral_eq_ok_iff.mpr ⟨numeral, fits⟩]
    exact congrArg Except.ok UInt16.ofNat_toNat

/-- What an entry does to any options, or why it is refused. -/
inductive Entry.Does (e : Entry) : Except Refusal (RenderOptions → RenderOptions) → Prop
  | unknown (known : e.key? = none) : Does e (.ok id)
  | kept (known : e.key? = some .maxVersion) (kept : e.value = keptVersion) : Does e (.ok id)
  | version (known : e.key? = some .maxVersion) (other : e.value ≠ keptVersion) {v : ApiVersion}
      (read : ApiVersion.read e.value = .ok v) : Does e (.ok fun o => { o with maxVersion := v })
  | noVersion (known : e.key? = some .maxVersion) (other : e.value ≠ keptVersion)
      {why : ApiVersion.ReadError} (refused : ApiVersion.read e.value = .error why) :
      Does e (.error (.version e.value why))
  | memory (known : e.key? = some .deviceMemory) {n : UInt16} (read : readAmount e = .ok n) :
      Does e (.ok fun o => { o with deviceMemory := n })
  | noMemory (known : e.key? = some .deviceMemory) {r : Refusal}
      (refused : readAmount e = .error r) : Does e (.error r)
  | cache (known : e.key? = some .imageCache) {n : UInt16} (read : readAmount e = .ok n) :
      Does e (.ok fun o => { o with imageCache := n })
  | noCache (known : e.key? = some .imageCache) {r : Refusal}
      (refused : readAmount e = .error r) : Does e (.error r)
  | extensions (known : e.key? = some .extensions) :
      Does e (.ok fun o => { o with extensions := .parse e.value })

theorem Entry.exists_does (e : Entry) :
    ∃ change, e.Does change ∧ ∀ o, e.apply o = change.map fun change => change o := by
  unfold apply
  cases known : e.key? with
  | none => exact ⟨_, .unknown known, fun _ => rfl⟩
  | some k =>
    cases k with
    | maxVersion =>
      by_cases kept : e.value = keptVersion
      · exact ⟨_, .kept known kept, fun _ => if_pos kept⟩
      · simp only [if_neg kept]
        cases read : ApiVersion.read e.value with
        | ok v => exact ⟨_, .version known kept read, fun _ => rfl⟩
        | error why => exact ⟨_, .noVersion known kept read, fun _ => rfl⟩
    | deviceMemory =>
      cases read : readAmount e with
      | ok n => exact ⟨_, .memory known read, fun _ => rfl⟩
      | error r => exact ⟨_, .noMemory known read, fun _ => rfl⟩
    | imageCache =>
      cases read : readAmount e with
      | ok n => exact ⟨_, .cache known read, fun _ => rfl⟩
      | error r => exact ⟨_, .noCache known read, fun _ => rfl⟩
    | extensions => exact ⟨_, .extensions known, fun _ => rfl⟩

theorem does_of_apply_ok (applied : e.apply o = .ok p) :
    ∃ change, e.Does (.ok change) ∧ p = change o := by
  obtain ⟨change, does, apply⟩ := e.exists_does
  rw [apply] at applied
  cases change with
  | ok change =>
    cases applied
    exact ⟨change, does, rfl⟩
  | error r => cases applied

theorem does_of_apply_error (refused : e.apply o = .error r) :
    e.Does (.error r) ∧ ∀ p, e.apply p = .error r := by
  obtain ⟨change, does, apply⟩ := e.exists_does
  rw [apply] at refused
  cases change with
  | ok change => cases refused
  | error q =>
    cases refused
    exact ⟨does, apply⟩

/-- The refusals that name an entry's value, and its key where several have values of this kind. -/
inductive Refusal.Blames (e : Entry) : Key → Refusal → Prop
  | version (why : ApiVersion.ReadError) : Blames e .maxVersion (.version e.value why)
  | deviceMemory (why : Text.NumeralError) : Blames e .deviceMemory (.amount e.key e.value why)
  | imageCache (why : Text.NumeralError) : Blames e .imageCache (.amount e.key e.value why)

theorem readAmount_error (refused : readAmount e = .error r) :
    ∃ why, r = .amount e.key e.value why := by
  rw [readAmount] at refused
  split at refused
  next => cases refused
  next why _ =>
    cases refused
    exact ⟨why, rfl⟩

theorem blames_of_apply_error (refused : e.apply o = .error r) :
    ∃ k : Key, e.key = k.name.toList ∧ r.Blames e k := by
  simp only [← key?_eq_some_iff]
  cases (does_of_apply_error refused).1 with
  | noVersion known _ refused => exact ⟨.maxVersion, known, .version _⟩
  | noMemory known refused =>
    obtain ⟨why, rfl⟩ := readAmount_error refused
    exact ⟨.deviceMemory, known, .deviceMemory why⟩
  | noCache known refused =>
    obtain ⟨why, rfl⟩ := readAmount_error refused
    exact ⟨.imageCache, known, .imageCache why⟩

theorem takes_version_iff (trimmed : Text.trim t = t) :
    Key.maxVersion.Takes t ↔ ∃ v, ApiVersion.read t = .ok v := by
  constructor
  · rintro ⟨m, n, names, large, small⟩
    exact ⟨_, ApiVersion.read_eq_ok_iff.mpr ⟨m, n, trimmed.symm ▸ names, large, small, rfl⟩⟩
  · rintro ⟨v, read⟩
    obtain ⟨m, n, names, large, small, -⟩ := ApiVersion.read_eq_ok_iff.mp read
    exact ⟨m, n, trimmed ▸ names, large, small⟩

theorem takes_amount_iff :
    (∃ n, Numeral e.value n ∧ n ≤ 65535) ↔ ∃ n, readAmount e = .ok n := by
  simp only [readAmount_eq_ok_iff]
  constructor
  · rintro ⟨n, numeral, fits⟩
    refine ⟨UInt16.ofNat n, ?_⟩
    rwa [UInt16.toNat_ofNat_of_lt' (Nat.lt_succ_of_le fits)]
  · rintro ⟨n, numeral⟩
    exact ⟨n.toNat, numeral, Nat.le_of_lt_succ n.toNat_lt⟩

theorem fits_iff {k : Key} (known : e.key? = some k) : e.Fits ↔ k.Takes e.value := by
  simp only [Entry.Fits, ← key?_eq_some_iff, known, Option.some.injEq, forall_eq']

theorem exists_apply_iff (trimmed : Text.trim e.value = e.value) :
    (∃ p, e.apply o = .ok p) ↔ e.Fits := by
  obtain ⟨change, does, apply⟩ := e.exists_does
  rw [apply]
  cases does with
  | unknown known => simp [Entry.Fits, ← key?_eq_some_iff, known, Except.map]
  | kept known kept =>
    have read : ∃ v, ApiVersion.read keptVersion = .ok v := ⟨.default, rfl⟩
    rw [fits_iff known, takes_version_iff trimmed, kept]
    simp [read, Except.map]
  | version known _ read | noVersion known _ read =>
    rw [fits_iff known, takes_version_iff trimmed, read]
    simp [Except.map]
  | memory known read | noMemory known read | cache known read | noCache known read =>
    rw [fits_iff known, Key.Takes, takes_amount_iff, read]
    simp [Except.map]
  | extensions known =>
    rw [fits_iff known]
    simp [Key.Takes, Except.map]

theorem of_mem_entryTexts (member : t ∈ entryTexts s) :
    ',' ∉ t ∧ Text.trim t = t ∧ t ≠ [] := by
  obtain ⟨member, some⟩ := List.mem_filter.mp member
  obtain ⟨part, cut, rfl⟩ := List.mem_map.mp member
  have none := Text.not_mem_of_mem_cut cut
  exact ⟨fun comma => none (Text.mem_of_mem_trim comma), Text.trim_trim part, by simpa using some⟩

theorem entryTexts_join {ts : List (List Char)} (each : ∀ t ∈ ts, t ∈ entryTexts s) :
    entryTexts (Text.join ',' ts) = ts := by
  cases ts with
  | nil => rfl
  | cons t ts =>
    have none : ∀ u ∈ t :: ts, ',' ∉ u := fun u member => (of_mem_entryTexts (each u member)).1
    have trimmed : (t :: ts).map Text.trim = t :: ts :=
      (List.map_congr_left fun u member => (of_mem_entryTexts (each u member)).2.1).trans
        (List.map_id _)
    rw [entryTexts, Text.cut_join (by simp) none, trimmed, List.filter_eq_self]
    intro u member
    simpa using (of_mem_entryTexts (each u member)).2.2

theorem entryTexts_of_mem (member : t ∈ entryTexts s) : entryTexts t = [t] := by
  have each : ∀ u ∈ [t], u ∈ entryTexts s := by simpa using member
  exact entryTexts_join each

theorem mapM_eq_ok_iff {ts : List (List Char)} {es : List Entry} :
    ts.mapM readEntry = .ok es ↔ List.Forall₂ Written ts es := by
  induction ts generalizing es with
  | nil => simp [pure, Except.pure, eq_comm]
  | cons t ts ih =>
    rw [List.mapM_cons, List.forall₂_cons_left_iff]
    simp only [← readEntry_eq_ok_iff]
    cases readEntry t with
    | error q => simp [bind, Except.bind]
    | ok e =>
      simp only [← ih]
      cases ts.mapM readEntry with
      | error q => simp [bind, Except.bind]
      | ok es => simp [bind, Except.bind, pure, Except.pure, eq_comm]

/-- The first of some texts for which something holds. -/
def First (P : List Char → Prop) (ts : List (List Char)) (t : List Char) : Prop :=
  ∃ before after, ts = before ++ t :: after ∧ (∀ b ∈ before, ¬ P b) ∧ P t

theorem First.mem {P : List Char → Prop} {ts : List (List Char)} (first : First P ts t) :
    t ∈ ts := by
  obtain ⟨before, after, rfl, -, -⟩ := first
  simp

theorem First.holds {P : List Char → Prop} {ts : List (List Char)} (first : First P ts t) :
    P t :=
  let ⟨_, _, _, _, here⟩ := first
  here

theorem first_cons {P : List Char → Prop} {ts : List (List Char)} {u : List Char} :
    First P (t :: ts) u ↔ P t ∧ u = t ∨ ¬ P t ∧ First P ts u := by
  constructor
  · rintro ⟨before, after, split, none, here⟩
    rcases List.cons_eq_append_iff.mp split with ⟨rfl, same⟩ | ⟨before, rfl, rest⟩
    · cases same
      exact .inl ⟨here, rfl⟩
    · obtain ⟨head, none⟩ := List.forall_mem_cons.mp none
      exact .inr ⟨head, before, after, rest, none, here⟩
  · rintro (⟨here, rfl⟩ | ⟨head, before, after, rfl, none, here⟩)
    · exact ⟨[], ts, rfl, by simp, here⟩
    · exact ⟨t :: before, after, rfl, List.forall_mem_cons.mpr ⟨head, none⟩, here⟩

theorem not_first_nil {P : List Char → Prop} : ¬ First P [] t := by
  rintro ⟨before, after, split, -, -⟩
  simp at split

theorem mapM_eq_error_iff {ts : List (List Char)} :
    ts.mapM readEntry = .error r ↔ ∃ t, First ('=' ∉ ·) ts t ∧ r = .malformed t := by
  induction ts with
  | nil => simp [pure, Except.pure, not_first_nil]
  | cons t ts ih =>
    rw [List.mapM_cons]
    simp only [first_cons]
    cases read : readEntry t with
    | error q =>
      obtain ⟨none, rfl⟩ := readEntry_eq_error_iff.mp read
      simp [bind, Except.bind, none, eq_comm]
    | ok e =>
      have sign : '=' ∈ t := exists_written_iff.mp ⟨e, readEntry_eq_ok_iff.mp read⟩
      simp only [sign, not_true_eq_false, false_and, not_false_eq_true, true_and, false_or, ← ih]
      cases ts.mapM readEntry <;> simp [bind, Except.bind, pure, Except.pure]

def Fitting (t : List Char) : Prop :=
  ∃ e, Written t e ∧ e.Fits

theorem Fitting.sign (fitting : Fitting t) : '=' ∈ t :=
  let ⟨e, written, _⟩ := fitting
  exists_written_iff.mp ⟨e, written⟩

theorem Written.fitting_iff (written : Written t e) : Fitting t ↔ ∃ p, e.apply o = .ok p := by
  rw [exists_apply_iff written.trim_value]
  constructor
  · rintro ⟨f, other, fits⟩
    exact written.unique other ▸ fits
  · intro fits
    exact ⟨e, written, fits⟩

theorem applyAll_cons {es : List Entry} :
    applyAll o (e :: es) = (e.apply o).bind fun p => applyAll p es :=
  rfl

/-- The first entry that does not fit is refused. -/
theorem applyAll_eq_error_iff {ts : List (List Char)} {es : List Entry}
    (written : List.Forall₂ Written ts es) : applyAll o es = .error r ↔
      ∃ t e, First (¬ Fitting ·) ts t ∧ Written t e ∧ e.apply {} = .error r := by
  induction written generalizing o with
  | nil => simp [applyAll, pure, Except.pure, not_first_nil]
  | @cons t e ts es first _ ih =>
    rw [applyAll_cons]
    cases applied : e.apply o with
    | error q =>
      have unfit : ¬ Fitting t := by
        rw [first.fitting_iff (o := o), applied]
        rintro ⟨p, accepted⟩
        cases accepted
      have alone := (does_of_apply_error applied).2 {}
      simp only [first_cons, unfit, not_false_eq_true, true_and, not_true_eq_false, false_and,
        or_false]
      constructor
      · intro same
        cases same
        exact ⟨t, e, rfl, first, alone⟩
      · rintro ⟨_, f, rfl, other, refused⟩
        cases first.unique other
        rw [alone] at refused
        exact refused
    | ok p =>
      have fits : Fitting t := first.fitting_iff.mpr ⟨p, applied⟩
      simp only [first_cons, fits]
      simp [Except.bind, ih]

theorem exists_applyAll_iff {es : List Entry} (trimmed : ∀ e ∈ es, Text.trim e.value = e.value) :
    (∃ p, applyAll o es = .ok p) ↔ ∀ e ∈ es, e.Fits := by
  induction es generalizing o with
  | nil => simp [applyAll, pure, Except.pure]
  | cons e es ih =>
    obtain ⟨here, rest⟩ := List.forall_mem_cons.mp trimmed
    rw [applyAll_cons, List.forall_mem_cons, ← exists_apply_iff (o := o) here]
    cases e.apply o with
    | error q => simp [Except.bind]
    | ok p => simp [Except.bind, ih rest]

theorem trimmed_of_written {ts : List (List Char)} {es : List Entry}
    (written : List.Forall₂ Written ts es) : ∀ e ∈ es, Text.trim e.value = e.value := by
  induction written with
  | nil => simp
  | cons first _ ih => exact List.forall_mem_cons.mpr ⟨first.trim_value, ih⟩

theorem forall_fitting_iff {ts : List (List Char)} {es : List Entry}
    (written : List.Forall₂ Written ts es) : (∀ t ∈ ts, Fitting t) ↔ ∀ e ∈ es, e.Fits := by
  induction written with
  | nil => simp
  | cons first _ ih =>
    rw [List.forall_mem_cons, List.forall_mem_cons, ih, first.fitting_iff (o := {}),
      exists_apply_iff first.trim_value]

theorem read_eq (s : List Char) :
    read s = ((entryTexts s).mapM readEntry).bind fun es => applyAll {} es :=
  rfl

theorem exists_read_iff (s : List Char) :
    (∃ o, read s = .ok o) ↔ ∀ t ∈ entryTexts s, Fitting t := by
  rw [read_eq]
  cases entries : (entryTexts s).mapM readEntry with
  | error r =>
    obtain ⟨t, first, -⟩ := mapM_eq_error_iff.mp entries
    have unfit : ¬ ∀ t ∈ entryTexts s, Fitting t := fun each =>
      first.holds (each t first.mem).sign
    simp [Except.bind, unfit]
  | ok es =>
    have written := mapM_eq_ok_iff.mp entries
    rw [forall_fitting_iff written]
    exact exists_applyAll_iff (trimmed_of_written written)

theorem exists_mapM_iff {ts : List (List Char)} :
    (∃ es, ts.mapM readEntry = .ok es) ↔ ∀ t ∈ ts, '=' ∈ t := by
  simp only [mapM_eq_ok_iff, ← exists_written_iff]
  induction ts with
  | nil => simp
  | cons t ts ih =>
    simp only [List.forall₂_cons_left_iff, List.forall_mem_cons, ← ih]
    constructor
    · rintro ⟨_, e, es, first, rest, rfl⟩
      exact ⟨⟨e, first⟩, es, rest⟩
    · rintro ⟨⟨e, first⟩, es, rest⟩
      exact ⟨e :: es, e, es, first, rest, rfl⟩

theorem read_eq_error_iff (s : List Char) : read s = .error r ↔
    (∃ t, First ('=' ∉ ·) (entryTexts s) t ∧ r = .malformed t) ∨
    (∀ t ∈ entryTexts s, '=' ∈ t) ∧ ∃ t e, First (¬ Fitting ·) (entryTexts s) t ∧ Written t e ∧
      e.apply {} = .error r := by
  rw [read_eq, ← mapM_eq_error_iff, ← exists_mapM_iff]
  cases entries : (entryTexts s).mapM readEntry with
  | error q => simp [Except.bind]
  | ok es => simp [Except.bind, applyAll_eq_error_iff (mapM_eq_ok_iff.mp entries)]

theorem read_of_written (member : t ∈ entryTexts s) (written : Written t e) :
    read t = e.apply {} := by
  rw [read_eq, entryTexts_of_mem member, List.mapM_cons, readEntry_eq_ok_iff.mpr written]
  change (e.apply {}).bind .ok = e.apply {}
  cases e.apply {} <;> rfl

theorem Written.not_takes {k : Key} (written : Written t e) (unfit : ¬ Fitting t)
    (named : e.key = k.name.toList) : ¬ k.Takes e.value := by
  intro takes
  refine unfit ⟨e, written, fun j other => ?_⟩
  rw [← key?_eq_some_iff] at named other
  cases named.symm.trans other
  exact takes

theorem parse_eq_ok_iff {s : String} : RenderOptions.parse s = .ok o ↔ read s.toList = .ok o := by
  rw [RenderOptions.parse]
  cases read s.toList <;> constructor <;> intro accepted <;> cases accepted <;> rfl

theorem parse_eq_error_iff {s : String} {f : Failure} :
    RenderOptions.parse s = .error f ↔ ∃ r, read s.toList = .error r ∧ f = r.failure := by
  rw [RenderOptions.parse]
  cases read s.toList with
  | ok o =>
    constructor
    · intro refused
      cases refused
    · rintro ⟨r, refused, -⟩
      cases refused
  | error r =>
    constructor
    · intro refused
      cases refused
      exact ⟨r, rfl, rfl⟩
    · rintro ⟨q, refused, rfl⟩
      cases refused
      rfl

/-- A settings text is accepted just if each of its parts has an equals sign and a value that its
key takes. It is refused for the first part without the sign, or else for the first value that does
not fit. -/
theorem entries_run (s : String) :
    (∃ parts, parts ≠ [] ∧ (∀ part ∈ parts, ',' ∉ part) ∧ s.toList = Text.join ',' parts ∧
      entryTexts s.toList = (parts.map Text.trim).filter (· ≠ [])) ∧
    ((∃ o, RenderOptions.parse s = .ok o) ↔ ∀ t ∈ entryTexts s.toList, Fitting t) ∧
    ∀ f, RenderOptions.parse s = .error f ↔
      (∃ t, First ('=' ∉ ·) (entryTexts s.toList) t ∧ f = (Refusal.malformed t).failure) ∨
      (∀ t ∈ entryTexts s.toList, '=' ∈ t) ∧ ∃ t, First (¬ Fitting ·) (entryTexts s.toList) t ∧
        RenderOptions.parse (String.ofList t) = .error f ∧
        ∃ (e : Entry) (k : Key) (r : Refusal), Written t e ∧ e.key = k.name.toList ∧
          ¬ k.Takes e.value ∧ r.Blames e k ∧ f = r.failure := by
  refine ⟨⟨Text.cut ',' s.toList, Text.cut_ne_nil _ _, fun part => Text.not_mem_of_mem_cut,
    (Text.join_cut _ _).symm, rfl⟩, ?_, fun f => ?_⟩
  · simp only [parse_eq_ok_iff]
    exact exists_read_iff s.toList
  · rw [parse_eq_error_iff]
    constructor
    · rintro ⟨r, refused, rfl⟩
      rcases (read_eq_error_iff s.toList).mp refused with
        ⟨t, first, rfl⟩ | ⟨signs, t, e, first, written, unfit⟩
      · exact .inl ⟨t, first, rfl⟩
      · obtain ⟨k, named, blames⟩ := blames_of_apply_error unfit
        refine .inr ⟨signs, t, first, parse_eq_error_iff.mpr ⟨r, ?_, rfl⟩, e, k, r, written, named,
          written.not_takes first.holds named, blames, rfl⟩
        rw [String.toList_ofList, read_of_written first.mem written, unfit]
    · rintro (⟨t, first, rfl⟩ | ⟨signs, t, first, alone, e, k, -, written, -⟩)
      · exact ⟨_, (read_eq_error_iff s.toList).mpr (.inl ⟨t, first, rfl⟩), rfl⟩
      · obtain ⟨r, refused, rfl⟩ := parse_eq_error_iff.mp alone
        rw [String.toList_ofList, read_of_written first.mem written] at refused
        have unfit := (read_eq_error_iff s.toList).mpr
          (.inr ⟨signs, t, e, first, written, refused⟩)
        exact ⟨r, unfit, rfl⟩

-- The amount that does not fit stands before the entry that has no equals sign.
example : RenderOptions.parse "maxDeviceMemory=65536, imageCacheSize" =
    .error (.rejected "Malformed render option 'imageCacheSize': expected key=value") := by
  rfl

end Settings

end RenderBroker

import RenderBroker.Proofs.Entries

namespace RenderBroker

namespace Settings

open Text (Numeral)

variable {s : List Char} {e f : Entry} {es fs : List Entry} {k : Key} {o p q : RenderOptions}
  {v : List Char}

def Key.Denotes : Key → List Char → RenderOptions → Prop
  | .maxVersion, v, o => ∃ m n, ApiVersion.Names v m n ∧
      o.maxVersion = .ofParts (.ofNat m) (.ofNat n) ApiVersion.patchLevel
  | .deviceMemory, v, o => Numeral v o.deviceMemory.toNat
  | .imageCache, v, o => Numeral v o.imageCache.toNat
  | .extensions, v, o => o.extensions = .parse v

def Key.Agree : Key → RenderOptions → RenderOptions → Prop
  | .maxVersion, o, p => o.maxVersion = p.maxVersion
  | .deviceMemory, o, p => o.deviceMemory = p.deviceMemory
  | .imageCache, o, p => o.imageCache = p.imageCache
  | .extensions, o, p => o.extensions = p.extensions

theorem Key.Agree.refl (k : Key) (o : RenderOptions) : k.Agree o o := by
  cases k <;> rfl

theorem Key.Agree.symm (agree : k.Agree o p) : k.Agree p o := by
  cases k <;> exact Eq.symm agree

theorem Key.Agree.trans (first : k.Agree o p) (second : k.Agree p q) : k.Agree o q := by
  cases k <;> exact Eq.trans first second

theorem eq_of_agree (agree : ∀ k : Key, k.Agree o p) : o = p := by
  have version : o.maxVersion = p.maxVersion := agree .maxVersion
  have memory : o.deviceMemory = p.deviceMemory := agree .deviceMemory
  have cache : o.imageCache = p.imageCache := agree .imageCache
  have extensions : o.extensions = p.extensions := agree .extensions
  cases o
  cases p
  simp_all

theorem Key.Denotes.congr (denotes : k.Denotes v o) (agree : k.Agree o p) : k.Denotes v p := by
  cases k with
  | maxVersion =>
    obtain ⟨m, n, names, version⟩ := denotes
    exact ⟨m, n, names, Eq.trans agree.symm version⟩
  | deviceMemory | imageCache =>
    rw [Denotes] at denotes ⊢
    exact agree ▸ denotes
  | extensions => exact Eq.trans agree.symm denotes

theorem Key.Denotes.agree (first : k.Denotes v o) (second : k.Denotes v p) : k.Agree o p := by
  cases k with
  | maxVersion =>
    obtain ⟨m, n, names, version⟩ := first
    obtain ⟨i, j, names', version'⟩ := second
    obtain ⟨rfl, rfl⟩ := names.unique names'
    exact version.trans version'.symm
  | deviceMemory | imageCache => exact UInt16.toNat_inj.mp (Numeral.unique first second)
  | extensions => exact Eq.trans first second.symm

/-- The value of an entry denotes something for the option, unless it is the kept version. -/
def Key.Counts (k : Key) (v : List Char) : Prop :=
  ¬ (k = .maxVersion ∧ v = keptVersion)

instance : Decidable (k.Counts v) :=
  inferInstanceAs (Decidable (¬ _))

theorem apply_denotes (trimmed : Text.trim e.value = e.value) (applied : e.apply o = .ok p)
    (named : e.key? = some k) (counts : k.Counts e.value) : k.Denotes e.value p := by
  obtain ⟨change, does, rfl⟩ := does_of_apply_ok applied
  cases does with
  | unknown known => cases named.symm.trans known
  | kept known kept =>
    cases named.symm.trans known
    exact absurd ⟨rfl, kept⟩ counts
  | version known _ read =>
    cases named.symm.trans known
    obtain ⟨m, n, names, -, -, rfl⟩ := ApiVersion.read_eq_ok_iff.mp read
    exact ⟨m, n, trimmed ▸ names, rfl⟩
  | memory known read | cache known read =>
    cases named.symm.trans known
    exact readAmount_eq_ok_iff.mp read
  | extensions known =>
    cases named.symm.trans known
    rfl

theorem apply_agree (applied : e.apply o = .ok p)
    (other : e.key? = some k → ¬ k.Counts e.value) : k.Agree o p := by
  obtain ⟨change, does, rfl⟩ := does_of_apply_ok applied
  cases does with
  | unknown | kept => exact .refl k o
  | version known differs =>
    cases k with
    | maxVersion => exact absurd (fun kept => differs kept.2) (other known)
    | deviceMemory | imageCache | extensions => rfl
  | memory known | cache known | extensions known =>
    cases k <;> first | rfl | exact absurd (fun kept => nomatch kept.1) (other known)

def Key.entries (k : Key) (es : List Entry) : List Entry :=
  es.filter fun e => e.key = k.name.toList

def Key.counting (k : Key) (es : List Entry) : List Entry :=
  (k.entries es).filter fun e => k.Counts e.value

theorem Key.counting_cons (k : Key) (e : Entry) (es : List Entry) : k.counting (e :: es) =
    if e.key = k.name.toList ∧ k.Counts e.value then e :: k.counting es else k.counting es := by
  rw [counting, entries, List.filter_filter, List.filter_cons, counting, entries,
    List.filter_filter]
  simp [and_comm]

/-- An option is what the entry denotes, or is left as it was if there is none. -/
def Key.Decided (k : Key) (o : RenderOptions) (last : Option Entry) (p : RenderOptions) : Prop :=
  match last with
  | some e => k.Denotes e.value p
  | none => k.Agree o p

theorem Key.Decided.agree {last : Option Entry} (first : k.Decided o last p)
    (second : k.Decided o last q) : k.Agree p q := by
  cases last with
  | some e => exact Denotes.agree first second
  | none => exact Agree.trans (Agree.symm first) second

/-- A run decides every option by the last entry that counts for it. -/
theorem applyAll_decided (trimmed : ∀ e ∈ es, Text.trim e.value = e.value)
    (applied : applyAll o es = .ok p) (k : Key) : k.Decided o (k.counting es).getLast? p := by
  induction es generalizing o with
  | nil =>
    cases applied
    exact .refl k _
  | cons e es ih =>
    obtain ⟨here, rest⟩ := List.forall_mem_cons.mp trimmed
    rw [applyAll_cons] at applied
    cases first : e.apply o with
    | error r =>
      rw [first] at applied
      cases applied
    | ok q =>
      rw [first] at applied
      have later := ih rest applied
      rw [Key.counting_cons]
      split
      next sets =>
        have denotes := apply_denotes here first (key?_eq_some_iff.mpr sets.1) sets.2
        rw [List.getLast?_cons]
        cases last : (k.counting es).getLast? with
        | none =>
          rw [last] at later
          exact denotes.congr later
        | some f =>
          rw [last] at later
          exact later
      next other =>
        have agree : k.Agree o q := apply_agree first fun known counts =>
          other ⟨key?_eq_some_iff.mp known, counts⟩
        cases last : (k.counting es).getLast? with
        | none =>
          rw [last] at later
          exact agree.trans later
        | some f =>
          rw [last] at later
          exact later

/-- The last version entry asks for the kept version, and another one counts. -/
def Restored (es : List Entry) : Prop :=
  (∃ e, (Key.maxVersion.entries es).getLast? = some e ∧ e.value = keptVersion) ∧
    Key.maxVersion.counting es ≠ []

theorem not_restored_of_last {last : Option Entry}
    (single : Key.maxVersion.entries es = last.toList) : ¬ Restored es := by
  rintro ⟨⟨e, here, kept⟩, counts⟩
  refine counts ?_
  rw [single] at here
  cases last with
  | none => cases here
  | some f =>
    obtain rfl : f = e := Option.some.inj here
    simp [Key.counting, single, Key.Counts, kept]

theorem denotes_keptVersion : Key.maxVersion.Denotes keptVersion {} := by
  have shown : keptVersion = Text.digits 8 1 ++ '.' :: Text.digits 8 3 := by
    decide +kernel
  exact ⟨1, 3, shown ▸ .two (Text.numeral_digits 1) (Text.numeral_digits 3), rfl⟩

/-- The last entry with a key counts, unless none does or it asks for the kept version. -/
theorem Key.Decided.last (plain : k = .maxVersion → ¬ Restored es)
    (decided : k.Decided {} (k.counting es).getLast? o) :
    k.Decided {} (k.entries es).getLast? o := by
  rcases List.eq_nil_or_concat (k.entries es) with none | ⟨front, e, entries⟩
  · rw [counting, none] at decided
    rw [none]
    exact decided
  · rw [List.concat_eq_append] at entries
    rw [entries, List.getLast?_append_of_ne_nil _ (by simp)]
    by_cases counts : k.Counts e.value
    · rw [counting, entries, List.filter_append, List.filter_cons_of_pos (by simpa using counts),
        List.getLast?_append_of_ne_nil _ (by simp)] at decided
      exact decided
    · obtain ⟨rfl, kept⟩ := not_not.mp counts
      have none : maxVersion.counting es = [] := by
        by_contra some
        exact plain rfl ⟨⟨e, by simp [entries], kept⟩, some⟩
      rw [none] at decided
      change maxVersion.Denotes e.value o
      rw [kept]
      exact denotes_keptVersion.congr decided

theorem read_eq_ok_iff : read s = .ok o ↔
    ∃ es, readEntries s = .ok es ∧ applyAll {} es = .ok o := by
  rw [read_eq, ← readEntries]
  cases readEntries s <;> simp [Except.bind]

theorem trimmed_of_readEntries (entries : readEntries s = .ok es) :
    ∀ e ∈ es, Text.trim e.value = e.value :=
  trimmed_of_written (mapM_eq_ok_iff.mp entries)

theorem exists_read_of_entries {t : List Char} (accepted : read s = .ok o)
    (entries : readEntries s = .ok es) (others : readEntries t = .ok fs)
    (member : ∀ k : Key, ∀ f ∈ k.entries fs, f ∈ es) : ∃ p, read t = .ok p := by
  simp only [read_eq_ok_iff, others, entries, Except.ok.injEq, exists_eq_left'] at accepted ⊢
  rw [exists_applyAll_iff (trimmed_of_readEntries others)]
  intro f mem k named
  have fits := (exists_applyAll_iff (trimmed_of_readEntries entries)).mp ⟨o, accepted⟩
  exact fits f (member k f (List.mem_filter.mpr ⟨mem, by simpa using named⟩)) k named

theorem decided_of_read (accepted : read s = .ok o) (entries : readEntries s = .ok es) (k : Key) :
    k.Decided {} (k.counting es).getLast? o := by
  simp only [read_eq_ok_iff, entries, Except.ok.injEq, exists_eq_left'] at accepted
  exact applyAll_decided (trimmed_of_readEntries entries) accepted k

theorem exists_text_of_mem {ts : List (List Char)} (written : List.Forall₂ Written ts es)
    (member : e ∈ es) : ∃ t ∈ ts, Written t e := by
  induction written with
  | nil => cases member
  | @cons t _ ts _ first _ ih =>
    rcases List.mem_cons.mp member with rfl | member
    · exact ⟨t, List.mem_cons_self, first⟩
    · obtain ⟨t, there, written⟩ := ih member
      exact ⟨t, List.mem_cons_of_mem _ there, written⟩

/-- Entries that are chosen from a text, in any order, are the entries of a text. -/
theorem exists_readEntries (entries : readEntries s = .ok es) (chosen : ∀ f ∈ fs, f ∈ es) :
    ∃ t, readEntries t = .ok fs := by
  have written := mapM_eq_ok_iff.mp entries
  have texts : ∃ ts, (∀ t ∈ ts, t ∈ entryTexts s) ∧ List.Forall₂ Written ts fs := by
    induction fs with
    | nil => exact ⟨[], by simp, .nil⟩
    | cons f fs ih =>
      obtain ⟨here, rest⟩ := List.forall_mem_cons.mp chosen
      obtain ⟨t, there, first⟩ := exists_text_of_mem written here
      obtain ⟨ts, each, others⟩ := ih rest
      exact ⟨t :: ts, List.forall_mem_cons.mpr ⟨there, each⟩, .cons first others⟩
  obtain ⟨ts, each, written⟩ := texts
  refine ⟨Text.join ',' ts, ?_⟩
  rw [readEntries, entryTexts_join each]
  exact mapM_eq_ok_iff.mpr written

/-- Each option is what the last entry with its key denotes, or its default, unless the last version
entry asks for the kept version while another one counts. Entries of other keys and their places do
not matter. -/
theorem overrides_run (s : String) (o : RenderOptions) (accepted : RenderOptions.parse s = .ok o) :
    ∃ es, readEntries s.toList = .ok es ∧
      (∀ k : Key, k.Decided {} (k.counting es).getLast? o) ∧
      (∀ k : Key, (k = .maxVersion → ¬ Restored es) → k.Decided {} (k.entries es).getLast? o) ∧
      (∀ fs, (∀ f ∈ fs, f ∈ es) → ∃ t : String, readEntries t.toList = .ok fs) ∧
      ∀ (t : String) fs, readEntries t.toList = .ok fs →
        ((∀ k : Key, k.entries fs = k.entries es) → RenderOptions.parse t = .ok o) ∧
        ((∀ k : Key, k.entries fs = (k.entries es).getLast?.toList) →
          ∃ p, RenderOptions.parse t = .ok p ∧
            ∀ k : Key, (k = .maxVersion → ¬ Restored es) → k.Agree o p) := by
  rw [parse_eq_ok_iff] at accepted
  obtain ⟨es, entries, -⟩ := read_eq_ok_iff.mp accepted
  have decided := decided_of_read accepted entries
  refine ⟨es, entries, decided, fun k plain => (decided k).last plain, ?_, ?_⟩
  · intro fs chosen
    obtain ⟨t, others⟩ := exists_readEntries entries chosen
    exact ⟨String.ofList t, by rwa [String.toList_ofList]⟩
  · intro t fs others
    simp only [parse_eq_ok_iff]
    constructor
    · intro same
      obtain ⟨p, other⟩ := exists_read_of_entries accepted entries others fun k f member =>
        (List.mem_filter.mp (same k ▸ member)).1
      have agree (k : Key) : k.Agree o p := by
        refine (decided k).agree ?_
        have decided := decided_of_read other others k
        rwa [Key.counting, same] at decided
      rwa [eq_of_agree agree]
    · intro last
      obtain ⟨p, other⟩ := exists_read_of_entries accepted entries others fun k f member => by
        rw [last, Option.mem_toList] at member
        exact (List.mem_filter.mp (List.mem_of_getLast? member)).1
      refine ⟨p, other, fun k plain => ((decided k).last plain).agree ?_⟩
      have decided := (decided_of_read other others k).last fun _ => not_restored_of_last (last _)
      rw [last] at decided
      cases same : (k.entries es).getLast? <;> rwa [same] at decided

/-- The last version entry asks for the kept version behind another one, which stays; a text with
only the last entries gives the default. -/
theorem overrides_run_restored :
    let s := "vkMaxVersion=1.2,imageCacheSize=7,vkMaxVersion=1.3,other=x,imageCacheSize=+9"
    let t := "imageCacheSize=+9,vkMaxVersion=1.3"
    let o : RenderOptions := { maxVersion := .ofParts 1 2 128, imageCache := 9 }
    RenderOptions.parse s = .ok o ∧ RenderOptions.parse t = .ok { imageCache := 9 } ∧
      ¬ Key.maxVersion.Denotes keptVersion o ∧
      ∃ es, readEntries s.toList = .ok es ∧ Restored es ∧
        Key.imageCache.Decided {} (Key.imageCache.entries es).getLast? o := by
  intro s t o
  have accepted : RenderOptions.parse s = .ok o := by
    unfold s o
    rfl
  obtain ⟨es, entries, -, plain, -, -⟩ := overrides_run s o accepted
  have list : readEntries s.toList = .ok [⟨"vkMaxVersion".toList, "1.2".toList⟩,
      ⟨"imageCacheSize".toList, "7".toList⟩, ⟨"vkMaxVersion".toList, "1.3".toList⟩,
      ⟨"other".toList, "x".toList⟩, ⟨"imageCacheSize".toList, "+9".toList⟩] := by
    unfold s
    rfl
  cases entries.symm.trans list
  have last : RenderOptions.parse t = .ok { imageCache := 9 } := by
    unfold t
    rfl
  refine ⟨accepted, last, fun denotes => ?_, _, list, ⟨⟨_, rfl, rfl⟩, by decide +kernel⟩,
    plain .imageCache nofun⟩
  have version : ApiVersion.ofParts 1 2 128 = .default := denotes.agree denotes_keptVersion
  revert version
  decide +kernel

end Settings

end RenderBroker

import RenderBroker.Proofs.Numerals
import RenderBroker.Version

namespace RenderBroker

open Text (Numeral digits)

namespace ApiVersion

variable {v w : ApiVersion}

theorem toNat_pack {a b c : UInt32} (major : a.toNat < 1024) (minor : b.toNat < 1024)
    (patch : c.toNat < 4096) :
    ((a <<< 22) ||| (b <<< 12) ||| c).toNat = a.toNat * 4194304 + b.toNat * 4096 + c.toNat := by
  have top : (a <<< 22).toNat = a.toNat <<< 22 := by
    rw [UInt32.toNat_shiftLeft]
    apply Nat.mod_eq_of_lt
    change a.toNat <<< 22 < _
    rw [Nat.shiftLeft_eq]
    omega
  have middle : (b <<< 12).toNat = b.toNat <<< 12 := by
    rw [UInt32.toNat_shiftLeft]
    apply Nat.mod_eq_of_lt
    change b.toNat <<< 12 < _
    rw [Nat.shiftLeft_eq]
    omega
  have low : b.toNat <<< 12 + c.toNat < 2 ^ 22 := by
    rw [Nat.shiftLeft_eq]
    omega
  calc ((a <<< 22) ||| (b <<< 12) ||| c).toNat
      = a.toNat <<< 22 ||| (b.toNat <<< 12 ||| c.toNat) := by
        rw [UInt32.toNat_or, UInt32.toNat_or, top, middle, Nat.or_assoc]
    _ = a.toNat <<< 22 + (b.toNat <<< 12 + c.toNat) := by
        rw [← Nat.shiftLeft_add_eq_or_of_lt patch b.toNat, ← Nat.shiftLeft_add_eq_or_of_lt low]
    _ = a.toNat * 4194304 + b.toNat * 4096 + c.toNat := by
        rw [Nat.shiftLeft_eq, Nat.shiftLeft_eq, Nat.add_assoc]

theorem toNat_major (v : ApiVersion) : v.major.toNat = v.packed.toNat / 4194304 := by
  rw [major, UInt32.toNat_shiftRight]
  exact Nat.shiftRight_eq_div_pow v.packed.toNat 22

theorem toNat_minor (v : ApiVersion) : v.minor.toNat = v.packed.toNat / 4096 % 1024 := by
  rw [minor, UInt32.toNat_and, UInt32.toNat_shiftRight]
  change v.packed.toNat >>> 12 &&& 2 ^ 10 - 1 = _
  rw [Nat.and_two_pow_sub_one_eq_mod, Nat.shiftRight_eq_div_pow]

theorem toNat_patch (v : ApiVersion) : v.patch.toNat = v.packed.toNat % 4096 :=
  Nat.and_two_pow_sub_one_eq_mod v.packed.toNat 12

theorem toNat_ofParts (a b c : UInt32) :
    (ofParts a b c).packed.toNat =
      a.toNat % 128 * 4194304 + b.toNat % 1024 * 4096 + c.toNat % 4096 := by
  have major : (a &&& 0x7F).toNat = a.toNat % 128 := Nat.and_two_pow_sub_one_eq_mod a.toNat 7
  have minor : (b &&& 0x3FF).toNat = b.toNat % 1024 := Nat.and_two_pow_sub_one_eq_mod b.toNat 10
  have patch : (c &&& 0xFFF).toNat = c.toNat % 4096 := Nat.and_two_pow_sub_one_eq_mod c.toNat 12
  rw [ofParts, toNat_pack (by omega) (by omega) (by omega), major, minor, patch]

/-- The word of a version with the given patch in place of its own. -/
def repatched (v : ApiVersion) (patch : UInt32) : UInt32 :=
  (v.major <<< 22) ||| (v.minor <<< 12) ||| patch

theorem toNat_repatched (v : ApiVersion) {c : UInt32} (patch : c.toNat < 4096) :
    (v.repatched c).toNat = v.packed.toNat / 4096 * 4096 + c.toNat := by
  have word := v.packed.toNat_lt
  have major := v.toNat_major
  have minor := v.toNat_minor
  rw [repatched, toNat_pack (by omega) (by omega) patch]
  omega

theorem repatched_patch (v : ApiVersion) : v.repatched v.patch = v.packed := by
  have patch := v.toNat_patch
  apply UInt32.toNat_inj.mp
  rw [toNat_repatched v (by omega), patch]
  omega

theorem eq_of_parts (major : v.major = w.major) (minor : v.minor = w.minor)
    (patch : v.patch = w.patch) : v = w := by
  have packed : v.packed = w.packed := by
    rw [← v.repatched_patch, ← w.repatched_patch, repatched, repatched, major, minor, patch]
  cases v
  cases w
  exact congrArg mk packed

theorem major_ofParts (a b c : UInt32) : (ofParts a b c).major = a % 128 := by
  apply UInt32.toNat_inj.mp
  rw [toNat_major, toNat_ofParts, UInt32.toNat_mod]
  change _ = a.toNat % 128
  omega

theorem minor_ofParts (a b c : UInt32) : (ofParts a b c).minor = b % 1024 := by
  apply UInt32.toNat_inj.mp
  rw [toNat_minor, toNat_ofParts, UInt32.toNat_mod]
  change _ = b.toNat % 1024
  omega

theorem patch_ofParts (a b c : UInt32) : (ofParts a b c).patch = c % 4096 := by
  apply UInt32.toNat_inj.mp
  rw [toNat_patch, toNat_ofParts, UInt32.toNat_mod]
  change _ = c.toNat % 4096
  omega

/-- Seven of the ten bits of a major component are kept. -/
theorem ofParts_eq_self_iff (v : ApiVersion) :
    ofParts v.major v.minor v.patch = v ↔ v.packed.toNat < 0x20000000 := by
  have same : ofParts v.major v.minor v.patch = v ↔
      (ofParts v.major v.minor v.patch).packed.toNat = v.packed.toNat := by
    rw [UInt32.toNat_inj]
    exact ⟨congrArg packed, fun packed => by cases v; exact congrArg mk packed⟩
  rw [same, toNat_ofParts, toNat_major, toNat_minor, toNat_patch]
  omega

theorem ofParts_eq_repatched {c : UInt32} (major : v.major ≤ 127) (patch : c.toNat < 4096) :
    ofParts v.major v.minor c = ⟨v.repatched c⟩ := by
  have large := UInt32.le_iff_toNat_le.mp major
  have word : (ofParts v.major v.minor c).packed = v.repatched c := by
    apply UInt32.toNat_inj.mp
    change v.major.toNat ≤ 127 at large
    rw [toNat_ofParts, toNat_repatched v patch]
    have := v.toNat_major
    have := v.toNat_minor
    omega
  exact congrArg mk word

theorem cut_display (v : ApiVersion) : Text.cut '.' v.display.toList =
    [digits 8 v.major.toNat, digits 8 v.minor.toNat, digits 8 v.patch.toNat] := by
  have none (n : Nat) : '.' ∉ digits 8 n := (Text.numeral_digits n).not_mem rfl (by decide)
  have shown : v.display.toList = digits 8 v.major.toNat ++ '.' ::
      (digits 8 v.minor.toNat ++ '.' :: digits 8 v.patch.toNat) := by
    simp [display, Text.decimal]
  rw [shown, Text.cut_append_cons (none _), Text.cut_append_cons (none _),
    Text.cut_of_not_mem (none _)]

theorem display_injective : Function.Injective display := by
  intro v w same
  have parts := congrArg (fun s => Text.cut '.' s.toList) same
  simp only [cut_display, List.cons.injEq, and_true] at parts
  obtain ⟨major, minor, patch⟩ := parts
  exact eq_of_parts (UInt32.toNat_inj.mp (Text.digits_injective major))
    (UInt32.toNat_inj.mp (Text.digits_injective minor))
    (UInt32.toNat_inj.mp (Text.digits_injective patch))

theorem bare_display (v : ApiVersion) : Text.Bare v.display.toList := by
  apply Text.bare_of_black
  intro c member
  simp only [display, Text.decimal, String.toList_append, String.toList_ofList, List.mem_append]
    at member
  rcases member with (((member | member) | member) | member) | member
  case inl.inl.inl.inr | inl.inr =>
    rw [List.mem_singleton.mp member]
    rfl
  all_goals exact Text.isBlank_of_isDigit (Text.isDigit_of_mem_digits member)

/-- A text that names two components: numerals with a point between them, and behind another point
anything that has none. -/
inductive Names : List Char → Nat → Nat → Prop
  | two {a b : List Char} {m n : Nat} (major : Numeral a m) (minor : Numeral b n) :
      Names (a ++ '.' :: b) m n
  | three {a b c : List Char} {m n : Nat} (major : Numeral a m) (minor : Numeral b n)
      (rest : '.' ∉ c) : Names (a ++ '.' :: (b ++ '.' :: c)) m n

theorem readComponent_eq_ok_iff {c : Component} {s : List Char} {n : Nat} :
    readComponent c s = .ok n ↔ Numeral s n ∧ n ≤ c.max := by
  have word : c.max ≤ UInt32.size - 1 := by cases c <;> decide
  rw [readComponent]
  constructor
  · intro read
    split at read
    next => cases read
    next value numeral =>
      split at read
      next fits =>
        cases read
        exact ⟨(Text.readNumeral_eq_ok_iff.mp numeral).1, fits⟩
      next => cases read
  · rintro ⟨numeral, fits⟩
    rw [Text.readNumeral_eq_ok_iff.mpr ⟨numeral, Nat.le_trans fits word⟩]
    exact if_pos fits

theorem names_iff {s : List Char} {m n : Nat} : Names s m n ↔
    ∃ a b rest, Text.cut '.' s = a :: b :: rest ∧ rest.length ≤ 1 ∧ Numeral a m ∧ Numeral b n := by
  constructor
  · have none {s : List Char} {n : Nat} (numeral : Numeral s n) : '.' ∉ s :=
      numeral.not_mem rfl (by decide)
    intro names
    cases names with
    | two major minor =>
      rw [Text.cut_append_cons (none major), Text.cut_of_not_mem (none minor)]
      exact ⟨_, _, [], rfl, Nat.zero_le _, major, minor⟩
    | three major minor rest =>
      rw [Text.cut_append_cons (none major), Text.cut_append_cons (none minor),
        Text.cut_of_not_mem rest]
      exact ⟨_, _, [_], rfl, Nat.le_refl _, major, minor⟩
  · rintro ⟨a, b, rest, cut, short, major, minor⟩
    have whole := Text.join_cut '.' s
    rw [cut] at whole
    match rest with
    | [] =>
      rw [← whole]
      exact .two major minor
    | [c] =>
      have none : '.' ∉ c := Text.not_mem_of_mem_cut (s := s) (by simp [cut])
      rw [← whole]
      exact .three major minor none

theorem Names.unique {s : List Char} {m n i j : Nat} (first : Names s m n)
    (second : Names s i j) : m = i ∧ n = j := by
  obtain ⟨a, b, rest, cut, -, major, minor⟩ := names_iff.mp first
  obtain ⟨_, _, _, same, -, major', minor'⟩ := names_iff.mp second
  rw [cut] at same
  cases same
  exact ⟨major.unique major', minor.unique minor'⟩

theorem read_of_parts {s a b : List Char} {rest : List (List Char)}
    (cut : parts s = a :: b :: rest) (short : rest.length ≤ 1) :
    read s = (readComponent .major a).bind fun m => (readComponent .minor b).map fun n =>
      ofParts (UInt32.ofNat m) (UInt32.ofNat n) patchLevel := by
  have components : read s = (do
      let major ← readComponent .major a
      let minor ← readComponent .minor b
      return ofParts (UInt32.ofNat major) (UInt32.ofNat minor) patchLevel) := by
    rw [read, cut]
    match rest with
    | [] => rfl
    | [c] => rfl
  rw [components]
  cases readComponent .major a with
  | error e => rfl
  | ok m => cases readComponent .minor b <;> rfl

theorem read_eq_ok_iff {s : List Char} : read s = .ok v ↔
    ∃ m n, Names (Text.trim s) m n ∧ m ≤ 127 ∧ n ≤ 1023 ∧
      v = ofParts (UInt32.ofNat m) (UInt32.ofNat n) patchLevel := by
  constructor
  · intro accepted
    obtain ⟨a, b, rest, cut, short⟩ :
        ∃ a b rest, parts s = a :: b :: rest ∧ rest.length ≤ 1 := by
      rw [read] at accepted
      split at accepted
      next a b cut => exact ⟨a, b, [], cut, Nat.zero_le _⟩
      next a b c cut => exact ⟨a, b, [c], cut, Nat.le_refl _⟩
      next => cases accepted
    rw [read_of_parts cut short] at accepted
    cases first : readComponent .major a with
    | error e =>
      rw [first] at accepted
      cases accepted
    | ok m =>
      cases second : readComponent .minor b with
      | error e =>
        rw [first, second] at accepted
        cases accepted
      | ok n =>
        rw [first, second] at accepted
        cases accepted
        obtain ⟨major, large⟩ := readComponent_eq_ok_iff.mp first
        obtain ⟨minor, small⟩ := readComponent_eq_ok_iff.mp second
        exact ⟨m, n, names_iff.mpr ⟨a, b, rest, cut, short, major, minor⟩, large, small, rfl⟩
  · rintro ⟨m, n, names, large, small, rfl⟩
    obtain ⟨a, b, rest, cut, short, major, minor⟩ := names_iff.mp names
    have first : readComponent .major a = .ok m := readComponent_eq_ok_iff.mpr ⟨major, large⟩
    have second : readComponent .minor b = .ok n := readComponent_eq_ok_iff.mpr ⟨minor, small⟩
    rw [read_of_parts cut short, first, second]
    rfl

theorem parse_eq_ok_iff {s : String} : parse s = .ok v ↔ read s.toList = .ok v := by
  rw [parse]
  cases read s.toList <;> constructor <;> intro accepted <;> cases accepted <;> rfl

/-- The text of a version is read as this version with the fixed patch, or refused for its major
component. -/
theorem parse_display (v : ApiVersion) : parse v.display =
    if v.major ≤ 127 then .ok ⟨v.repatched patchLevel⟩
    else .error ((ReadError.range .major v.major.toNat).failure v.display) := by
  have cut : parts v.display.toList = [digits 8 v.major.toNat, digits 8 v.minor.toNat,
      digits 8 v.patch.toNat] := by
    rw [parts, Text.trim_of_bare v.bare_display, cut_display]
  have minor : v.minor.toNat ≤ 1023 := by
    have := v.toNat_minor
    omega
  have second : readComponent .minor (digits 8 v.minor.toNat) = .ok v.minor.toNat :=
    readComponent_eq_ok_iff.mpr ⟨Text.numeral_digits _, minor⟩
  rw [parse, read_of_parts cut (Nat.le_refl 1)]
  split
  next fits =>
    have first : readComponent .major (digits 8 v.major.toNat) = .ok v.major.toNat :=
      readComponent_eq_ok_iff.mpr ⟨Text.numeral_digits _, UInt32.le_iff_toNat_le.mp fits⟩
    rw [first, second]
    change Except.ok (ofParts (.ofNat v.major.toNat) (.ofNat v.minor.toNat) patchLevel) = _
    rw [UInt32.ofNat_toNat, UInt32.ofNat_toNat, ofParts_eq_repatched fits (by decide)]
  next fits =>
    have first : readComponent .major (digits 8 v.major.toNat) =
        .error (.range .major v.major.toNat) := by
      have word : v.major.toNat ≤ UInt32.size - 1 := Nat.le_sub_one_of_lt v.major.toNat_lt
      rw [readComponent, Text.readNumeral_eq_ok_iff.mpr ⟨Text.numeral_digits _, word⟩]
      exact if_neg fits
    rw [first]
    rfl

theorem parse_display_self (patch : v.patch = patchLevel) (major : v.major ≤ 127) :
    parse v.display = .ok v := by
  rw [parse_display, if_pos major, ← patch, repatched_patch]

theorem exists_parse_iff (v : ApiVersion) :
    (∃ s, parse s = .ok v) ↔ v.patch = patchLevel ∧ v.major ≤ 127 ∧ v.minor ≤ 1023 := by
  constructor
  · rintro ⟨s, accepted⟩
    obtain ⟨m, n, -, -, -, rfl⟩ := read_eq_ok_iff.mp (parse_eq_ok_iff.mp accepted)
    have large : (ofParts (.ofNat m) (.ofNat n) patchLevel).major.toNat ≤ 127 := by
      rw [major_ofParts, UInt32.toNat_mod]
      exact Nat.le_of_lt_succ (Nat.mod_lt _ (by decide))
    have small : (ofParts (.ofNat m) (.ofNat n) patchLevel).minor.toNat ≤ 1023 := by
      rw [minor_ofParts, UInt32.toNat_mod]
      exact Nat.le_of_lt_succ (Nat.mod_lt _ (by decide))
    exact ⟨patch_ofParts .., UInt32.le_iff_toNat_le.mpr large, UInt32.le_iff_toNat_le.mpr small⟩
  · rintro ⟨patch, major, -⟩
    exact ⟨v.display, parse_display_self patch major⟩

/-- A word is made of the components of its version, each cut down to its bits. A version is read
from its text just if its major component has seven bits, and then with the fixed patch. -/
theorem versions_read_back :
    (∀ v : ApiVersion, v.packed = (v.major <<< 22) ||| (v.minor <<< 12) ||| v.patch) ∧
    Function.Injective display ∧
    (∀ a b c, (ofParts a b c).major = a % 128 ∧ (ofParts a b c).minor = b % 1024 ∧
      (ofParts a b c).patch = c % 4096) ∧
    (∀ v : ApiVersion, ofParts v.major v.minor v.patch = v ↔ v.packed < 0x20000000) ∧
    (∀ v : ApiVersion, parse v.display =
      if v.major ≤ 127 then .ok ⟨(v.major <<< 22) ||| (v.minor <<< 12) ||| patchLevel⟩
      else .error ((ReadError.range .major v.major.toNat).failure v.display)) ∧
    (∀ v, (∃ s, parse s = .ok v) ↔ v.patch = patchLevel ∧ v.major ≤ 127 ∧ v.minor ≤ 1023) ∧
    (∀ s v, parse s = .ok v → parse v.display = .ok v) ∧
    ∀ s v w, parse s = .ok w → parse w.display = .ok v → v.display = w.display := by
  have again {s : String} {v : ApiVersion} (accepted : parse s = .ok v) :
      parse v.display = .ok v := by
    obtain ⟨patch, major, -⟩ := v.exists_parse_iff.mp ⟨s, accepted⟩
    exact parse_display_self patch major
  refine ⟨fun v => v.repatched_patch.symm, display_injective, ?_, ?_, parse_display,
    exists_parse_iff, fun _ _ => again, ?_⟩
  · intro a b c
    exact ⟨major_ofParts a b c, minor_ofParts a b c, patch_ofParts a b c⟩
  · intro v
    rw [ofParts_eq_self_iff, UInt32.lt_iff_toNat_lt]
    exact Iff.rfl
  · intro s v w accepted shown
    rw [again accepted] at shown
    cases shown
    rfl

/-- The largest word has a major component of ten bits, so no text is read as its version; a text
with blanks and a patch of its own is not the text of what it is read as. -/
theorem versions_read_back_wide :
    let v : ApiVersion := ⟨0xFFFFFFFF⟩
    let w := ofParts 1 2 patchLevel
    v.display = "1023.1023.4095" ∧ ofParts v.major v.minor v.patch ≠ v ∧
      (∀ s, parse s ≠ .ok v) ∧ parse " 01.+2.x" = .ok w ∧ parse "1.2.128" = .ok w := by
  intro v w
  obtain ⟨-, -, -, packed, -, read, shown, -⟩ := versions_read_back
  have accepted : parse " 01.+2.x" = .ok w := by rfl
  have text : w.display = "1.2.128" := by decide +kernel
  refine ⟨by decide +kernel, ?_, ?_, accepted, text ▸ shown _ w accepted⟩
  · rw [ne_eq, packed]
    decide
  · intro s wide
    exact absurd ((read v).mp ⟨s, wide⟩).2.1 (by decide)

end ApiVersion

end RenderBroker

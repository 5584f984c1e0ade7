import RenderBroker.Path

namespace RenderBroker

namespace Text

namespace Utf8

/-- Bytes with which a character that has begun ends. -/
inductive Partial.Ends : Partial → List UInt8 → Char → Prop
  | last {p : Partial} {b : UInt8} (owed : p.owed = 1) (low : p.low ≤ b) (high : b ≤ p.high) :
      p.Ends [b] (Char.ofNat (p.extend b).bits)
  | more {p : Partial} {b : UInt8} {bs : List UInt8} {c : Char} (owed : 1 < p.owed)
      (low : p.low ≤ b) (high : b ≤ p.high) (rest : (p.extend b).Ends bs c) : p.Ends (b :: bs) c

/-- A byte begins a character that ends with the bytes behind it. -/
def Spells (b : UInt8) (bs : List UInt8) (c : Char) : Prop :=
  match start b with
  | .whole d => bs = [] ∧ d = c
  | .owing p => p.Ends bs c
  | .nothing => False

theorem start_one {b : UInt8} (most : b.toNat ≤ 0x7F) : start b = .whole (Char.ofNat b.toNat) := by
  rw [start, if_pos (UInt8.le_iff_toNat_le.mpr most)]

theorem start_two {b : UInt8} (least : 0xC2 ≤ b.toNat) (most : b.toNat ≤ 0xDF) :
    start b = .owing { taken := [b], bits := b.toNat - 0xC0, owed := 1 } := by
  simp only [start, UInt8.le_iff_toNat_le, UInt8.lt_iff_toNat_lt, UInt8.reduceToNat]
  rw [if_neg (by omega), if_neg (by omega), if_pos most]

theorem start_three {b : UInt8} (least : 0xE0 ≤ b.toNat) (most : b.toNat ≤ 0xEF) :
    start b = .owing
      { taken := [b], bits := b.toNat - 0xE0, owed := 2
        low := if b = 0xE0 then 0xA0 else 0x80, high := if b = 0xED then 0x9F else 0xBF } := by
  simp only [start, UInt8.le_iff_toNat_le, UInt8.lt_iff_toNat_lt, ← UInt8.toNat_inj,
    UInt8.reduceToNat]
  repeat' split
  all_goals first | omega | simp_all

theorem start_four {b : UInt8} (least : 0xF0 ≤ b.toNat) (most : b.toNat ≤ 0xF4) :
    start b = .owing
      { taken := [b], bits := b.toNat - 0xF0, owed := 3
        low := if b = 0xF0 then 0x90 else 0x80, high := if b = 0xF4 then 0x8F else 0xBF } := by
  simp only [start, UInt8.le_iff_toNat_le, UInt8.lt_iff_toNat_lt, ← UInt8.toNat_inj,
    UInt8.reduceToNat]
  repeat' split
  all_goals first | omega | simp_all

theorem start_nothing {b : UInt8}
    (out : 0x80 ≤ b.toNat ∧ b.toNat < 0xC2 ∨ 0xF4 < b.toNat) : start b = .nothing := by
  simp only [start, UInt8.le_iff_toNat_le, UInt8.lt_iff_toNat_lt, ← UInt8.toNat_inj,
    UInt8.reduceToNat]
  repeat' split
  all_goals first | omega | rfl

theorem ite_le_iff {b k m n x : UInt8} : (if b = k then m else n) ≤ x ↔
    (b.toNat = k.toNat → m.toNat ≤ x.toNat) ∧ (b.toNat ≠ k.toNat → n.toNat ≤ x.toNat) := by
  simp only [ne_eq, UInt8.toNat_inj, ← UInt8.le_iff_toNat_le]
  split <;> simp [*]

theorem le_ite_iff {b k m n x : UInt8} : x ≤ (if b = k then m else n) ↔
    (b.toNat = k.toNat → x.toNat ≤ m.toNat) ∧ (b.toNat ≠ k.toNat → x.toNat ≤ n.toNat) := by
  simp only [ne_eq, UInt8.toNat_inj, ← UInt8.le_iff_toNat_le]
  split <;> simp [*]

theorem ofNat_eq_iff {n : Nat} {b : UInt8} : UInt8.ofNat n = b ↔ n % 256 = b.toNat := by
  rw [← UInt8.toNat_inj, UInt8.toNat_ofNat']

theorem toNat_ofNat {v : Nat} (valid : v.isValidChar) : (Char.ofNat v).toNat = v := by
  rw [Char.ofNat, dif_pos valid]
  rfl

theorem encode_one {b : UInt8} (most : b.toNat ≤ 0x7F) :
    String.utf8EncodeChar (Char.ofNat b.toNat) = [b] := by
  have value : (Char.ofNat b.toNat).toNat = b.toNat :=
    toNat_ofNat (.inl (by omega))
  simp only [String.utf8EncodeChar, Char.toNat_val, value, if_pos most, UInt8.ofNat_toNat]

theorem encode_two {b x : UInt8} {v : Nat}
    (is : v = (b.toNat - 0xC0) * 64 + (x.toNat - 0x80)) (least : 0xC2 ≤ b.toNat)
    (most : b.toNat ≤ 0xDF) (low : 0x80 ≤ x.toNat) (high : x.toNat ≤ 0xBF) :
    String.utf8EncodeChar (Char.ofNat v) = [b, x] := by
  have value : (Char.ofNat v).toNat = v :=
    toNat_ofNat (.inl (by omega))
  simp only [String.utf8EncodeChar, Char.toNat_val, value]
  rw [if_neg (by omega), if_pos (by omega)]
  simp only [List.cons.injEq, ofNat_eq_iff, and_true]
  omega

theorem encode_three {b x y : UInt8} {v : Nat}
    (is : v = ((b.toNat - 0xE0) * 64 + (x.toNat - 0x80)) * 64 + (y.toNat - 0x80))
    (least : 0xE0 ≤ b.toNat) (most : b.toNat ≤ 0xEF)
    (low : (b.toNat = 0xE0 → 0xA0 ≤ x.toNat) ∧ (b.toNat ≠ 0xE0 → 0x80 ≤ x.toNat))
    (high : (b.toNat = 0xED → x.toNat ≤ 0x9F) ∧ (b.toNat ≠ 0xED → x.toNat ≤ 0xBF))
    (low' : 0x80 ≤ y.toNat) (high' : y.toNat ≤ 0xBF) :
    String.utf8EncodeChar (Char.ofNat v) = [b, x, y] := by
  have value : (Char.ofNat v).toNat = v :=
    toNat_ofNat (by unfold Nat.isValidChar; omega)
  simp only [String.utf8EncodeChar, Char.toNat_val, value]
  rw [if_neg (by omega), if_neg (by omega), if_pos (by omega)]
  simp only [List.cons.injEq, ofNat_eq_iff, and_true]
  omega

theorem encode_four {b x y z : UInt8} {v : Nat}
    (is : v = (((b.toNat - 0xF0) * 64 + (x.toNat - 0x80)) * 64 + (y.toNat - 0x80)) * 64
      + (z.toNat - 0x80))
    (least : 0xF0 ≤ b.toNat) (most : b.toNat ≤ 0xF4)
    (low : (b.toNat = 0xF0 → 0x90 ≤ x.toNat) ∧ (b.toNat ≠ 0xF0 → 0x80 ≤ x.toNat))
    (high : (b.toNat = 0xF4 → x.toNat ≤ 0x8F) ∧ (b.toNat ≠ 0xF4 → x.toNat ≤ 0xBF))
    (low' : 0x80 ≤ y.toNat) (high' : y.toNat ≤ 0xBF)
    (low'' : 0x80 ≤ z.toNat) (high'' : z.toNat ≤ 0xBF) :
    String.utf8EncodeChar (Char.ofNat v) = [b, x, y, z] := by
  have value : (Char.ofNat v).toNat = v :=
    toNat_ofNat (by unfold Nat.isValidChar; omega)
  simp only [String.utf8EncodeChar, Char.toNat_val, value]
  rw [if_neg (by omega), if_neg (by omega), if_neg (by omega)]
  simp only [List.cons.injEq, ofNat_eq_iff, and_true]
  omega

theorem encode_of_spells {b : UInt8} {bs : List UInt8} {c : Char} (spells : Spells b bs c) :
    String.utf8EncodeChar c = b :: bs := by
  rcases (by omega : b.toNat ≤ 0x7F ∨ (0xC2 ≤ b.toNat ∧ b.toNat ≤ 0xDF) ∨
      (0xE0 ≤ b.toNat ∧ b.toNat ≤ 0xEF) ∨ (0xF0 ≤ b.toNat ∧ b.toNat ≤ 0xF4) ∨
      (0x80 ≤ b.toNat ∧ b.toNat < 0xC2 ∨ 0xF4 < b.toNat))
    with one | ⟨least, most⟩ | ⟨least, most⟩ | ⟨least, most⟩ | out
  · rw [Spells, start_one one] at spells
    obtain ⟨rfl, rfl⟩ := spells
    exact encode_one one
  · rw [Spells, start_two least most] at spells
    cases spells with
    | more owed => exact absurd owed (Nat.lt_irrefl 1)
    | last _ low high =>
      exact encode_two rfl least most (UInt8.le_iff_toNat_le.mp low) (UInt8.le_iff_toNat_le.mp high)
  · rw [Spells, start_three least most] at spells
    cases spells with
    | last owed => cases owed
    | more _ low high rest =>
      cases rest with
      | more owed => exact absurd owed (Nat.lt_irrefl 1)
      | last _ low' high' =>
        exact encode_three rfl least most (ite_le_iff.mp low) (le_ite_iff.mp high)
          (UInt8.le_iff_toNat_le.mp low') (UInt8.le_iff_toNat_le.mp high')
  · rw [Spells, start_four least most] at spells
    cases spells with
    | last owed => cases owed
    | more _ low high rest =>
      cases rest with
      | last owed => cases owed
      | more _ low' high' rest =>
        cases rest with
        | more owed => exact absurd owed (Nat.lt_irrefl 1)
        | last _ low'' high'' =>
          exact encode_four rfl least most (ite_le_iff.mp low) (le_ite_iff.mp high)
            (UInt8.le_iff_toNat_le.mp low') (UInt8.le_iff_toNat_le.mp high')
            (UInt8.le_iff_toNat_le.mp low'') (UInt8.le_iff_toNat_le.mp high'')
  · rw [Spells, start_nothing out] at spells
    exact spells.elim

theorem exists_byte {n : Nat} (small : n < 256) : ∃ b : UInt8, b.toNat = n :=
  ⟨.ofNat n, UInt8.toNat_ofNat_of_lt' small⟩

theorem exists_spells (c : Char) : ∃ b bs, Spells b bs c := by
  obtain ⟨v, valid, rfl⟩ : ∃ v : Nat, v.isValidChar ∧ Char.ofNat v = c :=
    ⟨c.toNat, c.valid, Char.ofNat_toNat c⟩
  unfold Nat.isValidChar at valid
  -- each byte behind the first takes six bits, and the first one takes those that are left
  rcases (by omega : v ≤ 0x7F ∨ (0x80 ≤ v ∧ v ≤ 0x7FF) ∨ (0x800 ≤ v ∧ v ≤ 0xFFFF) ∨ 0x10000 ≤ v)
    with one | two | three | four
  · obtain ⟨b, hb⟩ := exists_byte (n := v) (by omega)
    refine ⟨b, [], ?_⟩
    rw [Spells, start_one (by omega)]
    exact ⟨rfl, by rw [hb]⟩
  · obtain ⟨b, hb⟩ := exists_byte (n := v / 64 + 0xC0) (by omega)
    obtain ⟨x, hx⟩ := exists_byte (n := v % 64 + 0x80) (by omega)
    refine ⟨b, [x], ?_⟩
    rw [Spells, start_two (by omega) (by omega)]
    have bits : v = (b.toNat - 0xC0) * 64 + (x.toNat - 0x80) := by omega
    rw [bits]
    refine .last rfl ?_ ?_
    all_goals simp only [UInt8.le_iff_toNat_le, UInt8.reduceToNat]; omega
  · obtain ⟨b, hb⟩ := exists_byte (n := v / 4096 + 0xE0) (by omega)
    obtain ⟨x, hx⟩ := exists_byte (n := v / 64 % 64 + 0x80) (by omega)
    obtain ⟨y, hy⟩ := exists_byte (n := v % 64 + 0x80) (by omega)
    refine ⟨b, [x, y], ?_⟩
    rw [Spells, start_three (by omega) (by omega)]
    have bits : v = ((b.toNat - 0xE0) * 64 + (x.toNat - 0x80)) * 64 + (y.toNat - 0x80) := by omega
    rw [bits]
    refine .more Nat.one_lt_two (ite_le_iff.mpr ?_) (le_ite_iff.mpr ?_) (.last rfl ?_ ?_)
    all_goals simp only [Partial.extend, UInt8.le_iff_toNat_le, UInt8.reduceToNat]; omega
  · obtain ⟨b, hb⟩ := exists_byte (n := v / 262144 + 0xF0) (by omega)
    obtain ⟨x, hx⟩ := exists_byte (n := v / 4096 % 64 + 0x80) (by omega)
    obtain ⟨y, hy⟩ := exists_byte (n := v / 64 % 64 + 0x80) (by omega)
    obtain ⟨z, hz⟩ := exists_byte (n := v % 64 + 0x80) (by omega)
    refine ⟨b, [x, y, z], ?_⟩
    rw [Spells, start_four (by omega) (by omega)]
    have bits : v = (((b.toNat - 0xF0) * 64 + (x.toNat - 0x80)) * 64 + (y.toNat - 0x80)) * 64
        + (z.toNat - 0x80) := by omega
    rw [bits]
    refine .more (Nat.one_lt_succ_succ 1) (ite_le_iff.mpr ?_) (le_ite_iff.mpr ?_)
      (.more Nat.one_lt_two ?_ ?_ (.last rfl ?_ ?_))
    all_goals simp only [Partial.extend, UInt8.le_iff_toNat_le, UInt8.reduceToNat]; omega

theorem piecesAfter_of_ends {p : Partial} {bs : List UInt8} {c : Char} (ends : p.Ends bs c)
    (s : List UInt8) : piecesAfter (some p) (bs ++ s) = .char c :: piecesAfter none s := by
  induction ends with
  | @last p b owed low high =>
    have all : (p.extend b).owed = 0 := by simp [Partial.extend, owed]
    simp only [List.cons_append, List.nil_append, piecesAfter, if_pos (And.intro low high),
      if_pos all]
  | @more p b bs c owed low high rest ih =>
    have some : (p.extend b).owed ≠ 0 := Nat.sub_ne_zero_of_lt owed
    simp only [List.cons_append, piecesAfter, if_pos (And.intro low high), if_neg some, ih]

theorem pieces_of_spells {b : UInt8} {bs : List UInt8} {c : Char} (spells : Spells b bs c)
    (s : List UInt8) : pieces (b :: bs ++ s) = .char c :: pieces s := by
  rw [pieces, List.cons_append, piecesAfter]
  rw [Spells] at spells
  cases begun : start b with
  | whole d =>
    rw [begun] at spells
    obtain ⟨rfl, rfl⟩ := spells
    rfl
  | owing p =>
    rw [begun] at spells
    exact piecesAfter_of_ends spells s
  | nothing =>
    rw [begun] at spells
    exact spells.elim

theorem exists_ends {p : Partial} {s : List UInt8} {t : List Char} (owed : p.owed ≠ 0)
    (whole : wholeText (piecesAfter (some p) s) = some t) :
    ∃ bs rest c, s = bs ++ rest ∧ p.Ends bs c := by
  induction s generalizing p with
  | nil => cases whole
  | cons b s ih =>
    rw [piecesAfter] at whole
    split at whole
    next bounds =>
      dsimp only at whole
      split at whole
      next last =>
        refine ⟨[b], s, _, rfl, .last ?_ bounds.1 bounds.2⟩
        have one : p.owed - 1 = 0 := last
        omega
      next more =>
        obtain ⟨bs, rest, c, rfl, ends⟩ := ih more whole
        have some : p.owed - 1 ≠ 0 := more
        exact ⟨b :: bs, rest, c, rfl, .more (by omega) bounds.1 bounds.2 ends⟩
    next =>
      cases begun : start b <;> rw [begun] at whole <;> cases whole

theorem owed_of_start {b : UInt8} {p : Partial} (begun : start b = .owing p) : p.owed ≠ 0 := by
  unfold start at begun
  repeat' split at begun
  all_goals first | (cases begun; simp) | cases begun

theorem exists_spells_of_whole {b : UInt8} {s : List UInt8} {t : List Char}
    (whole : wholeText (pieces (b :: s)) = some t) :
    ∃ bs rest c, s = bs ++ rest ∧ Spells b bs c := by
  rw [pieces, piecesAfter] at whole
  cases begun : start b with
  | whole c => exact ⟨[], s, c, rfl, by rw [Spells, begun]; exact ⟨rfl, rfl⟩⟩
  | owing p =>
    rw [begun] at whole
    obtain ⟨bs, rest, c, parted, ends⟩ := exists_ends (owed_of_start begun) whole
    exact ⟨bs, rest, c, parted, by rw [Spells, begun]; exact ends⟩
  | nothing =>
    rw [begun] at whole
    cases whole

end Utf8

open Utf8

/-- The bytes of a text are read as that text. -/
theorem decodeUtf8?_encodeUtf8 (t : List Char) : decodeUtf8? (encodeUtf8 t) = some t := by
  induction t with
  | nil => rfl
  | cons c t ih =>
    obtain ⟨b, bs, spells⟩ := exists_spells c
    rw [encodeUtf8, List.flatMap_cons, encode_of_spells spells, decodeUtf8?,
      pieces_of_spells spells, wholeText]
    exact congrArg (Option.map (c :: ·)) ih

theorem encodeUtf8_of_decodeUtf8? {s : List UInt8} {t : List Char} (read : decodeUtf8? s = some t) :
    encodeUtf8 t = s := by
  -- a character takes up to four bytes, so the induction is on their number
  induction hn : s.length using Nat.strongRecOn generalizing s t with
  | _ n ih =>
  cases s with
  | nil =>
    cases read
    rfl
  | cons b s =>
    obtain ⟨bs, rest, c, rfl, spells⟩ := exists_spells_of_whole read
    rw [decodeUtf8?, ← List.cons_append, pieces_of_spells spells, wholeText] at read
    obtain ⟨u, behind, rfl⟩ := Option.map_eq_some_iff.mp read
    rw [encodeUtf8, List.flatMap_cons, encode_of_spells spells, List.cons_append]
    have shorter : rest.length < n := by
      rw [← hn, List.length_cons, List.length_append]
      omega
    exact congrArg (fun r => b :: (bs ++ r)) (ih _ shorter behind rfl)

theorem decodeUtf8?_eq_some_iff {s : List UInt8} {t : List Char} :
    decodeUtf8? s = some t ↔ s = encodeUtf8 t :=
  ⟨fun read => (encodeUtf8_of_decodeUtf8? read).symm, fun h => h ▸ decodeUtf8?_encodeUtf8 t⟩

end Text

theorem Path.text?_eq_some_iff {p : Path} {s : String} : p.text? = some s ↔ p = .ofString s := by
  rw [Path.text?, Option.map_eq_some_iff]
  constructor
  · rintro ⟨t, read, rfl⟩
    rw [Path.ofString, Text.utf8, String.toList_ofList, Text.encodeUtf8_of_decodeUtf8? read]
  · rintro rfl
    exact ⟨s.toList, Text.decodeUtf8?_encodeUtf8 _, String.ofList_toList⟩

end RenderBroker

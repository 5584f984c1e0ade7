import RenderBroker.Text.Blank
import RenderBroker.Text.Decimal

namespace RenderBroker.Text

variable {max n : Nat} {s : List Char}

theorem toNat_digitChar {n : Nat} (small : n < 10) : (digitChar n).toNat = n + 48 := by
  have all : ∀ n < 10, (digitChar n).toNat = n + 48 := by decide
  exact all n small

theorem isDigit_digitChar {n : Nat} (small : n < 10) : (digitChar n).isDigit = true := by
  have all : ∀ n < 10, (digitChar n).isDigit = true := by decide
  exact all n small

theorem isDigit_iff {c : Char} : c.isDigit = true ↔ 48 ≤ c.toNat ∧ c.toNat ≤ 57 := by
  simp only [Char.isDigit, Bool.and_eq_true, decide_eq_true_eq, ge_iff_le, UInt32.le_iff_toNat_le]
  rfl

theorem isBlank_of_isDigit {c : Char} (digit : c.isDigit = true) : isBlank c = false := by
  rw [isDigit_iff] at digit
  simp [isBlank, blankRanges]
  omega

theorem digitValue?_eq_some_iff {c : Char} {d : Nat} :
    digitValue? c = some d ↔ c.isDigit = true ∧ d = c.toNat - 48 := by
  rw [digitValue?, isDigit_iff, eq_comm (a := d)]
  split
  next digit => simp [digit]
  next other => simp [other]

theorem digits_eq_append {n : Nat} (large : 10 ≤ n) :
    digits 8 n = digits 8 (n / 10) ++ [digitChar (n % 10)] := by
  rw [digits, if_neg (Nat.not_lt.mpr large)]

theorem digits_eq_singleton {n : Nat} (small : n < 10) : digits 8 n = [digitChar n] := by
  rw [digits, if_pos small]

theorem valueOfDigits_digits (n : Nat) : valueOfDigits 0 (digits 8 n) = n := by
  induction n using Nat.strongRecOn with
  | _ n ih =>
    rcases Nat.lt_or_ge n 10 with small | large
    · simp [digits_eq_singleton small, valueOfDigits, toNat_digitChar small]
    · have last := toNat_digitChar (Nat.mod_lt n (by omega : 0 < 10))
      have front := ih (n / 10) (by omega)
      rw [valueOfDigits] at front
      rw [digits_eq_append large, valueOfDigits, List.foldl_append, front]
      simp only [List.foldl_cons, List.foldl_nil, last]
      omega

theorem isDigit_of_mem_digits {n : Nat} {c : Char} (member : c ∈ digits 8 n) :
    c.isDigit = true := by
  induction n using Nat.strongRecOn with
  | _ n ih =>
    rcases Nat.lt_or_ge n 10 with small | large
    · rw [digits_eq_singleton small, List.mem_singleton] at member
      exact member ▸ isDigit_digitChar small
    · rw [digits_eq_append large, List.mem_append, List.mem_singleton] at member
      rcases member with front | rfl
      · exact ih (n / 10) (by omega) front
      · exact isDigit_digitChar (Nat.mod_lt n (by omega))

theorem head?_digits {n : Nat} (positive : 0 < n) : (digits 8 n).head? ≠ some '0' := by
  induction n using Nat.strongRecOn with
  | _ n ih =>
    rcases Nat.lt_or_ge n 10 with small | large
    · have all : ∀ n < 10, 0 < n → [digitChar n].head? ≠ some '0' := by decide
      rw [digits_eq_singleton small]
      exact all n small positive
    · obtain ⟨c, s, front⟩ := List.exists_cons_of_ne_nil (digits_ne_nil 8 (n / 10))
      have head := ih (n / 10) (by omega) (by omega)
      rw [front] at head
      rw [digits_eq_append large, front]
      exact head

theorem digits_injective {m n : Nat} (same : digits 8 m = digits 8 n) : m = n := by
  rw [← valueOfDigits_digits m, same, valueOfDigits_digits]

/-- One digit or more, with a plus sign in front or without, and the number that they denote. -/
inductive Numeral : List Char → Nat → Prop
  | plain {s : List Char} (some : s ≠ []) (digits : ∀ c ∈ s, c.isDigit = true) :
      Numeral s (valueOfDigits 0 s)
  | signed {s : List Char} (some : s ≠ []) (digits : ∀ c ∈ s, c.isDigit = true) :
      Numeral ('+' :: s) (valueOfDigits 0 s)

theorem numeral_digits (n : Nat) : Numeral (digits 8 n) n := by
  have numeral := Numeral.plain (digits_ne_nil 8 n) fun _ => isDigit_of_mem_digits
  rwa [valueOfDigits_digits] at numeral

theorem Numeral.unique {m : Nat} (first : Numeral s m) (second : Numeral s n) : m = n := by
  cases first with
  | plain _ digits =>
    cases second with
    | plain => rfl
    | signed => cases digits '+' (.head _)
  | signed =>
    cases second with
    | plain _ digits => cases digits '+' (.head _)
    | signed => rfl

theorem Numeral.not_mem {c : Char} (numeral : Numeral s n) (digit : c.isDigit = false)
    (plus : c ≠ '+') : c ∉ s := by
  intro member
  cases numeral with
  | plain _ digits => simp [digits c member] at digit
  | signed _ digits =>
    rcases List.mem_cons.mp member with here | member
    · exact plus here
    · simp [digits c member] at digit

theorem le_valueOfDigits (value : Nat) (s : List Char) : value ≤ valueOfDigits value s := by
  induction s generalizing value with
  | nil => exact Nat.le_refl value
  | cons c s ih => exact Nat.le_trans (by omega) (ih (value * 10 + (c.toNat - 48)))

theorem readDigits_eq_ok_iff {value : Nat} (small : value ≤ max) :
    readDigits max value s = .ok n ↔
      (∀ c ∈ s, c.isDigit = true) ∧ valueOfDigits value s = n ∧ n ≤ max := by
  induction s generalizing value with
  | nil => grind [readDigits, valueOfDigits]
  | cons c s ih =>
    have value_cons : valueOfDigits value (c :: s) =
        valueOfDigits (value * 10 + (c.toNat - 48)) s :=
      rfl
    rw [readDigits, List.forall_mem_cons, value_cons]
    cases digit : digitValue? c with
    | none =>
      have other : c.isDigit ≠ true := fun d => by
        rw [digitValue?_eq_some_iff.mpr ⟨d, rfl⟩] at digit
        cases digit
      simp [other]
    | some d =>
      obtain ⟨isDigit, rfl⟩ := digitValue?_eq_some_iff.mp digit
      have grown := le_valueOfDigits (value * 10 + (c.toNat - 48)) s
      dsimp only
      split
      next small => rw [ih small, and_iff_right isDigit]
      next large =>
        constructor
        · intro read
          cases read
        · rintro ⟨-, rfl, fits⟩
          exact absurd (Nat.le_trans grown fits) large

theorem readNumeral_eq_ok_iff : readNumeral max s = .ok n ↔ Numeral s n ∧ n ≤ max := by
  constructor
  · intro read
    unfold readNumeral at read
    split at read
    next => cases read
    next => cases read
    next s some =>
      obtain ⟨digits, rfl, fits⟩ := (readDigits_eq_ok_iff (Nat.zero_le max)).mp read
      exact ⟨.signed some digits, fits⟩
    next s some _ _ =>
      obtain ⟨digits, rfl, fits⟩ := (readDigits_eq_ok_iff (Nat.zero_le max)).mp read
      exact ⟨.plain some digits, fits⟩
  · rintro ⟨numeral, fits⟩
    cases numeral with
    | @plain s some digits =>
      have read := (readDigits_eq_ok_iff (Nat.zero_le max)).mpr ⟨digits, rfl, fits⟩
      unfold readNumeral
      split
      next => exact absurd rfl some
      next => cases digits '+' (.head _)
      next => cases digits '+' (.head _)
      next => exact read
    | @signed s some digits =>
      have read := (readDigits_eq_ok_iff (Nat.zero_le max)).mpr ⟨digits, rfl, fits⟩
      unfold readNumeral
      split
      next none => cases none
      next none =>
        cases none
        exact absurd rfl some
      next same =>
        cases same
        exact read
      next other => exact absurd rfl (other s)

end RenderBroker.Text

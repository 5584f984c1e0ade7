/-!
# Unsigned decimal numerals

Reading a bounded numeral, one digit after the other, with the first problem as the answer, and
printing one; the same digits in base sixteen are printed for handles and bytes.
-/

namespace RenderBroker.Text

def digitChar (n : Nat) : Char :=
  if n < 10 then Char.ofNat (48 + n) else Char.ofNat (87 + n)

def digitValue? (c : Char) : Option Nat :=
  if 48 ≤ c.toNat ∧ c.toNat ≤ 57 then some (c.toNat - 48) else none

/-- The digits of `n` in base `b + 2`, the most significant first. -/
def digits (b : Nat) (n : Nat) : List Char :=
  if n < b + 2 then [digitChar n] else digits b (n / (b + 2)) ++ [digitChar (n % (b + 2))]
termination_by n
decreasing_by exact Nat.div_lt_self (by omega) (by omega)

def decimal (n : Nat) : String :=
  String.ofList (digits 8 n)

/-- The decimal text of an integer, with a sign if it is negative. -/
def decimalInt (i : Int) : String :=
  if i < 0 then "-" ++ decimal i.natAbs else decimal i.natAbs

def hexadecimal (n : Nat) : String :=
  String.ofList (digits 14 n)

inductive NumeralError where
  | empty
  | invalidDigit
  | tooLarge
  deriving DecidableEq, Repr

def NumeralError.message : NumeralError → String
  | .empty => "cannot parse integer from empty string"
  | .invalidDigit => "invalid digit found in string"
  | .tooLarge => "number too large to fit in target type"

/-- Appends digits to a value that must stay at most `max`. -/
def readDigits (max : Nat) (value : Nat) : List Char → Except NumeralError Nat
  | [] => .ok value
  | c :: s =>
    match digitValue? c with
    | none => .error .invalidDigit
    | some d =>
      if value * 10 + d ≤ max then readDigits max (value * 10 + d) s else .error .tooLarge

/-- Reads digits, at least one, after an optional plus sign. -/
def readNumeral (max : Nat) : List Char → Except NumeralError Nat
  | [] => .error .empty
  | '+' :: [] => .error .invalidDigit
  | '+' :: s => readDigits max 0 s
  | s => readDigits max 0 s

/-- The value that a list of decimal digits denotes after `value`. -/
def valueOfDigits (value : Nat) (s : List Char) : Nat :=
  s.foldl (fun v c => v * 10 + (c.toNat - 48)) value

theorem digits_ne_nil (b n : Nat) : digits b n ≠ [] := by
  rw [digits]
  split <;> simp

end RenderBroker.Text

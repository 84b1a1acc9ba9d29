import HandlebarsToTwig.Text

/-! Digits and the numbers they stand for. -/
namespace HandlebarsToTwig.Text

/-- The value of a hexadecimal digit, in either case. -/
def hexValue? (c : Char) : Option Nat :=
  if '0' ≤ c ∧ c ≤ '9' then some (c.toNat - '0'.toNat)
  else if 'a' ≤ c ∧ c ≤ 'f' then some (c.toNat - 'a'.toNat + 10)
  else if 'A' ≤ c ∧ c ≤ 'F' then some (c.toNat - 'A'.toNat + 10)
  else none

/-- Whether `c` is a digit to the base `base`, which is at most sixteen. -/
def isDigit (base : Nat) (c : Char) : Bool := (hexValue? c).any (· < base)

/-- The number that a row of digits stands for. -/
def value (base : Nat) (digits : Text) : Nat :=
  digits.foldl (fun n d => n * base + (hexValue? d).getD 0) 0

end HandlebarsToTwig.Text

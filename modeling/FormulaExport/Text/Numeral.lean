/-!
# Unsigned numerals

A **numeral** is an optional `+` and one or more digits of a base. Nothing else is allowed: no
other sign, no blank and no digit outside ASCII.
-/

set_option autoImplicit false

namespace FormulaExport.Text

/-- The value of an ASCII digit or letter, as a digit of the largest base in use. -/
def digitValue? (c : Char) : Option Nat :=
  if '0' ≤ c ∧ c ≤ '9' then some (c.toNat - '0'.toNat)
  else if 'a' ≤ c ∧ c ≤ 'f' then some (c.toNat - 'a'.toNat + 10)
  else if 'A' ≤ c ∧ c ≤ 'F' then some (c.toNat - 'A'.toNat + 10)
  else none

/-- The value of a character as a digit of `base`. -/
def digitOf? (base : Nat) (c : Char) : Option Nat :=
  (digitValue? c).filter (· < base)

/-- Reads digits behind a value that has been read already. -/
def digitsFrom? (base : Nat) : Nat → List Char → Option Nat
  | value, [] => some value
  | value, c :: text =>
    match digitOf? base c with
    | some digit => digitsFrom? base (base * value + digit) text
    | none => none

/-- The value of a run of one or more digits. -/
def digits? (base : Nat) : List Char → Option Nat
  | [] => none
  | c :: text => digitsFrom? base 0 (c :: text)

/-- The value of a numeral: an optional `+` and one or more digits. -/
def numeral? (base : Nat) : List Char → Option Nat
  | '+' :: text => digits? base text
  | text => digits? base text

end FormulaExport.Text

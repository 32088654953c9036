set_option autoImplicit false

/-! # Decimal digits, and the numbers of a 64-bit word -/

namespace SchemaHeader.Decimal

/-- Whether a character is a decimal digit. -/
def isDigit (c : Char) : Bool :=
  decide ('0' ≤ c) && decide (c ≤ '9')

/-- The value of a decimal digit. -/
def digitValue (c : Char) : Nat :=
  c.toNat - 48

/-- The number that decimal digits write, the first one counting most. -/
def ofDigits (digits : List Char) : Nat :=
  digits.foldl (fun n c => n * 10 + digitValue c) 0

/-- The first number that does not fit a 64-bit word. -/
def wordLimit : Nat := 0x10000000000000000

/-- The magnitude of the least number that fits a signed 64-bit word. -/
def signedLimit : Nat := 0x8000000000000000

end SchemaHeader.Decimal

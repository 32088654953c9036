set_option autoImplicit false

/-! # Characters written by their codes

A character that would not show can be written by its hexadecimal code, in braces or as two digits.
-/

namespace SchemaHeader.Text

/-- A number in lower-case hexadecimal digits. -/
def hex (n : Nat) : List Char :=
  Nat.toDigits 16 n

/-- A character by its code in braces. -/
def bracedCode (c : Char) : List Char :=
  ['\\', 'u', '\x7b'] ++ hex c.toNat ++ ['\x7d']

/-- A character below 256 by the two digits of its code. -/
def twoDigitCode (c : Char) : List Char :=
  ['\\', 'x'] ++ hex (c.toNat / 16) ++ hex (c.toNat % 16)

end SchemaHeader.Text

import SchemaHeader.Decimal.Shortest
import SchemaHeader.Json.Basic

set_option autoImplicit false

/-! # The text of a number

Integers are written in decimal. A floating point value is written with its shortest digits,
laid out by `NumberLayout`: positional notation for a range of exponents, a mark with a signed
exponent for all others.
-/

namespace SchemaHeader

/-- How the digits of a floating point value become text. -/
structure NumberLayout where
  /-- The least decimal exponent that is written positionally. -/
  leastPositional : Int
  /-- The greatest decimal exponent that is written positionally. -/
  greatestPositional : Int
  /-- What separates the digits from the exponent. -/
  mark : String
  /-- What ends a positional text whose digits do not reach the point. -/
  wholeEnd : String

/-- **The layout of JSON numbers**: `0.00001` to `1000000000000000.0` are positional with at
least one digit after the point, other values carry an exponent with its sign and no padding. -/
def NumberLayout.json : NumberLayout :=
  ⟨-5, 15, "e", ".0"⟩

namespace NumberLayout

/-- `n` zeros. -/
def zeros (n : Nat) : String :=
  String.ofList (List.replicate n '0')

/-- Digits with the point after the first `whole` of them; `whole` may exceed their number. -/
def fixed (layout : NumberLayout) (digits : List Char) (whole : Nat) : String :=
  if whole < digits.length then
    String.ofList (digits.take whole) ++ "." ++ String.ofList (digits.drop whole)
  else
    String.ofList digits ++ zeros (whole - digits.length) ++ layout.wholeEnd

/-- One digit before the point, then the exponent with its sign. -/
def scientific (layout : NumberLayout) (digits : List Char) (exponent : Int) : String :=
  let fraction := if digits.length ≤ 1 then "" else "." ++ String.ofList (digits.drop 1)
  let sign := if exponent < 0 then "-" else "+"
  String.ofList (digits.take 1) ++ fraction ++ layout.mark ++ sign ++ toString exponent.natAbs

/-- The text of a decimal. -/
def write (layout : NumberLayout) (decimal : Decimal.Scaled) : String :=
  let digits := (toString decimal.significand).toList
  let exponent := (digits.length : Int) - 1 + decimal.exponent
  if exponent < layout.leastPositional ∨ layout.greatestPositional < exponent then
    layout.scientific digits exponent
  else if 0 ≤ exponent then
    layout.fixed digits (exponent.toNat + 1)
  else
    "0." ++ zeros (-exponent - 1).toNat ++ String.ofList digits

/-- The text of a floating point value. Zero keeps its sign; what is not a finite number has
no JSON number and is written as null. -/
def float (layout : NumberLayout) (value : Float) : String :=
  let bits := value.toBits
  let sign := if bits >>> 63 = 0 then "" else "-"
  let magnitude := Decimal.Binary.ofBits bits
  if (bits >>> 52) &&& 0x7FF = 0x7FF then "null"
  else if magnitude.mantissa = 0 then sign ++ "0" ++ layout.wholeEnd
  else sign ++ layout.write (Decimal.shortest magnitude)

end NumberLayout

/-- The JSON text of a number. -/
def Number.text : Number → String
  | .integer value => toString value
  | .float value => NumberLayout.json.float value

end SchemaHeader

import SchemaHeader.Text.UpperCase

set_option autoImplicit false

/-! # Names of generated types

A name in mixed case is split at its upper-case letters: the first character stays as it is, and
every later upper-case character becomes a separator and its lower case.
-/

namespace SchemaHeader.Naming

/-- What a character behind the first one becomes. -/
def separate (c : Char) : List Char :=
  if Text.isUpper c then '_' :: Text.lower c else [c]

/-- Splits the characters of a name. -/
def normalizeChars : List Char → List Char
  | [] => []
  | c :: rest => c :: rest.flatMap separate

/-- Splits a name at its upper-case letters: `fuelType` becomes `fuel_type`. -/
def normalize (name : String) : String :=
  String.ofList (normalizeChars name.toList)

/-- The name of the enum type generated for a property of a definition. -/
def enumType (definition property : String) : String :=
  normalize definition ++ "_" ++ normalize property ++ "_kind"

end SchemaHeader.Naming

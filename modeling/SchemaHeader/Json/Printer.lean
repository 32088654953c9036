import SchemaHeader.Json.Number

set_option autoImplicit false

/-! # Writing JSON text

Two layouts of the same tokens: `Json.compact` has no blanks at all, `Json.pretty` puts every
item and field on a line of its own, two spaces deeper than its container, and closes empty
containers at once.
-/

namespace SchemaHeader.Json

/-! ## Strings -/

/-- The digit of a number below sixteen, in lower case. -/
def hexDigit (n : Nat) : Char :=
  if n < 10 then Char.ofNat (48 + n) else Char.ofNat (87 + n)

/-- How one character stands inside a string: the quote, the backslash and the control
characters are escaped, all others stand for themselves. -/
def escapeChar (c : Char) : List Char :=
  if c = '"' then ['\\', '"']
  else if c = '\\' then ['\\', '\\']
  else if c = '\x08' then ['\\', 'b']
  else if c = '\x0c' then ['\\', 'f']
  else if c = '\n' then ['\\', 'n']
  else if c = '\r' then ['\\', 'r']
  else if c = '\t' then ['\\', 't']
  else if c.toNat < 0x20 then
    ['\\', 'u', '0', '0', hexDigit (c.toNat / 16), hexDigit (c.toNat % 16)]
  else [c]

/-- A string literal. -/
def quote (text : String) : String :=
  "\"" ++ String.ofList (text.toList.flatMap escapeChar) ++ "\""

/-! ## Compact text -/

/-- Items between two brackets, separated by commas. -/
def bracketed (opening closing : String) (parts : List String) : String :=
  opening ++ String.intercalate "," parts ++ closing

mutual

/-- The text of a value without any blanks. -/
def compact : Json → String
  | .null => "null"
  | .bool value => if value then "true" else "false"
  | .number value => value.text
  | .string value => quote value
  | .array items => bracketed "[" "]" (compactItems items)
  | .object fields => bracketed "\x7b" "\x7d" (compactFields fields)

/-- The texts of the items. -/
def compactItems : List Json → List String
  | [] => []
  | item :: rest => item.compact :: compactItems rest

/-- The texts of the fields. -/
def compactFields : List (String × Json) → List String
  | [] => []
  | (key, value) :: rest => (quote key ++ ":" ++ value.compact) :: compactFields rest

end

/-! ## Indented text -/

/-- The blanks in front of a line at a depth. -/
def margin (depth : Nat) : String :=
  String.ofList (List.replicate (2 * depth) ' ')

/-- Parts on lines of their own, one level below `depth`. -/
def stacked (depth : Nat) (opening closing : String) (parts : List String) : String :=
  if parts.isEmpty then opening ++ closing
  else
    let lines := parts.map (margin (depth + 1) ++ ·)
    opening ++ "\n" ++ String.intercalate ",\n" lines ++ "\n" ++ margin depth ++ closing

mutual

/-- The indented text of a value that starts at `depth`. -/
def prettyAt (depth : Nat) : Json → String
  | .array items => stacked depth "[" "]" (prettyItems (depth + 1) items)
  | .object fields => stacked depth "\x7b" "\x7d" (prettyFields (depth + 1) fields)
  | .null => "null"
  | .bool value => if value then "true" else "false"
  | .number value => value.text
  | .string value => quote value

/-- The indented texts of the items. -/
def prettyItems (depth : Nat) : List Json → List String
  | [] => []
  | item :: rest => item.prettyAt depth :: prettyItems depth rest

/-- The indented texts of the fields. -/
def prettyFields (depth : Nat) : List (String × Json) → List String
  | [] => []
  | (key, value) :: rest =>
    (quote key ++ ": " ++ value.prettyAt depth) :: prettyFields depth rest

end

/-- The text of a value with one item or field a line. -/
def pretty (value : Json) : String :=
  value.prettyAt 0

end SchemaHeader.Json

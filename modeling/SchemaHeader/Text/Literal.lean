import SchemaHeader.Text.Code
import SchemaHeader.Text.Unprintable

set_option autoImplicit false

/-! # Quoted literals

A text between quotes in which every character can be told: quotes, backslashes and the common
control characters have short escapes, all other characters that do not show on their own are
written by their hexadecimal code.
-/

namespace SchemaHeader.Text

/-- How a character stands in a literal. -/
def literalChar (c : Char) : List Char :=
  if c = '\x00' then ['\\', '0']
  else if c = '\t' then ['\\', 't']
  else if c = '\r' then ['\\', 'r']
  else if c = '\n' then ['\\', 'n']
  else if c = '"' then ['\\', '"']
  else if c = '\\' then ['\\', '\\']
  else if isUnprintable c then bracedCode c
  else [c]

/-- A text as a quoted literal. -/
def literal (text : String) : String :=
  "\"" ++ String.ofList (text.toList.flatMap literalChar) ++ "\""

/-- A constructor with named fields, as a text. -/
def record (name : String) (fields : List (String × String)) : String :=
  name ++ " \x7b " ++ String.intercalate ", " (fields.map fun (key, value) => key ++ ": " ++ value)
    ++ " \x7d"

end SchemaHeader.Text

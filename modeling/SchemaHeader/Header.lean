import SchemaHeader.EnumType

set_option autoImplicit false

/-! # The text of a header

A header is a list of lines: the preamble that opens the namespace, one forward declaration for
each definition, the enum types, and the line that closes the namespace. Names and descriptions
are copied as they are.
-/

namespace SchemaHeader

/-- What can be chosen about the generated header. -/
structure Layout where
  /-- The namespace around all declarations. -/
  namespaceName : String := "dsp::data"
  /-- The headers to include, without angle brackets. -/
  includes : List String := ["string", "vector", "nlohmann/json.hpp"]
  /-- The number of spaces of one level of indentation. A text has room for `2 ^ 63 - 1` bytes and
  a header is two levels deep, so widths go up to `2 ^ 62 - 1`. With a larger one there is no header
  to speak of: a run breaks off at the first line whose blanks do not fit into a text. -/
  indentWidth : Nat := 4
  deriving DecidableEq, Repr

namespace Layout

/-- The blanks in front of a line at a depth. They are counted without a bound here; `indentWidth`
says how many there is room for. -/
def tab (layout : Layout) (depth : Nat) : String :=
  String.ofList (List.replicate (layout.indentWidth * depth) ' ')

/-- The lines up to the opening of the namespace. -/
def preamble (layout : Layout) : List String :=
  "#pragma once" :: layout.includes.map (fun header => "#include <" ++ header ++ ">")
    ++ ["", "namespace " ++ layout.namespaceName, "\x7b"]

/-- One forward declaration for each name. -/
def forwardDeclarations (layout : Layout) (depth : Nat) (names : List String) : List String :=
  names.map fun name => layout.tab depth ++ "class " ++ name ++ ";"

/-- The comment lines of a description. -/
def comment (layout : Layout) (depth : Nat) : Option String → List String
  | none => []
  | some description =>
    [layout.tab depth ++ "/*", layout.tab depth ++ description, layout.tab depth ++ "*/"]

/-- The lines of one value of an enum type. -/
def enumValue (layout : Layout) (depth : Nat) (value : EnumValue) : List String :=
  layout.comment depth value.description ++ [layout.tab depth ++ value.label ++ ","]

/-- The lines of an enum type. -/
def enumType (layout : Layout) (depth : Nat) (type : EnumType) : List String :=
  [layout.tab depth ++ "enum class " ++ type.name, layout.tab depth ++ "\x7b"]
    ++ type.values.flatMap (layout.enumValue (depth + 1))
    ++ [layout.tab depth ++ "\x7d;"]

/-- The lines of several enum types. -/
def enumTypes (layout : Layout) (depth : Nat) (types : List EnumType) : List String :=
  types.flatMap (layout.enumType depth)

/-- The line that closes the namespace. -/
def closing : List String :=
  ["\x7d"]

end Layout

end SchemaHeader

import SchemaHeader.Json.Number

set_option autoImplicit false

/-! # Enum keys of a property

A property schema may list the values of an enumeration under `enum` and `_enum`, and describe
them under `enumDescription`. The two lists of values count as one, and **a description belongs
to the value at the same position**, counted before unusable values are dropped.
-/

namespace SchemaHeader

/-- One value of an enumeration. -/
structure EnumValue where
  label : String
  description : Option String
  deriving DecidableEq, Repr

/-- A part of the enum keys that could not be used: a key, with an index for one of its
items, and what stood there. -/
structure EnumIssue where
  key : String
  found : Json.Kind
  deriving DecidableEq, Repr

/-- The values of an enumeration and what could not be used. -/
structure EnumSpec where
  values : List EnumValue
  issues : List EnumIssue
  deriving DecidableEq, Repr

/-- The text of a string, a number or a boolean; other values are no labels. -/
def Json.label? : Json → Option String
  | .string text => some text
  | .number n => some n.text
  | .bool b => some (if b then "true" else "false")
  | _ => none

namespace EnumSpec

/-- The items of a key that should hold a list; no list counts as an empty one. -/
def items (fields : Json.Fields) (key : String) : List Json :=
  match fields.get? key with
  | some (.array items) => items
  | _ => []

/-- The issues of the items from an index on. -/
def itemIssues (key : String) (index : Nat) : List Json → List EnumIssue
  | [] => []
  | item :: rest =>
    match item.label? with
    | some _ => itemIssues key (index + 1) rest
    | none => ⟨key ++ "[" ++ toString index ++ "]", item.kind⟩ :: itemIssues key (index + 1) rest

/-- What cannot be used under one key: the whole of it, or items of it. -/
def keyIssues (fields : Json.Fields) (key : String) : List EnumIssue :=
  match fields.get? key with
  | none => []
  | some (.array items) => itemIssues key 0 items
  | some other => [⟨key, other.kind⟩]

/-- Pairs labels and descriptions by position and drops the values without a label. -/
def pair : (labels descriptions : List (Option String)) → List EnumValue
  | [], _ => []
  | label :: labels, descriptions =>
    let rest := pair labels descriptions.tail
    match label with
    | some text => ⟨text, descriptions.head?.join⟩ :: rest
    | none => rest

/-- Reads the enum keys of a property schema; nothing if it has neither `enum` nor `_enum`. -/
def ofFields? (fields : Json.Fields) : Option EnumSpec :=
  if fields.has "enum" || fields.has "_enum" then
    let labels := (items fields "enum" ++ items fields "_enum").map Json.label?
    let descriptions := (items fields "enumDescription").map Json.label?
    some {
      values := pair labels descriptions
      issues := keyIssues fields "enum" ++ keyIssues fields "_enum"
        ++ keyIssues fields "enumDescription" }
  else none

/-- Reads the enum keys of any schema. -/
def ofJson? (schema : Json) : Option EnumSpec :=
  schema.fields?.bind ofFields?

/-- Whether some part of the enum keys could not be used. -/
def isMalformed (spec : EnumSpec) : Bool :=
  !spec.issues.isEmpty

end EnumSpec

end SchemaHeader

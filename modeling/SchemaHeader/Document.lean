import SchemaHeader.Composition
import SchemaHeader.Json.Reader
import SchemaHeader.Pointer

set_option autoImplicit false

/-! # Schema documents

A document is an object that maps names to bodies. Its definitions keep the order of the text,
and each is addressed by the pointer of its name.

`Document.ofJson` accepts exactly the objects all of whose fields are objects; of several faults
it reports the first one in source order.
-/

namespace SchemaHeader

/-- A named body of a document. -/
structure Definition where
  name : String
  /-- The pointer of the body, such as `/Vehicle`. -/
  pointer : String
  body : Composition
  deriving DecidableEq

/-- Why a text is not a schema document. -/
inductive DocumentError where
  | unreadable (error : Json.ReadError)
  | notAnObject (found : Json.Kind)
  | invalidDefinition (name : String) (found : Json.Kind)
  deriving DecidableEq, Repr

/-- The wording of a document error. -/
def DocumentError.message : DocumentError → String
  | .unreadable error =>
    "Parse error at line " ++ toString error.line ++ ", column " ++ toString error.column ++ ": "
      ++ error.cause.message
  | .notAnObject found =>
    "Schema document must be an object at the top level, found " ++ found.name
  | .invalidDefinition name found =>
    "Definition \"" ++ name ++ "\" must be an object, found " ++ found.name

/-- A schema document: its fields as they were written, and the definitions read from them. -/
structure Document where
  fields : Json.Fields
  definitions : List Definition
  deriving DecidableEq

namespace Document

/-- Reads one field as a definition. -/
def readDefinition (field : String × Json) : Except DocumentError Definition :=
  match Composition.ofJson? field.2 with
  | some body => .ok ⟨field.1, Pointer.ofField field.1, body⟩
  | none => .error (.invalidDefinition field.1 field.2.kind)

/-- Reads the fields as definitions, in order, up to the first one that is none. -/
def readDefinitions : Json.Fields → Except DocumentError (List Definition)
  | [] => .ok []
  | field :: rest =>
    match readDefinition field with
    | .error error => .error error
    | .ok definition =>
      match readDefinitions rest with
      | .error error => .error error
      | .ok definitions => .ok (definition :: definitions)

/-- Reads a document from a JSON value. -/
def ofJson (value : Json) : Except DocumentError Document :=
  match value with
  | .object fields =>
    match readDefinitions fields with
    | .error error => .error error
    | .ok definitions => .ok ⟨fields, definitions⟩
  | other => .error (.notAnObject other.kind)

/-- Reads a document from a text. -/
def parse (text : String) : Except DocumentError Document :=
  match Json.read text with
  | .error error => .error (.unreadable error)
  | .ok value => ofJson value

/-- The document as a JSON value. -/
def root (document : Document) : Json :=
  .object document.fields

/-- The value that a pointer leads to, with or without the fragment mark. -/
def lookup? (document : Document) (pointer : String) : Option Json :=
  document.root.resolve? (Pointer.canonical pointer)

/-- The definition of a name. -/
def definition? (document : Document) (name : String) : Option Definition :=
  document.definitions.find? (·.name == name)

/-- Whether a pointer, as it is written, is the pointer of a definition. -/
def isDefinition (document : Document) (pointer : String) : Bool :=
  document.definitions.any (·.pointer == pointer)

/-- The number of definitions. -/
def size (document : Document) : Nat :=
  document.definitions.length

end Document

end SchemaHeader

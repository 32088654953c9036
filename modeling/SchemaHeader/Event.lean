import SchemaHeader.Diagnostic

set_option autoImplicit false

/-! # Log events

What a run tells while it works. An event is a value; its level, its message and its fields are
functions of it, and so is the line that a log shows.
-/

namespace SchemaHeader

/-- How much an event matters. -/
inductive Level where
  | debug
  | info
  | warn
  deriving DecidableEq, Repr

/-- The name of a level in a log. -/
def Level.name : Level → String
  | .debug => "DEBUG"
  | .info => "INFO"
  | .warn => "WARN"

/-- The value of an event's field. -/
inductive FieldValue where
  /-- Shown as it is. -/
  | plain (text : String)
  /-- Shown as a quoted literal. -/
  | quoted (text : String)
  deriving DecidableEq, Repr

/-- The text of a field's value. -/
def FieldValue.text : FieldValue → String
  | .plain text => text
  | .quoted text => text

/-- Something that happened in a run. -/
inductive Event where
  | writingHeader (namespaceName : String)
  | writingForwardDeclarations (count : Nat)
  | creatingDefinition (definition : String)
  | includingReference (depth : Nat) (pointer : String)
  | skippingMember (depth : Nat) (diagnostic : Diagnostic)
  | repeatedProperty (definition property : String)
  | gatheredProperties (count : Nat)
  | extractedEnum (name : String) (values : Nat)
  | foundEnums (count : Nat)
  | cycleAlreadyReported (diagnostic : Diagnostic)
  | reported (diagnostic : Diagnostic)
  | writingFooter
  | generated (input output : String) (definitions enums : Nat)
  deriving DecidableEq, Repr

namespace Event

/-- The level of an event. -/
def level : Event → Level
  | .writingHeader _ => .info
  | .writingForwardDeclarations _ => .info
  | .creatingDefinition _ => .info
  | .includingReference _ _ => .debug
  | .skippingMember _ _ => .debug
  | .repeatedProperty _ _ => .warn
  | .gatheredProperties _ => .debug
  | .extractedEnum _ _ => .debug
  | .foundEnums _ => .debug
  | .cycleAlreadyReported _ => .debug
  | .reported _ => .warn
  | .writingFooter => .info
  | .generated _ _ _ _ => .info

/-- The message of an event. -/
def message : Event → String
  | .writingHeader _ => "writing file header"
  | .writingForwardDeclarations _ => "writing forward declarations"
  | .creatingDefinition _ => "creating definition"
  | .includingReference _ _ => "including reference"
  | .skippingMember _ _ => "skipping composition member"
  | .repeatedProperty _ _ => "property is declared more than once"
  | .gatheredProperties _ => "gathered properties"
  | .extractedEnum _ _ => "extracted enum"
  | .foundEnums _ => "found enums"
  | .cycleAlreadyReported _ => "cycle already reported"
  | .reported diagnostic => diagnostic.message
  | .writingFooter => "writing file footer"
  | .generated input output _ _ => "generated " ++ input ++ " → " ++ output

/-- The fields of an event, in the order in which a log shows them. -/
def fields : Event → List (String × FieldValue)
  | .writingHeader namespaceName => [("namespace", .plain namespaceName)]
  | .writingForwardDeclarations count => [("count", .plain (toString count))]
  | .creatingDefinition definition => [("definition", .plain definition)]
  | .includingReference depth pointer =>
    [("depth", .plain (toString depth)), ("pointer", .quoted pointer)]
  | .skippingMember depth diagnostic =>
    [("depth", .plain (toString depth)), ("diagnostic", .plain diagnostic.message)]
  | .repeatedProperty definition property =>
    [("definition", .plain definition), ("property", .quoted property)]
  | .gatheredProperties count => [("properties", .plain (toString count))]
  | .extractedEnum name values =>
    [("enum_name", .plain name), ("values", .plain (toString values))]
  | .foundEnums count => [("enums", .plain (toString count))]
  | .cycleAlreadyReported diagnostic => [("diagnostic", .plain diagnostic.message)]
  | .reported _ => []
  | .writingFooter => []
  | .generated _ _ definitions enums =>
    [("definitions", .plain (toString definitions)), ("enums", .plain (toString enums))]

end Event

end SchemaHeader

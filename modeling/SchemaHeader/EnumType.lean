import SchemaHeader.Naming
import SchemaHeader.Resolution

set_option autoImplicit false

/-! # Generated enum types

Every flattened property with an enum key becomes one enum type, named for the definition that is
being compiled and for the property. Keys that cannot be used are reported, and the property
still gets its type, with fewer values or none.

`identifierDiagnostics` checks the names that the header will contain.
-/

namespace SchemaHeader

/-- A generated enum type. -/
structure EnumType where
  name : String
  property : String
  values : List EnumValue
  deriving DecidableEq, Repr

/-- The names that a type brings into the header: its own and those of its values. -/
def EnumType.identifiers (type : EnumType) : List String :=
  type.name :: type.values.map EnumValue.label

/-- The diagnostics of those names of a definition that cannot be used. -/
def identifierDiagnostics (definition : String) (names : List String) : List Diagnostic :=
  names.filterMap fun name =>
    (Identifier.fault? name).map (.invalidIdentifier definition name)

/-- The diagnostics of the definition names, which become class names. -/
def Document.nameDiagnostics (document : Document) : List Diagnostic :=
  document.definitions.flatMap fun definition =>
    identifierDiagnostics definition.name [definition.name]

/-- The diagnostics of the names of enum types and their values. -/
def enumTypeDiagnostics (definition : String) (types : List EnumType) : List Diagnostic :=
  types.flatMap fun type => identifierDiagnostics definition type.identifiers

namespace Resolution

/-- The enum type of a flattened property, if it has an enum key. -/
def enumType? (resolution : Resolution) (resolved : ResolvedProperty) : Option EnumType :=
  resolved.property.enumSpec.map fun spec =>
    ⟨Naming.enumType resolution.name resolved.name, resolved.name, spec.values⟩

/-- The enum types of a flattened definition, in the order of its properties. -/
def enumTypes (resolution : Resolution) : List EnumType :=
  resolution.properties.filterMap resolution.enumType?

/-- The diagnostics of one property's enum keys. -/
def issueDiagnostics (resolution : Resolution) (resolved : ResolvedProperty) : List Diagnostic :=
  match resolved.property.enumSpec with
  | some spec => spec.issues.map (.malformedEnum resolution.name resolved.name)
  | none => []

/-- The diagnostics of enum keys that cannot be used. -/
def enumDiagnostics (resolution : Resolution) : List Diagnostic :=
  resolution.properties.flatMap resolution.issueDiagnostics

/-- All problems of a definition: those of the walk, of its enum keys, and of the names of its
enum types. -/
def found (resolution : Resolution) : List Diagnostic :=
  resolution.diagnostics ++ resolution.enumDiagnostics
    ++ enumTypeDiagnostics resolution.name resolution.enumTypes

/-- What the log tells about compiling a definition. -/
def log (resolution : Resolution) : List Event :=
  .creatingDefinition resolution.name :: resolution.events
    ++ [.gatheredProperties resolution.properties.length]
    ++ resolution.enumTypes.map (fun type => .extractedEnum type.name type.values.length)
    ++ [.foundEnums resolution.enumTypes.length]

end Resolution

end SchemaHeader

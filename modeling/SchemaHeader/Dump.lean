import SchemaHeader.Compilation
import SchemaHeader.Json.Printer

set_option autoImplicit false

/-! # Flattened definitions as JSON -/

namespace SchemaHeader

/-- A text, or null. -/
def Json.ofText? : Option String → Json
  | some text => .string text
  | none => .null

/-- A value of an enumeration with its description. -/
def EnumValue.toJson (value : EnumValue) : Json :=
  .object [("label", .string value.label), ("description", .ofText? value.description)]

/-- An issue of an enum key. -/
def EnumIssue.toJson (issue : EnumIssue) : Json :=
  .object [("key", .string issue.key), ("found", .string issue.found.name)]

/-- The enum keys of a property. -/
def EnumSpec.toJson (spec : EnumSpec) : Json :=
  .object [("values", .array (spec.values.map EnumValue.toJson)),
    ("issues", .array (spec.issues.map EnumIssue.toJson))]

/-- A declared property. -/
def Property.toJson (property : Property) : Json :=
  .object [("name", .string property.name), ("schema", property.schema),
    ("enum_spec", (property.enumSpec.map EnumSpec.toJson).getD .null)]

/-- A flattened property with its provenance. -/
def ResolvedProperty.toJson (resolved : ResolvedProperty) : Json :=
  .object [("property", resolved.property.toJson), ("is_required", .bool resolved.isRequired),
    ("owner", .string resolved.owner), ("origin", .string resolved.origin)]

/-- A generated enum type. -/
def EnumType.toJson (type : EnumType) : Json :=
  .object [("name", .string type.name), ("property", .string type.property),
    ("values", .array (type.values.map EnumValue.toJson))]

/-- A flattened definition and its enum types. -/
def Resolution.toJson (resolution : Resolution) : Json :=
  .object [
    ("resolved", .object [("name", .string resolution.name),
      ("properties", .array (resolution.properties.map ResolvedProperty.toJson))]),
    ("enums", .array (resolution.enumTypes.map EnumType.toJson))]

/-- All flattened definitions. -/
def Compilation.dump (resolutions : List Resolution) : Json :=
  .array (resolutions.map Resolution.toJson)

end SchemaHeader

import SchemaHeader.Composition
import SchemaHeader.Identifier

set_option autoImplicit false

/-! # Diagnostics

Problems that do not stop a run: the member or key in question contributes nothing and the run
goes on. An identifier that C++ does not take is a warning, every other diagnostic is an error.
-/

namespace SchemaHeader

/-- Why a reference, or a member in its place, contributed nothing. -/
inductive ReferenceFailure where
  | notFound
  /-- The target is neither a definition nor an object with members or properties. -/
  | notComposable (found : Json.Kind)
  | malformed (fault : MemberFault)
  deriving DecidableEq, Repr

/-- What a target that cannot be composed is called. -/
def ReferenceFailure.targetName : Json.Kind → String
  | .object => "a plain object"
  | kind => kind.name

/-- The wording of a reference failure. -/
def ReferenceFailure.message : ReferenceFailure → String
  | .notFound => "pointer does not address any node"
  | .notComposable found =>
    "target is " ++ targetName found ++ ", expected an object with allof, properties or $ref"
  | .malformed fault => fault.message

/-- A problem found in one definition. -/
inductive Diagnostic where
  /-- A member of `definition` was skipped; `pointer` is the reference as it was written, or the
  pointer of the body that holds a malformed member. -/
  | reference (definition pointer : String) (failure : ReferenceFailure)
  /-- A reference leads back to a body that is being expanded: the pointers from that body on,
  closed by its own. -/
  | cyclicReference (definition : String) (cycle : List String)
  | malformedEnum (definition property : String) (issue : EnumIssue)
  | invalidIdentifier (definition identifier : String) (fault : Identifier.Fault)
  deriving DecidableEq, Repr

namespace Diagnostic

/-- The definition in which the problem was found. -/
def definition : Diagnostic → String
  | .reference definition _ _ => definition
  | .cyclicReference definition _ => definition
  | .malformedEnum definition _ _ => definition
  | .invalidIdentifier definition _ _ => definition

/-- Whether the problem makes the run fail. -/
def isError : Diagnostic → Bool
  | .invalidIdentifier _ _ _ => false
  | _ => true

/-- The wording of a diagnostic. -/
def message : Diagnostic → String
  | .reference definition pointer failure =>
    definition ++ ": failed to resolve `" ++ pointer ++ "`: " ++ failure.message
  | .cyclicReference definition cycle =>
    definition ++ ": cyclic reference " ++ String.intercalate " -> " cycle
  | .malformedEnum definition property issue =>
    definition ++ ": property `" ++ property ++ "` has malformed enum key `" ++ issue.key
      ++ "` (found " ++ issue.found.name ++ ")"
  | .invalidIdentifier definition identifier fault =>
    definition ++ ": `" ++ identifier ++ "` is not a valid C++ identifier (" ++ fault.reason ++ ")"

end Diagnostic

end SchemaHeader

import SchemaHeader.Diagnostic
import SchemaHeader.Document

set_option autoImplicit false

/-! # One step of a walk through a composition

A definition is flattened by a walk over its members and, depth first, over the members of every
body that it refers to. The state of the walk is a stack of frames, one for each body that is
being expanded, **the innermost first**; a frame holds the members of its body that are still to
be visited. A reference to a body on the stack is a cycle and is skipped.

`step` visits one member of the innermost frame, or leaves that frame if none is left.
-/

namespace SchemaHeader

/-! ## What a walk finds -/

/-- A property as it ends up in a flattened definition. -/
structure ResolvedProperty where
  property : Property
  /-- Whether the member that declares the property lists it as required. -/
  isRequired : Bool
  /-- The definition to which the declaring member belongs. -/
  owner : String
  /-- The pointer of the declaring member, such as `/Base/allof/0`. -/
  origin : String
  deriving DecidableEq

/-- The name of a resolved property. -/
def ResolvedProperty.name (resolved : ResolvedProperty) : String :=
  resolved.property.name

namespace Resolution

/-- What a walk comes upon, in the order in which it does. `depth` counts the bodies being
expanded at that moment. -/
inductive Finding where
  | property (resolved : ResolvedProperty)
  | included (depth : Nat) (pointer : String)
  | skipped (depth : Nat) (diagnostic : Diagnostic)
  deriving DecidableEq

/-- A body being expanded: its pointer and the members still to be visited. -/
structure Frame where
  pointer : String
  pending : List Member
  deriving DecidableEq

/-- The bodies being expanded, the innermost first. -/
abbrev Stack := List Frame

/-- The pointers of the bodies being expanded, the innermost first. -/
def Stack.path (stack : Stack) : List String :=
  stack.map Frame.pointer

/-! ## References -/

/-- The members that a reference stands for, or why it stands for none. A definition may be
referred to even if its body is empty. -/
def target (document : Document) (pointer : String) : Except ReferenceFailure Composition :=
  match document.lookup? pointer with
  | none => .error .notFound
  | some value =>
    if document.isDefinition (Pointer.canonical pointer) || Composition.isComposable value then
      match Composition.ofJson? value with
      | some body => .ok body
      | none => .error (.notComposable value.kind)
    else .error (.notComposable value.kind)

/-- The cycle that a reference to `pointer` closes: the path from that body inwards, and the
pointer again. -/
def closeCycle (path : List String) (pointer : String) : List String :=
  (pointer :: (path.takeWhile (· != pointer)).reverse ++ [pointer]).map ("#" ++ ·)

/-- Follows a reference of `definition` from the bodies of `path`. -/
def follow (document : Document) (definition : String) (path : List String) (reference : String) :
    Except Diagnostic Frame :=
  let pointer := Pointer.canonical reference
  if pointer ∈ path then
    .error (.cyclicReference definition (closeCycle path pointer))
  else
    match target document reference with
    | .ok body => .ok ⟨pointer, body.members⟩
    | .error failure => .error (.reference definition reference failure)

/-! ## Steps -/

/-- The properties of a set given in place below `pointer`. -/
def inlineProperties (pointer : String) (schema : InlineSchema) : List ResolvedProperty :=
  schema.properties.map fun property =>
    { property
      isRequired := schema.isRequired property.name
      owner := Pointer.owner pointer
      origin := pointer ++ schema.location }

/-- Visits the next member of the innermost frame, or leaves the frame. -/
def step (document : Document) (definition : String) (frame : Frame) (outer : Stack) :
    Stack × List Finding :=
  match frame.pending with
  | [] => (outer, [])
  | member :: pending =>
    let here : Stack := { frame with pending } :: outer
    match member with
    | .inline schema => (here, (inlineProperties frame.pointer schema).map .property)
    | .malformed fault =>
      (here, [.skipped here.length
        (.reference definition ("#" ++ frame.pointer) (.malformed fault))])
    | .reference reference =>
      match follow document definition here.path reference with
      | .ok inner => (inner :: here, [.included here.length reference])
      | .error diagnostic => (here, [.skipped here.length diagnostic])

end Resolution

end SchemaHeader

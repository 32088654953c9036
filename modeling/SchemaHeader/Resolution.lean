import SchemaHeader.Event
import SchemaHeader.Resolution.Bound

set_option autoImplicit false

/-! # Flattened definitions

`Resolution.resolve` walks through the composition of a definition to its end. The result is the
list of all that the walk came upon; the flattened properties, the diagnostics and the log are
views of that one list, so they cannot disagree.
-/

namespace SchemaHeader

namespace Resolution

/-! ## Whole walks -/

/-- Steps until no frame is left, and gathers what is found on the way. -/
def run (document : Document) (definition : String) {supply : Supply}
    (hc : supply.Covers document) (stack : Stack) (h : Admissible supply stack)
    (trail : Array Finding) : Array Finding :=
  match stack, h with
  | [], _ => trail
  | frame :: outer, h =>
    let next := step document definition frame outer
    run document definition hc next.1 (admissible_step hc h) (trail ++ next.2)
termination_by weight supply stack
decreasing_by exact weight_step_lt hc h

/-- All that the walk through a definition comes upon. -/
def walk (document : Document) (definition : Definition) : List Finding :=
  (run document definition.name (Supply.covers_of document definition.body) _
    (admissible_start document definition.pointer definition.body) #[]).toList

/-! ## Views -/

/-- The property that was found, if it was one. -/
def Finding.property? : Finding → Option ResolvedProperty
  | .property resolved => some resolved
  | _ => none

/-- The diagnostic of a skipped member. -/
def Finding.diagnostic? : Finding → Option Diagnostic
  | .skipped _ diagnostic => some diagnostic
  | _ => none

/-- What the log tells about a finding. -/
def Finding.event? : Finding → Option Event
  | .property _ => none
  | .included depth pointer => some (.includingReference depth pointer)
  | .skipped depth diagnostic => some (.skippingMember depth diagnostic)

/-- The names that occurred before, once for each time that they occur again. -/
def repeats (seen : List String) : List String → List String
  | [] => []
  | name :: rest =>
    if name ∈ seen then name :: repeats seen rest else repeats (name :: seen) rest

end Resolution

/-- A definition whose composition has been walked through. -/
structure Resolution where
  name : String
  findings : List Resolution.Finding
  deriving DecidableEq

namespace Resolution

/-- **Flattens a definition.** Problems are recorded and the members in question are skipped. -/
def resolve (document : Document) (definition : Definition) : Resolution :=
  ⟨definition.name, walk document definition⟩

/-- The flattened properties in the order of the walk; one that is reached through several
members is there once for each. -/
def properties (resolution : Resolution) : List ResolvedProperty :=
  resolution.findings.filterMap Finding.property?

/-- The problems in the order of the walk. -/
def diagnostics (resolution : Resolution) : List Diagnostic :=
  resolution.findings.filterMap Finding.diagnostic?

/-- What the log tells about the walk, and then about names that are declared more than once. -/
def events (resolution : Resolution) : List Event :=
  resolution.findings.filterMap Finding.event?
    ++ (repeats [] (resolution.properties.map ResolvedProperty.name)).map
      (.repeatedProperty resolution.name)

end Resolution

end SchemaHeader

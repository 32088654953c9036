import SchemaHeader.Event

set_option autoImplicit false

/-! # The diagnostics of a run

A cycle can be entered at each of its bodies, and each definition on it or leading to it runs
into it. A run reports it once: **two cycles count as the same if one is a rotation of the
other**, which `cycleKey` decides by rotating each to start at its least pointer. All other
diagnostics are kept, repeated ones included.
-/

namespace SchemaHeader

/-! ## Cycles up to rotation -/

/-- The least of some texts. -/
def least? : List String → Option String
  | [] => none
  | text :: rest =>
    match least? rest with
    | none => some text
    | some other => some (if other < text then other else text)

/-- A closed cycle without its repeated end, rotated to start at its least pointer. -/
def cycleKey (cycle : List String) : List String :=
  let pointers := cycle.dropLast
  match least? pointers with
  | none => []
  | some first => pointers.dropWhile (· != first) ++ pointers.takeWhile (· != first)

/-! ## Ledgers -/

/-- The diagnostics reported so far and the keys of the cycles among them. -/
structure Ledger where
  diagnostics : Array Diagnostic
  cycles : List (List String)
  deriving DecidableEq

namespace Ledger

/-- Nothing reported yet. -/
def empty : Ledger := ⟨#[], []⟩

/-- Reports a diagnostic. -/
def report (ledger : Ledger) (diagnostic : Diagnostic) : Ledger :=
  { ledger with diagnostics := ledger.diagnostics.push diagnostic }

/-- Enters a diagnostic and tells what became of it: a cycle that is known already is not
reported again. -/
def enter (ledger : Ledger) (diagnostic : Diagnostic) : Ledger × Event :=
  match diagnostic with
  | .cyclicReference _ cycle =>
    let key := cycleKey cycle
    if key ∈ ledger.cycles then (ledger, .cycleAlreadyReported diagnostic)
    else ({ ledger with cycles := key :: ledger.cycles }.report diagnostic, .reported diagnostic)
  | _ => (ledger.report diagnostic, .reported diagnostic)

/-- Enters diagnostics one after the other. -/
def enterAll (ledger : Ledger) : List Diagnostic → Ledger × List Event
  | [] => (ledger, [])
  | diagnostic :: rest =>
    let (next, event) := ledger.enter diagnostic
    let (last, events) := next.enterAll rest
    (last, event :: events)

end Ledger

/-! ## Reports -/

/-- The outcome of a run: what was reported, and how much was generated. -/
structure Report where
  diagnostics : List Diagnostic
  definitions : Nat
  enums : Nat
  deriving DecidableEq, Repr

namespace Report

/-- The diagnostics that make the run fail. -/
def errors (report : Report) : List Diagnostic :=
  report.diagnostics.filter Diagnostic.isError

/-- The diagnostics that do not. -/
def warnings (report : Report) : List Diagnostic :=
  report.diagnostics.filter (!·.isError)

/-- Whether something makes the run fail. -/
def hasErrors (report : Report) : Bool :=
  report.diagnostics.any Diagnostic.isError

/-- Whether nothing makes the run fail. -/
def isSuccess (report : Report) : Bool :=
  !report.hasErrors

end Report

end SchemaHeader

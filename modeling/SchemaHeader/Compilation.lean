import SchemaHeader.Header
import SchemaHeader.Ledger
import SchemaHeader.Sink

set_option autoImplicit false

/-! # Compiling a document

A run is a list of stages: it tells events, reports diagnostics and writes lines, in this
order for the preamble, the forward declarations, each definition in turn, and the closing
line. `Session.perform` carries stages out; only a sink that is full stops it.

`resolveAll` does the same work without writing anything.
-/

namespace SchemaHeader

/-! ## Stages -/

/-- A stage of a run. -/
inductive Stage where
  | tell (events : List Event)
  | report (found : List Diagnostic)
  | write (lines : List String)
  deriving DecidableEq

/-- The state of a run. -/
structure Session where
  sink : Sink
  ledger : Ledger
  log : Array Event

namespace Session

/-- A run that has not started. -/
def start (sink : Sink) : Session :=
  ⟨sink, Ledger.empty, #[]⟩

/-- Carries out stages up to the first write that does not fit, and says whether all of them
have been carried out. -/
def perform (session : Session) : List Stage → Session × Bool
  | [] => (session, true)
  | .tell events :: rest => { session with log := session.log ++ events }.perform rest
  | .report found :: rest =>
    let (ledger, events) := session.ledger.enterAll found
    { session with ledger, log := session.log ++ events }.perform rest
  | .write lines :: rest =>
    match session.sink.writeLines lines with
    | (sink, true) => { session with sink }.perform rest
    | (sink, false) => ({ session with sink }, false)

/-- **A run into a sink without a capacity comes to its end.** -/
theorem perform_unbounded (session : Session) (h : session.sink.capacity = none)
    (stages : List Stage) : (session.perform stages).2 = true := by
  induction stages generalizing session with
  | nil => rfl
  | cons stage rest ih =>
    cases stage with
    | tell events => exact ih _ h
    | report found => exact ih _ h
    | write lines =>
      obtain ⟨hfits, hnone⟩ := session.sink.writeLines_unbounded h lines
      rw [perform]
      generalize session.sink.writeLines lines = written at hfits hnone
      obtain ⟨sink, fits⟩ := written
      subst hfits
      exact ih _ hnone

end Session

/-! ## Runs -/

namespace Document

/-- The names of the definitions, in source order. -/
def names (document : Document) : List String :=
  document.definitions.map Definition.name

/-- Every definition flattened, in source order. -/
def resolutions (document : Document) : List Resolution :=
  document.definitions.map (Resolution.resolve document)

end Document

namespace Compilation

/-- The number of enum types of flattened definitions. -/
def enumCount (resolutions : List Resolution) : Nat :=
  (resolutions.flatMap Resolution.enumTypes).length

/-- The stages of one definition. -/
def definitionStages (layout : Layout) (resolution : Resolution) : List Stage :=
  [.tell resolution.log, .report resolution.found,
    .write (layout.enumTypes 1 resolution.enumTypes)]

/-- The stages of a whole run over the flattened definitions. -/
def stages (document : Document) (resolutions : List Resolution) (layout : Layout) :
    List Stage :=
  [.tell [.writingHeader layout.namespaceName], .write layout.preamble,
    .tell [.writingForwardDeclarations document.size], .report document.nameDiagnostics,
    .write (layout.forwardDeclarations 1 document.names)]
    ++ resolutions.flatMap (definitionStages layout)
    ++ [.tell [.writingFooter], .write Layout.closing]

/-- A run that came to its end, or was stopped by a full sink. -/
structure Outcome where
  session : Session
  /-- Nothing if the sink was full. -/
  report : Option Report

/-- **Compiles a document into a sink.** Problems of the document end up in the report. -/
def compile (document : Document) (layout : Layout) (sink : Sink) : Outcome :=
  let resolutions := document.resolutions
  match (Session.start sink).perform (stages document resolutions layout) with
  | (session, true) =>
    ⟨session, some ⟨session.ledger.diagnostics.toList, document.size, enumCount resolutions⟩⟩
  | (session, false) => ⟨session, none⟩

/-- A run into a sink without a capacity has a report. -/
theorem isSome_report_compile (document : Document) (layout : Layout) {sink : Sink}
    (h : sink.capacity = none) : (compile document layout sink).report.isSome := by
  have hend := (Session.start sink).perform_unbounded h
    (stages document document.resolutions layout)
  unfold compile
  simp only
  generalize (Session.start sink).perform (stages document document.resolutions layout) = result
    at hend
  obtain ⟨session, finished⟩ := result
  subst hend
  rfl

/-- Reads a document from a text and compiles it into a sink. -/
def compileText (text : String) (layout : Layout) (sink : Sink) :
    Except DocumentError Outcome :=
  match Document.parse text with
  | .error error => .error error
  | .ok document => .ok (compile document layout sink)

/-! ## Surveys -/

/-- What a run finds out, without anything being written. -/
structure Survey where
  resolutions : List Resolution
  ledger : Ledger
  log : List Event
  deriving DecidableEq

/-- Enters the problems of one definition after the other. -/
def surveyFrom (ledger : Ledger) : List Resolution → Ledger × List Event
  | [] => (ledger, [])
  | resolution :: rest =>
    let (next, events) := ledger.enterAll resolution.found
    let (last, more) := surveyFrom next rest
    (last, resolution.log ++ events ++ more)

/-- **Flattens every definition** and reports what a run reports. -/
def resolveAll (document : Document) : Survey :=
  let (named, events) := Ledger.empty.enterAll document.nameDiagnostics
  let resolutions := document.resolutions
  let (ledger, more) := surveyFrom named resolutions
  ⟨resolutions, ledger, events ++ more⟩

end Compilation

end SchemaHeader

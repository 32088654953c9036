import SchemaHeader.CommandLine.Arguments
import SchemaHeader.Dump
import SchemaHeader.Job
import SchemaHeader.Text.Terminal

set_option autoImplicit false

/-! # The command line

Runs one job as its arguments say. The exit status is 0 for every run that wrote its output, also
if the report has errors, 1 for a job that failed and 2 for arguments that cannot be used.
-/

namespace SchemaHeader

/-! ## Log lines -/

/-- A field as a log line shows it. -/
def FieldValue.shown : FieldValue → String
  | .plain text => text
  | .quoted text => Text.literal text

/-- The line of an event: its level, its message and its fields. Only the message is made safe for
a terminal, the fields are shown as they are. -/
def Event.line (event : Event) : String :=
  String.intercalate " " (event.level.name :: Text.forTerminal event.message
    :: event.fields.map fun (name, value) => name ++ "=" ++ value.shown)

namespace CommandLine

/-- Whether a log shows an event. -/
def shows (verbose : Bool) (event : Event) : Bool :=
  verbose || event.level != .debug

/-! ## Runs -/

/-- What a run leaves behind, apart from files. -/
structure Outcome where
  exit : Nat
  stdout : String := ""
  stderr : List String := []
  log : List Event := []
  deriving DecidableEq

/-- The line that a report with errors ends with. -/
def summary (report : Report) : List String :=
  if report.isSuccess then []
  else
    ["Completed with " ++ toString report.errors.length ++ " error(s) and "
      ++ toString report.warnings.length ++ " warning(s); the output may be incomplete."]

variable {m : Type → Type} [Monad m] [Storage m]

/-- Checks, loads and compiles, and gives the document back for a dump. -/
def job (invocation : Invocation) : m (Except Failure (Document × Job.Result)) := do
  match ← Job.check invocation.input invocation.output with
  | .error failure => return .error failure
  | .ok () =>
    match ← Job.load invocation.input with
    | .error failure => return .error failure
    | .ok document =>
      match ← Job.compileDocument document invocation.output invocation.layout with
      | .error failure => return .error failure
      | .ok result => return .ok (document, result)

/-- The flattened definitions that are printed, and what the log tells about flattening them. -/
def dump (document : Document) : String × List Event :=
  let survey := Compilation.resolveAll document
  ((Compilation.dump survey.resolutions).pretty ++ "\n", survey.log)

/-- The outcome of a job that came to its end. -/
def finish (invocation : Invocation) (document : Document) (result : Job.Result) : Outcome :=
  let generated := Event.generated invocation.input invocation.output result.report.definitions
    result.report.enums
  let (stdout, more) := if invocation.dumpResolved then dump document else ("", [])
  { exit := 0
    stdout
    stderr := summary result.report
    log := (result.log ++ [generated] ++ more).filter (shows invocation.verbose) }

/-- Runs an invocation. -/
def execute (invocation : Invocation) : m Outcome := do
  match ← job invocation with
  | .error failure => return { exit := 1, stderr := ["Error: " ++ failure.inFull] }
  | .ok (document, result) => return finish invocation document result

/-- How to call the program. -/
def usage : String :=
  "Usage: schema2cpp [OPTIONS] --input <INPUT> --output <OUTPUT>"

/-- **Runs the program on its arguments.** -/
def run (arguments : List String) : m Outcome :=
  match Invocation.parse arguments with
  | .ok invocation => execute invocation
  | .error .helpRequested => return { exit := 0, stdout := usage ++ "\n" }
  | .error _ => return { exit := 2, stderr := [usage] }

end CommandLine

end SchemaHeader

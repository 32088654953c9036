import SchemaHeader.Compilation
import SchemaHeader.Storage
import SchemaHeader.Text.Literal

set_option autoImplicit false

/-! # Compiling files

A job checks its paths, loads and reads the schema, makes the directories above the output, and
writes the header. **The document is read before anything is written**, so a job that cannot read
its input leaves the storage as it was.
-/

namespace SchemaHeader

/-! ## Failures -/

/-- Why a job was not started. -/
inductive Precondition where
  | inputMissing (path : String)
  | inputNotAFile (path : String)
  | outputIsADirectory (path : String)
  deriving DecidableEq, Repr

/-- The wording of a precondition. -/
def Precondition.message : Precondition → String
  | .inputMissing path => "could not locate input file `" ++ path ++ "`"
  | .inputNotAFile path => "input `" ++ path ++ "` is not a file"
  | .outputIsADirectory path => "output `" ++ path ++ "` is a directory"

/-- What stops a job. -/
inductive Failure where
  | storage (error : FileError)
  | document (error : DocumentError)
  | precondition (cause : Precondition)
  deriving DecidableEq, Repr

/-- The wording of a failure. -/
def Failure.message : Failure → String
  | .storage error => "I/O error: " ++ error.message
  | .document error => error.message
  | .precondition cause => "Precondition failed: " ++ cause.message

/-! ## Failures in full

The form in which the command line shows a failure: a constructor for each layer, with its
fields. -/

/-- A file error in full. -/
def FileError.inFull (error : FileError) : String :=
  match error.account with
  | .numbered code kind text =>
    Text.record "Os" [("code", toString code), ("kind", kind), ("message", Text.literal text)]
  | .unnumbered kind text =>
    Text.record "Error" [("kind", kind), ("message", Text.literal text)]
  | .unknown text => Text.record "Custom" [("kind", "Other"), ("error", Text.literal text)]

/-- A document error in full. -/
def DocumentError.inFull : DocumentError → String
  | .unreadable error =>
    Text.record "Parse" [("msg", Text.literal error.cause.message), ("line", toString error.line),
      ("column", toString error.column)]
  | .notAnObject found => Text.record "NotAnObject" [("found", Text.literal found.name)]
  | .invalidDefinition name found =>
    Text.record "InvalidDefinition" [("name", Text.literal name), ("found", Text.literal found.name)]

/-- A failure in full. -/
def Failure.inFull : Failure → String
  | .storage error => "Io(" ++ error.inFull ++ ")"
  | .document error => "Schema(" ++ error.inFull ++ ")"
  | .precondition cause => "Precondition(" ++ Text.literal cause.message ++ ")"

/-! ## Jobs -/

namespace Job

variable {m : Type → Type} [Monad m] [Storage m]

/-- Checks that the input is a file and the output is not a directory. -/
def check (input output : String) : m (Except Failure Unit) := do
  match ← Storage.kind? input with
  | none => return .error (.precondition (.inputMissing input))
  | some .directory | some .special => return .error (.precondition (.inputNotAFile input))
  | some .file =>
    match ← Storage.kind? output with
    | some .directory => return .error (.precondition (.outputIsADirectory output))
    | _ => return .ok ()

/-- Reads a document from the content of a file. -/
def decode (content : ByteArray) : Except Failure Document :=
  match String.fromUTF8? content with
  | none => .error (.storage .notText)
  | some text =>
    match Document.parse text with
    | .error error => .error (.document error)
    | .ok document => .ok document

/-- Loads the document in a file. -/
def load (input : String) : m (Except Failure Document) := do
  match ← Storage.read input with
  | .error error => return .error (.storage error)
  | .ok content => return decode content

/-- What a finished job has to tell. -/
structure Result where
  report : Report
  log : List Event
  deriving DecidableEq

/-- The header of a document, with the report and the log of the run. -/
def render (document : Document) (layout : Layout) : ByteArray × Result :=
  let outcome := Compilation.compile document layout (Sink.empty none)
  (outcome.session.sink.written,
    ⟨outcome.report.get (Compilation.isSome_report_compile document layout rfl),
      outcome.session.log.toList⟩)

/-- Writes the header of a document to a file. -/
def compileDocument (document : Document) (output : String) (layout : Layout) :
    m (Except Failure Result) := do
  match ← Storage.createParents output with
  | .error error => return .error (.storage error)
  | .ok () =>
    let (content, result) := render document layout
    match ← Storage.write output content with
    | .error error => return .error (.storage error)
    | .ok () => return .ok result

/-- Compiles one file into another. -/
def compileFile (input output : String) (layout : Layout) : m (Except Failure Result) := do
  match ← load input with
  | .error failure => return .error failure
  | .ok document => compileDocument document output layout

end Job

end SchemaHeader

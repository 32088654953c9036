import SchemaHeader.Decimal.Digit
import SchemaHeader.Header

set_option autoImplicit false

/-! # Arguments of the command line

Options are written `--name value`, `--name=value`, `-n value`, `-nvalue` or `-n=value`; short
options without a value can be joined. A value that is an argument of its own does not start with
a dash, except for a dash alone. Only `--include` may be given more than once.
-/

namespace SchemaHeader.CommandLine

/-! ## Options -/

/-- The options. -/
inductive Key where
  | input
  | output
  | namespaceName
  | includeHeader
  | indent
  | dumpResolved
  | verbose
  | help
  deriving DecidableEq, Repr

/-- The option of a long name. -/
def Key.ofLong? : String → Option Key
  | "input" => some .input
  | "output" => some .output
  | "namespace" => some .namespaceName
  | "include" => some .includeHeader
  | "indent" => some .indent
  | "dump-resolved" => some .dumpResolved
  | "verbose" => some .verbose
  | "help" => some .help
  | _ => none

/-- The option of a letter. -/
def Key.ofShort? : Char → Option Key
  | 'i' => some .input
  | 'o' => some .output
  | 'v' => some .verbose
  | 'h' => some .help
  | _ => none

/-- Whether an option has a value. -/
def Key.takesValue : Key → Bool
  | .dumpResolved | .verbose | .help => false
  | _ => true

/-- What is wrong with arguments. -/
inductive UsageError where
  | unknownOption (argument : String)
  | strayArgument (argument : String)
  | missingValue (key : Key)
  | unexpectedValue (key : Key)
  | invalidValue (key : Key) (value : String)
  | repeated (key : Key)
  | missing (key : Key)
  /-- Not a mistake: the usage was asked for. -/
  | helpRequested
  deriving DecidableEq, Repr

/-! ## Values -/

/-- The options given so far. -/
structure Given where
  input : Option String := none
  output : Option String := none
  namespaceName : Option String := none
  includes : List String := []
  indent : Option Nat := none
  dumpResolved : Bool := false
  verbose : Bool := false
  deriving DecidableEq, Repr

/-- A number that fits a 64-bit word: decimal digits, with a plus sign or without. -/
def number? (value : String) : Option Nat :=
  let digits := match value.toList with
    | '+' :: rest => rest
    | other => other
  if digits.isEmpty ∨ !digits.all Decimal.isDigit then none
  else
    let n := Decimal.ofDigits digits
    if n < Decimal.wordLimit then some n else none

namespace Given

/-- Gives an option its value. -/
def set (given : Given) (key : Key) (value : String) : Except UsageError Given :=
  match key with
  | .input =>
    if given.input.isSome then .error (.repeated key)
    else if value = "" then .error (.invalidValue key value)
    else .ok { given with input := some value }
  | .output =>
    if given.output.isSome then .error (.repeated key)
    else if value = "" then .error (.invalidValue key value)
    else .ok { given with output := some value }
  | .namespaceName =>
    if given.namespaceName.isSome then .error (.repeated key)
    else .ok { given with namespaceName := some value }
  | .includeHeader => .ok { given with includes := given.includes ++ [value] }
  | .indent =>
    if given.indent.isSome then .error (.repeated key)
    else
      match number? value with
      | some n => .ok { given with indent := some n }
      | none => .error (.invalidValue key value)
  | .dumpResolved | .verbose | .help => .error (.unexpectedValue key)

/-- Sets an option without a value. -/
def raise (given : Given) (key : Key) : Except UsageError Given :=
  match key with
  | .dumpResolved =>
    if given.dumpResolved then .error (.repeated key) else .ok { given with dumpResolved := true }
  | .verbose =>
    if given.verbose then .error (.repeated key) else .ok { given with verbose := true }
  | .help => .error .helpRequested
  | _ => .error (.missingValue key)

end Given

/-! ## Arguments -/

/-- What an argument amounts to: nothing more, or an option whose value is the next argument. -/
structure Taken where
  given : Given
  waiting : Option Key

/-- Whether an argument can be the value of the option before it. -/
def isValue (argument : String) : Bool :=
  argument == "-" || argument.toList.head? != some '-'

/-- Takes the name and the value of a long option, behind its dashes. -/
def takeLong (given : Given) (body : List Char) : Except UsageError Taken := do
  let name := String.ofList (body.takeWhile (· != '='))
  let value? := match body.dropWhile (· != '=') with
    | [] => none
    | _ :: value => some (String.ofList value)
  match Key.ofLong? name with
  | none => .error (.unknownOption name)
  | some key =>
    match key.takesValue, value? with
    | true, some value => return ⟨← given.set key value, none⟩
    | true, none => return ⟨given, some key⟩
    | false, some _ => .error (.unexpectedValue key)
    | false, none => return ⟨← given.raise key, none⟩

/-- Takes joined short options, behind their dash. -/
def takeShort (given : Given) : List Char → Except UsageError Taken
  | [] => .ok ⟨given, none⟩
  | letter :: rest =>
    match Key.ofShort? letter with
    | none => .error (.unknownOption (String.ofList [letter]))
    | some key =>
      if key.takesValue then
        match rest with
        | [] => .ok ⟨given, some key⟩
        | '=' :: value => do return ⟨← given.set key (String.ofList value), none⟩
        | value => do return ⟨← given.set key (String.ofList value), none⟩
      else do takeShort (← given.raise key) rest

/-- Takes one argument. -/
def take (given : Given) (argument : String) : Except UsageError Taken :=
  match argument.toList with
  | '-' :: '-' :: body => takeLong given body
  | '-' :: letter :: rest => takeShort given (letter :: rest)
  | _ => .error (.strayArgument argument)

/-- Takes arguments; `waiting` is the option whose value comes next. -/
def takeAll (given : Given) (waiting : Option Key) : List String → Except UsageError Given
  | [] =>
    match waiting with
    | some key => .error (.missingValue key)
    | none => .ok given
  | argument :: rest =>
    match waiting with
    | some key =>
      if isValue argument then do takeAll (← given.set key argument) none rest
      else .error (.missingValue key)
    | none =>
      if argument = "--" then
        match rest with
        | [] => .ok given
        | stray :: _ => .error (.strayArgument stray)
      else do
        let taken ← take given argument
        takeAll taken.given taken.waiting rest

/-! ## Invocations -/

/-- What the program is asked to do. -/
structure Invocation where
  input : String
  output : String
  layout : Layout
  dumpResolved : Bool
  verbose : Bool
  deriving DecidableEq, Repr

/-- The layout that options ask for; headers to include replace the usual ones. -/
def Given.layout (given : Given) : Layout :=
  let usual : Layout := { }
  { namespaceName := given.namespaceName.getD usual.namespaceName
    includes := if given.includes.isEmpty then usual.includes else given.includes
    indentWidth := given.indent.getD usual.indentWidth }

/-- Reads the arguments of the program. -/
def Invocation.parse (arguments : List String) : Except UsageError Invocation := do
  let given ← takeAll { } none arguments
  match given.input, given.output with
  | none, _ => .error (.missing .input)
  | _, none => .error (.missing .output)
  | some input, some output =>
    return ⟨input, output, given.layout, given.dumpResolved, given.verbose⟩

end SchemaHeader.CommandLine

import SchemaHeader.CommandLine

set_option autoImplicit false

/-! # The program

The disk as storage, and the streams of the process: everything else is decided by
`CommandLine.run`.
-/

namespace SchemaHeader

/-- A failure of the disk. -/
def FileError.ofDisk : IO.Error → FileError
  | .noFileOrDirectory _ _ _ => .notFound
  | .alreadyExists _ _ _ => .alreadyExists
  | .inappropriateType _ 20 _ => .notADirectory
  | .inappropriateType _ 21 _ => .isADirectory
  | .invalidArgument _ 36 _ => .nameTooLong
  | error => .other (toString error)

/-- Runs an operation on the disk. -/
def onDisk {α : Type} (operation : IO α) : IO (Except FileError α) := do
  try
    return .ok (← operation)
  catch error =>
    return .error (.ofDisk error)

/-- What a path on the disk names. -/
def diskKind (path : String) : IO (Option EntryKind) := do
  match ← onDisk (do (← IO.FS.realPath path).metadata) with
  | .error _ => return none
  | .ok data =>
    match data.type with
    | .file => return some .file
    | .dir => return some .directory
    | _ => return some .special

/-- The disk. -/
instance : Storage IO where
  kind? path := diskKind path
  read path := onDisk (IO.FS.readBinFile path)
  makeDirectory path := onDisk (IO.FS.createDir path)
  write path content := onDisk (IO.FS.writeBinFile path content)

end SchemaHeader

/-- Runs the program: the log and the messages go to the error stream, a dump to the output. -/
def main (arguments : List String) : IO UInt32 := do
  let outcome ← SchemaHeader.CommandLine.run arguments
  for event in outcome.log do
    IO.eprintln event.line
  IO.print outcome.stdout
  for line in outcome.stderr do
    IO.eprintln line
  return outcome.exit.toUInt32

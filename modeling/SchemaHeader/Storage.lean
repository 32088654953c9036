import SchemaHeader.Path

set_option autoImplicit false

/-! # Storage

What a run needs of a file system: to ask what a path names, to read a file, to make a
directory and to write a file. `Storage` leaves open what carries these out, so that the same
run works on a real disk and on the file trees of `FileTree`.

`Storage.createDirectories` makes a directory with all those above it that are missing, and
`Storage.createParents` makes those above alone.
-/

namespace SchemaHeader

/-- What a path can name. -/
inductive EntryKind where
  | file
  | directory
  /-- Neither of the two, such as a device. -/
  | special
  deriving DecidableEq, Repr

/-- Why a path could not be used. -/
inductive FileError where
  | notFound
  | alreadyExists
  | notADirectory
  | isADirectory
  | nameTooLong
  /-- A path has the character zero, which ends a path for the system. -/
  | zeroInPath
  /-- The content of a file is not UTF-8. -/
  | notText
  /-- Any other failure, in the words of the system. -/
  | other (description : String)
  deriving DecidableEq, Repr

/-- What there is to tell about a failure. -/
inductive FileError.Account where
  /-- A failure that the system numbers. -/
  | numbered (code : Nat) (kind text : String)
  /-- A failure that is found without asking the system. -/
  | unnumbered (kind text : String)
  /-- A failure of no known kind. -/
  | unknown (text : String)

/-- What there is to tell about a file error. -/
def FileError.account : FileError → FileError.Account
  | .notFound => .numbered 2 "NotFound" "No such file or directory"
  | .alreadyExists => .numbered 17 "AlreadyExists" "File exists"
  | .notADirectory => .numbered 20 "NotADirectory" "Not a directory"
  | .isADirectory => .numbered 21 "IsADirectory" "Is a directory"
  | .nameTooLong => .numbered 36 "InvalidFilename" "File name too long"
  | .zeroInPath => .unnumbered "InvalidInput" "file name contained an unexpected NUL byte"
  | .notText => .unnumbered "InvalidData" "stream did not contain valid UTF-8"
  | .other description => .unknown description

/-- The wording of a file error. -/
def FileError.message (error : FileError) : String :=
  match error.account with
  | .numbered code _ text => text ++ " (os error " ++ toString code ++ ")"
  | .unnumbered _ text => text
  | .unknown text => text

/-- The operations of a file system, with links followed. -/
class Storage (m : Type → Type) where
  /-- What a path names, if anything. -/
  kind? : String → m (Option EntryKind)
  /-- The content of a file. -/
  read : String → m (Except FileError ByteArray)
  /-- Makes one directory. -/
  makeDirectory : String → m (Except FileError Unit)
  /-- Makes a file or replaces its content. -/
  write : String → ByteArray → m (Except FileError Unit)

namespace Storage

variable {m : Type → Type} [Monad m] [Storage m]

/-- Makes one directory, which may be there already. -/
def ensureDirectory (path : String) : m (Except FileError Unit) := do
  match ← makeDirectory path with
  | .ok () => return .ok ()
  | .error error =>
    if (← kind? path) = some .directory then return .ok () else return .error error

/-- Makes the directory of a path. It is first tried alone, and `above`, which makes the
directories above it, is run only if there is no place for it yet. -/
def ensureBelow (path : String) (above : m (Except FileError Unit)) :
    m (Except FileError Unit) := do
  match ← ensureDirectory path with
  | .error .notFound =>
    match ← above with
    | .ok () => ensureDirectory path
    | failed => return failed
  | result => return result

/-- Makes the first of some directories; the others are those above it, the innermost first.
What has been made stays when a later one fails. -/
def createChain : List String → m (Except FileError Unit)
  | [] => return .ok ()
  | path :: above => ensureBelow path (createChain above)

/-- Makes the directory of a path and those above it that are missing. The path itself is used
as it is written, so one that ends in a dot needs the directory it stays in. -/
def createDirectories (path : String) : m (Except FileError Unit) :=
  match Path.ancestors path with
  | [] => return .ok ()
  | _ :: above => createChain (path :: above)

/-- Makes the directories above a path that are missing. -/
def createParents (path : String) : m (Except FileError Unit) :=
  createChain (Path.ancestors path).tail

end Storage

end SchemaHeader

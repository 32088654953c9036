import SchemaHeader.Storage

set_option autoImplicit false

/-! # File trees

A file system without links, as a value: directories and files at places below a root, and the
place at which relative paths start. A place is the list of its names, **the last one first**,
so that the directory above is the tail.

Walking along a path checks every name in turn, so that of several failures the first on the way
is the one reported.
-/

namespace SchemaHeader

/-- What stands at a place. -/
inductive Entry where
  | directory
  | file (content : ByteArray)

/-- The kind of an entry. -/
def Entry.kind : Entry → EntryKind
  | .directory => .directory
  | .file _ => .file

/-- A place below the root: its names, the last one first. -/
abbrev Place := List String

/-- Directories and files, and the working directory. -/
structure FileTree where
  entries : List (Place × Entry)
  working : Place

namespace FileTree

/-! ## Places -/

/-- What stands at a place; the root is always a directory. -/
def entry? (tree : FileTree) (place : Place) : Option Entry :=
  if place = [] then some .directory else tree.entries.lookup place

/-- Puts an entry at a place, over what stands there. -/
def put (tree : FileTree) (place : Place) (entry : Entry) : FileTree :=
  { tree with entries := (place, entry) :: tree.entries.filter (·.1 != place) }

/-- Takes away what stands at a place. -/
def erase (tree : FileTree) (place : Place) : FileTree :=
  { tree with entries := tree.entries.filter (·.1 != place) }

/-- An empty working directory of the given name, in the root. -/
def fresh (name : String) : FileTree :=
  ⟨[([name], .directory)], [name]⟩

/-! ## Walking -/

/-- The length in bytes that a name may have. -/
def nameLimit : Nat := 255

/-- The length in bytes that a path may have. -/
def pathLimit : Nat := 4095

/-- Passes through a directory; from a file no path goes on. -/
def enter (tree : FileTree) (place : Place) : Except FileError Unit :=
  match tree.entry? place with
  | some .directory => .ok ()
  | some (.file _) => .error .notADirectory
  | none => .error .notFound

/-- The place of a name in a directory, whether something stands there or not. -/
def child (place : Place) (name : String) : Except FileError Place :=
  if name = ".." then .ok place.tail
  else if nameLimit < name.utf8ByteSize then .error .nameTooLong
  else .ok (name :: place)

/-- Walks from a directory along names that must all be there. -/
def walk (tree : FileTree) (place : Place) : List String → Except FileError Place
  | [] => .ok place
  | name :: rest => do
    tree.enter place
    let next ← child place name
    match tree.entry? next with
    | none => .error .notFound
    | some _ => tree.walk next rest

/-- Where a path starts, unless it cannot be given to the system, is empty or too long. -/
def origin (tree : FileTree) (path : String) : Except FileError Place :=
  if path.toList.contains '\x00' then .error .zeroInPath
  else if path = "" then .error .notFound
  else if pathLimit < path.utf8ByteSize then .error .nameTooLong
  else .ok (if Path.isAbsolute path then [] else tree.working)

/-- What a path names. -/
def locate (tree : FileTree) (path : String) : Except FileError Entry := do
  let place ← tree.walk (← tree.origin path) (Path.names path)
  match tree.entry? place with
  | none => .error .notFound
  | some .directory => .ok .directory
  | some (.file content) =>
    if Path.endsInDirectory path then .error .notADirectory else .ok (.file content)

/-- The directory in which the last name of a path stands, and that name; no name if the path
ends in a way that can only lead to a directory that is there already. -/
def locateLast (tree : FileTree) (path : String) : Except FileError (Place × Option String) := do
  let place ← tree.origin path
  match (Path.pieces path).filter (· != "") with
  | [] => .ok (place, none)
  | pieces =>
    let place ← tree.walk place (pieces.dropLast.filter (· != "."))
    tree.enter place
    match pieces.getLast? with
    | some "." => .ok (place, none)
    | some ".." => .ok (place, none)
    | name => .ok (place, name)

/-! ## Operations -/

/-- What a path names, if anything. -/
def kind? (tree : FileTree) (path : String) : Option EntryKind :=
  match tree.locate path with
  | .ok entry => some entry.kind
  | .error _ => none

/-- The content of a file. -/
def read (tree : FileTree) (path : String) : Except FileError ByteArray := do
  match ← tree.locate path with
  | .directory => .error .isADirectory
  | .file content => .ok content

/-- Makes a file or replaces its content. -/
def write (tree : FileTree) (path : String) (content : ByteArray) : Except FileError FileTree := do
  let (place, name) ← tree.locateLast path
  match name with
  | none => .error .isADirectory
  | some name =>
    if Path.endsInSlash path then .error .isADirectory
    else
      let place ← child place name
      match tree.entry? place with
      | some .directory => .error .isADirectory
      | _ => .ok (tree.put place (.file content))

/-- Removes a file. -/
def remove (tree : FileTree) (path : String) : Except FileError FileTree := do
  let (place, name) ← tree.locateLast path
  match name with
  | none => .error .isADirectory
  | some name =>
    let place ← child place name
    match tree.entry? place with
    | none => .error .notFound
    | some .directory => .error .isADirectory
    | some (.file _) =>
      if Path.endsInSlash path then .error .notADirectory else .ok (tree.erase place)

/-- Makes one directory. -/
def makeDirectory (tree : FileTree) (path : String) : Except FileError FileTree := do
  let (place, name) ← tree.locateLast path
  match name with
  | none => .error .alreadyExists
  | some name =>
    let place ← child place name
    match tree.entry? place with
    | some _ => .error .alreadyExists
    | none => .ok (tree.put place .directory)

/-! ## Listing -/

/-- The path of an entry below the working directory; directories end in a slash. -/
def relative? (tree : FileTree) (entry : Place × Entry) : Option String :=
  let depth := entry.1.length - tree.working.length
  if depth = 0 ∨ entry.1.drop depth ≠ tree.working then none
  else
    let path := String.intercalate "/" (entry.1.take depth).reverse
    some (if entry.2.kind = .directory then path ++ "/" else path)

/-- The paths of all entries below the working directory, sorted. -/
def listing (tree : FileTree) : List String :=
  (tree.entries.filterMap tree.relative?).mergeSort fun a b => !decide (b < a)

/-! ## As storage -/

/-- The tree after an operation; one that fails changes nothing. -/
def change (tree : FileTree) : Except FileError FileTree → Except FileError Unit × FileTree
  | .ok next => (.ok (), next)
  | .error error => (.error error, tree)

/-- A tree that is changed by a run. -/
instance : Storage (StateM FileTree) where
  kind? path := return (← get).kind? path
  read path := return (← get).read path
  makeDirectory path := modifyGet fun tree => tree.change (tree.makeDirectory path)
  write path content := modifyGet fun tree => tree.change (tree.write path content)

end FileTree

end SchemaHeader

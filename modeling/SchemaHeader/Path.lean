import SchemaHeader.Text.Split

set_option autoImplicit false

/-! # Path texts

A path is a text of names between slashes. Empty names and single dots do not count, except that
a path that ends in one can only name a directory.
-/

namespace SchemaHeader.Path

/-- The texts between the slashes of a path. -/
def pieces (path : String) : List String :=
  (Text.splitSlash path.toList).map String.ofList

/-- Whether a piece leads from a directory to itself. -/
def staysPut (piece : String) : Bool :=
  piece == "" || piece == "."

/-- The names of a path, with `..` for the directory above. -/
def names (path : String) : List String :=
  (pieces path).filter (!staysPut ·)

/-- Whether a path starts at the root. -/
def isAbsolute (path : String) : Bool :=
  path.toList.head? == some '/'

/-- Whether the last piece of a path stays put, so that it can only name a directory. -/
def endsInDirectory (path : String) : Bool :=
  (pieces path).getLast?.any staysPut

/-- Whether a path ends in a slash. -/
def endsInSlash (path : String) : Bool :=
  path.toList.getLast? == some '/'

/-! ## Paths above a path -/

/-- The start of a path, which every path above it has too, and the rest: the root, or the dot of
a path that starts with one. -/
def splitStart : List Char → List Char × List Char
  | '/' :: rest => (['/'], rest)
  | ['.'] => (['.'], [])
  | '.' :: '/' :: rest => (['.'], '/' :: rest)
  | path => ([], path)

/-- Some pieces and those above them, the last piece first. Each list starts with a piece that
does not stay put. -/
def stems : List String → List (List String)
  | [] => []
  | piece :: above =>
    if staysPut piece then stems above else (piece :: above) :: stems above

/-- A path and the paths above it, the innermost first, without the root. All of them are parts of
the text **as it is written**, only pieces at the end that stay put are left out. -/
def ancestors (path : String) : List String :=
  let (start, rest) := splitStart path.toList
  let pieces := (Text.splitSlash rest).map String.ofList
  (stems pieces.reverse).map
      (fun stem => String.ofList start ++ String.intercalate "/" stem.reverse)
    ++ if start = ['.'] then ["."] else []

end SchemaHeader.Path

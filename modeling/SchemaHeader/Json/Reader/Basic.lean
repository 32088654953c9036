set_option autoImplicit false

/-! # Reading with positions

A reader takes the characters that are left of the text and gives back a value and the rest, or
a fault. A fault does not count from the front: it holds how many **bytes are still left**,
which every reader can tell from its own input, and `Fault.locate` turns that into a line and a
column of the whole text.

* `Fault.here` points at the next unread byte, `Fault.past` one byte behind it, and never beyond
  the end of the text.
* `Read α s` is the result of a reader on `s`; its rest is shorter than `s`, so a loop over
  readers ends.
-/

namespace SchemaHeader.Json

/-! ## Faults -/

/-- Why a text is not JSON. -/
inductive Cause where
  | endInValue
  | endInList
  | endInObject
  | endInString
  | expectedIdent
  | expectedValue
  | expectedListEnd
  | expectedObjectEnd
  | expectedColon
  | keyNotString
  | trailingComma
  | trailingCharacters
  | nestedTooDeep
  | controlCharacter
  | invalidEscape
  | loneSurrogate
  | unpairedSurrogate
  | invalidNumber
  | numberOutOfRange
  deriving DecidableEq, Repr

/-- The wording of a cause. -/
def Cause.message : Cause → String
  | .endInValue => "EOF while parsing a value"
  | .endInList => "EOF while parsing a list"
  | .endInObject => "EOF while parsing an object"
  | .endInString => "EOF while parsing a string"
  | .expectedIdent => "expected ident"
  | .expectedValue => "expected value"
  | .expectedListEnd => "expected `,` or `]`"
  | .expectedObjectEnd => "expected `,` or `\x7d`"
  | .expectedColon => "expected `:`"
  | .keyNotString => "key must be a string"
  | .trailingComma => "trailing comma"
  | .trailingCharacters => "trailing characters"
  | .nestedTooDeep => "recursion limit exceeded"
  | .controlCharacter => "control character (\\u0000-\\u001F) found while parsing a string"
  | .invalidEscape => "invalid escape"
  | .loneSurrogate => "lone leading surrogate in hex escape"
  | .unpairedSurrogate => "unexpected end of hex escape"
  | .invalidNumber => "invalid number"
  | .numberOutOfRange => "number out of range"

/-- The number of bytes that characters take in UTF-8. -/
def byteLength : List Char → Nat
  | [] => 0
  | c :: rest => c.utf8Size + byteLength rest

/-- A cause and the number of bytes that are left of the text where it arose. -/
structure Fault where
  cause : Cause
  left : Nat
  deriving DecidableEq, Repr

/-- A fault at the next unread byte. -/
def Fault.here (cause : Cause) (rest : List Char) : Fault :=
  ⟨cause, byteLength rest⟩

/-- A fault one byte behind the next unread byte, or at the end of the text. -/
def Fault.past (cause : Cause) (rest : List Char) : Fault :=
  ⟨cause, byteLength rest - 1⟩

/-- Where in a text, and why, it is not JSON. Lines count from one, columns count the bytes of
the line up to the position. -/
structure ReadError where
  cause : Cause
  line : Nat
  column : Nat
  deriving DecidableEq, Repr

/-- The line and the column behind some bytes. -/
def position (bytes : List UInt8) : Nat × Nat :=
  (1 + bytes.count 10, (bytes.reverse.takeWhile (· != 10)).length)

/-- The place of a fault in the whole text. -/
def Fault.locate (fault : Fault) (text : String) : ReadError :=
  let bytes := text.toUTF8.data.toList
  let (line, column) := position (bytes.take (bytes.length - fault.left))
  ⟨fault.cause, line, column⟩

/-! ## Results -/

/-- What a reader gives on `s`: a value and a rest that is shorter than `s`. -/
abbrev Read (α : Type) (s : List Char) :=
  Except Fault (α × { rest : List Char // rest.length < s.length })

/-- A reader of values. -/
abbrev Reader (α : Type) :=
  (s : List Char) → Read α s

/-- A result on a part of the text, as a result on a longer part. -/
def Read.widen {α : Type} {s t : List Char} (h : t.length ≤ s.length) : Read α t → Read α s
  | .error fault => .error fault
  | .ok (value, ⟨rest, hr⟩) => .ok (value, ⟨rest, Nat.lt_of_lt_of_le hr h⟩)

/-- The same rest with another value. -/
def Read.mapValue {α β : Type} {s : List Char} (f : α → β) : Read α s → Read β s
  | .error fault => .error fault
  | .ok (value, rest) => .ok (f value, rest)

/-! ## Blanks -/

/-- The four characters that may stand between tokens. -/
def isBlank (c : Char) : Bool :=
  c = ' ' || c = '\n' || c = '\t' || c = '\r'

/-- What is left behind the blanks in front. -/
def skipBlanks (s : List Char) : List Char :=
  s.dropWhile isBlank

theorem length_skipBlanks_le (s : List Char) : (skipBlanks s).length ≤ s.length :=
  (List.dropWhile_sublist isBlank).length_le

/-- Behind the first character after the blanks there is less than before. -/
theorem length_lt_of_skipBlanks {s rest : List Char} {c : Char} (h : skipBlanks s = c :: rest) :
    rest.length < s.length := by
  have hle := length_skipBlanks_le s
  rw [h, List.length_cons] at hle
  omega

end SchemaHeader.Json

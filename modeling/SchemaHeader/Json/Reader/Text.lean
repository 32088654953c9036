import SchemaHeader.Json.Reader.Basic

set_option autoImplicit false

/-! # Reading string literals

`stringRest` reads behind the opening quote: characters stand for themselves, a backslash
starts an escape, and a hexadecimal escape of a leading surrogate must be followed by one of a
trailing surrogate.
-/

namespace SchemaHeader.Json

/-! ## Hexadecimal escapes -/

/-- The value of a hexadecimal digit of either case. -/
def hexValue? (c : Char) : Option Nat :=
  if '0' ≤ c ∧ c ≤ '9' then some (c.toNat - 48)
  else if 'a' ≤ c ∧ c ≤ 'f' then some (c.toNat - 87)
  else if 'A' ≤ c ∧ c ≤ 'F' then some (c.toNat - 55)
  else none

/-- The number written by four hexadecimal digits. -/
def hexUnit? (a b c d : Char) : Option Nat := do
  let a ← hexValue? a
  let b ← hexValue? b
  let c ← hexValue? c
  let d ← hexValue? d
  return ((a * 16 + b) * 16 + c) * 16 + d

/-- Four bytes are taken whatever they are; with fewer than four left the text has ended. -/
def hexFault (s : List Char) : Fault :=
  if byteLength s < 4 then .here .endInString [] else ⟨.invalidEscape, byteLength s - 4⟩

/-- Reads four hexadecimal digits. -/
def hexUnit : Reader Nat
  | a :: b :: c :: d :: rest =>
    match hexUnit? a b c d with
    | some unit => .ok (unit, ⟨rest, by simp only [List.length_cons]; omega⟩)
    | none => .error (hexFault (a :: b :: c :: d :: rest))
  | s => .error (hexFault s)

/-- Reads the second half of a surrogate pair, from its backslash on. -/
def trailingSurrogate (leading : Nat) : Reader Char
  | '\\' :: 'u' :: rest =>
    match hexUnit rest with
    | .error fault => .error fault
    | .ok (unit, ⟨rest', h⟩) =>
      if 0xDC00 ≤ unit ∧ unit ≤ 0xDFFF then
        .ok (Char.ofNat ((leading - 0xD800) * 0x400 + (unit - 0xDC00) + 0x10000),
          ⟨rest', by simp only [List.length_cons]; omega⟩)
      else .error (.here .loneSurrogate rest')
  | [] => .error (.here .endInString [])
  | ['\\'] => .error (.here .endInString [])
  | '\\' :: rest => .error (.past .unpairedSurrogate rest)
  | s => .error (.past .unpairedSurrogate s)

/-- Reads the code of a `\u` escape, from its first digit on. -/
def unicodeEscape : Reader Char := fun s =>
  match hexUnit s with
  | .error fault => .error fault
  | .ok (unit, ⟨rest, h⟩) =>
    if 0xDC00 ≤ unit ∧ unit ≤ 0xDFFF then .error (.here .loneSurrogate rest)
    else if 0xD800 ≤ unit ∧ unit ≤ 0xDBFF then
      (trailingSurrogate unit rest).widen (Nat.le_of_lt h)
    else .ok (Char.ofNat unit, ⟨rest, h⟩)

/-! ## String literals -/

/-- The character that a letter behind a backslash stands for. -/
def simpleEscape? (c : Char) : Option Char :=
  if c = '"' ∨ c = '\\' ∨ c = '/' then some c
  else if c = 'b' then some '\x08'
  else if c = 'f' then some '\x0c'
  else if c = 'n' then some '\n'
  else if c = 'r' then some '\r'
  else if c = 't' then some '\t'
  else none

/-- Reads an escape behind its backslash. -/
def escapeSequence : Reader Char
  | [] => .error (.here .endInString [])
  | c :: rest =>
    if c = 'u' then (unicodeEscape rest).widen (by simp)
    else
      match simpleEscape? c with
      | some d => .ok (d, ⟨rest, by simp⟩)
      | none => .error (.past .invalidEscape (c :: rest))

/-- Reads a string literal behind its opening quote; `done` holds the characters so far, the
last one first. -/
def stringRest (done : List Char) (s : List Char) : Read String s :=
  match s with
  | [] => .error (.here .endInString [])
  | c :: rest =>
    if c = '"' then .ok (String.ofList done.reverse, ⟨rest, by simp⟩)
    else if c = '\\' then
      match escapeSequence rest with
      | .error fault => .error fault
      | .ok (d, ⟨rest', h⟩) =>
        (stringRest (d :: done) rest').widen (by simp only [List.length_cons]; omega)
    else if c.toNat < 0x20 then .error (.past .controlCharacter (c :: rest))
    else (stringRest (c :: done) rest).widen (by simp)
termination_by s.length
decreasing_by
  · simp only [List.length_cons]; omega
  · simp

end SchemaHeader.Json

import SchemaHeader.Json.Reader.Numeral
import SchemaHeader.Json.Reader.Text

set_option autoImplicit false

/-! # Reading JSON text

`Json.read` reads a whole text. Nesting is bounded: `readValue room` may open `room` more
containers inside each other, so the recursion is on that number, and the loops over items and
fields end because every value takes at least one character.
-/

namespace SchemaHeader.Json

/-! ## Literals -/

/-- Reads the letters of a literal. -/
def literal (value : Json) : (letters s : List Char) → Except Fault (Json × List Char)
  | [], s => .ok (value, s)
  | _ :: _, [] => .error (.here .endInValue [])
  | l :: letters, c :: rest =>
    if c = l then literal value letters rest else .error (.past .expectedIdent (c :: rest))

theorem length_literal_le {value v : Json} {letters s rest : List Char}
    (h : literal value letters s = .ok (v, rest)) : rest.length ≤ s.length := by
  induction letters generalizing s with
  | nil =>
    simp only [literal, Except.ok.injEq, Prod.mk.injEq] at h
    exact Nat.le_of_eq (congrArg List.length h.2.symm)
  | cons l letters ih =>
    cases s with
    | nil => simp [literal] at h
    | cons c more =>
      rw [literal] at h
      split at h
      · have := ih h
        simp only [List.length_cons]
        omega
      · simp at h

/-- The rest of a literal whose first letter has been taken from `s`. -/
def readLiteral (value : Json) (letters : List Char) {s : List Char} (t : List Char)
    (ht : t.length < s.length) : Read Json s :=
  match h : literal value letters t with
  | .error fault => .error fault
  | .ok (v, rest) => .ok (v, ⟨rest, Nat.lt_of_le_of_lt (length_literal_le h) ht⟩)

/-! ## Containers -/

/-- Reads items up to the closing bracket; an item comes next. -/
def readItems (value : Reader Json) (done : List Json) (s : List Char) : Read (List Json) s :=
  match value s with
  | .error fault => .error fault
  | .ok (item, ⟨rest, h⟩) =>
    match hs : skipBlanks rest with
    | [] => .error (.past .endInList [])
    | c :: more =>
      have hmore : more.length < s.length := Nat.lt_trans (length_lt_of_skipBlanks hs) h
      if c = ']' then .ok ((item :: done).reverse, ⟨more, hmore⟩)
      else if c = ',' then
        if (skipBlanks more).head? = some ']' then .error (.past .trailingComma (skipBlanks more))
        else (readItems value (item :: done) more).widen (Nat.le_of_lt hmore)
      else .error (.past .expectedListEnd (c :: more))
termination_by s.length

/-- Reads an array behind its opening bracket. -/
def readArray (value : Reader Json) : Reader Json := fun s =>
  match h : skipBlanks s with
  | [] => .error (.past .endInList [])
  | c :: rest =>
    if c = ']' then .ok (.array [], ⟨rest, length_lt_of_skipBlanks h⟩)
    else (readItems value [] s).mapValue .array

/-- Reads a key and its colon. -/
def readKey : Reader String := fun s =>
  match h : skipBlanks s with
  | [] => .error (.past .endInValue [])
  | c :: rest =>
    if c = '"' then
      match stringRest [] rest with
      | .error fault => .error fault
      | .ok (key, ⟨rest', h'⟩) =>
        match h'' : skipBlanks rest' with
        | [] => .error (.past .endInObject [])
        | d :: more =>
          if d = ':' then
            .ok (key, ⟨more, Nat.lt_trans (length_lt_of_skipBlanks h'')
              (Nat.lt_trans h' (length_lt_of_skipBlanks h))⟩)
          else .error (.past .expectedColon (d :: more))
    else .error (.past .keyNotString (c :: rest))

/-- Reads fields up to the closing brace; a key comes next. -/
def readFields (value : Reader Json) (done : Fields) (s : List Char) : Read Fields s :=
  match readKey s with
  | .error fault => .error fault
  | .ok (key, ⟨rest, h⟩) =>
    match value rest with
    | .error fault => .error fault
    | .ok (v, ⟨rest', h'⟩) =>
      match hs : skipBlanks rest' with
      | [] => .error (.past .endInObject [])
      | c :: more =>
        have hmore : more.length < s.length :=
          Nat.lt_trans (length_lt_of_skipBlanks hs) (Nat.lt_trans h' h)
        if c = '\x7d' then .ok (done.insert key v, ⟨more, hmore⟩)
        else if c = ',' then
          if (skipBlanks more).head? = some '\x7d' then
            .error (.past .trailingComma (skipBlanks more))
          else (readFields value (done.insert key v) more).widen (Nat.le_of_lt hmore)
        else .error (.past .expectedObjectEnd (c :: more))
termination_by s.length

/-- Reads an object behind its opening brace. -/
def readObject (value : Reader Json) : Reader Json := fun s =>
  match h : skipBlanks s with
  | [] => .error (.past .endInObject [])
  | c :: rest =>
    if c = '\x7d' then .ok (.object [], ⟨rest, length_lt_of_skipBlanks h⟩)
    else (readFields value [] s).mapValue .object

/-! ## Values -/

/-- Reads a value; `array` and `object` read containers behind their opening bracket, and
`nested` says whether one more container may be opened at all. -/
def readWith (nested : Bool) (array object : Reader Json) : Reader Json := fun s =>
  match h : skipBlanks s with
  | [] => .error (.past .endInValue [])
  | c :: rest =>
    have hrest : rest.length < s.length := length_lt_of_skipBlanks h
    if c = 'n' then readLiteral .null ['u', 'l', 'l'] rest hrest
    else if c = 't' then readLiteral (.bool true) ['r', 'u', 'e'] rest hrest
    else if c = 'f' then readLiteral (.bool false) ['a', 'l', 's', 'e'] rest hrest
    else if c = '"' then ((stringRest [] rest).mapValue .string).widen (Nat.le_of_lt hrest)
    else if c = '-' then ((readNumeral true rest).mapValue .number).widen (Nat.le_of_lt hrest)
    else if Decimal.isDigit c then
      ((readNumeral false (c :: rest)).mapValue .number).widen (by
        rw [List.length_cons]
        exact hrest)
    else if c = '[' ∨ c = '\x7b' then
      if nested then
        ((if c = '[' then array else object) rest).widen (Nat.le_of_lt hrest)
      else .error (.past .nestedTooDeep (c :: rest))
    else .error (.past .expectedValue (c :: rest))

/-- Reads a value in which at most `room` containers are open at a time. -/
def readValue : (room : Nat) → Reader Json
  | 0 => readWith false (fun _ => .error ⟨.nestedTooDeep, 0⟩) (fun _ => .error ⟨.nestedTooDeep, 0⟩)
  | room + 1 => readWith true (readArray (readValue room)) (readObject (readValue room))

/-- How many containers may be open at a time. -/
def nestingLimit : Nat := 127

/-- Reads a whole text. -/
def readChars (s : List Char) : Except Fault Json :=
  match readValue nestingLimit s with
  | .error fault => .error fault
  | .ok (value, ⟨rest, _⟩) =>
    match skipBlanks rest with
    | [] => .ok value
    | c :: more => .error (.past .trailingCharacters (c :: more))

/-- **Reads a JSON text**, or says where and why it is none. -/
def read (text : String) : Except ReadError Json :=
  match readChars text.toList with
  | .error fault => .error (fault.locate text)
  | .ok value => .ok value

end SchemaHeader.Json

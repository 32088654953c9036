import SchemaHeader.Decimal.Digit
import SchemaHeader.Json.Basic
import SchemaHeader.Text.Split

set_option autoImplicit false

/-! # Pointers into a JSON value

A pointer is a text of tokens, each behind a slash, that leads from the root of a value to one
of its parts; the empty pointer is the root. A token names a field of an object or, in decimal,
an item of an array. In a token the tilde is written `~0` and the slash `~1`.

* `Pointer.escapeChars` and `Pointer.unescapeChars` write and read the characters of one token;
  `unescapeChars_escapeChars` says that **reading gives back what was written**.
* `Pointer.tokens?` reads the path of a pointer, `Json.descend?` follows a path, and
  `Json.resolve?` does both.
* `references_of_descend?` and `longestArray_of_descend?`: a part of a value has no references
  and no array lengths that the whole does not have.
-/

namespace SchemaHeader

/-! ## Tokens -/

namespace Pointer

/-- Writes the characters of a token. -/
def escapeChars : List Char → List Char
  | [] => []
  | c :: rest =>
    if c = '~' then '~' :: '0' :: escapeChars rest
    else if c = '/' then '~' :: '1' :: escapeChars rest
    else c :: escapeChars rest

/-- Reads the characters of a token; a tilde before any other character stands for itself. -/
def unescapeChars : List Char → List Char
  | [] => []
  | '~' :: '0' :: rest => '~' :: unescapeChars rest
  | '~' :: '1' :: rest => '/' :: unescapeChars rest
  | c :: rest => c :: unescapeChars rest

/-- Writes a token. -/
def escape (token : String) : String :=
  String.ofList (escapeChars token.toList)

/-- **Reading a written token gives it back.** -/
theorem unescapeChars_escapeChars (s : List Char) : unescapeChars (escapeChars s) = s := by
  induction s with
  | nil => rfl
  | cons c rest ih =>
    by_cases h₁ : c = '~'
    · simp [escapeChars, h₁, unescapeChars, ih]
    · by_cases h₂ : c = '/'
      · simp [escapeChars, h₂, unescapeChars, ih]
      · rw [escapeChars, if_neg h₁, if_neg h₂]
        rw [unescapeChars.eq_4]
        · rw [ih]
        · intro _ h _; exact h₁ h
        · intro _ h _; exact h₁ h

/-- A written token holds no slash, so it stays one token. -/
theorem slash_notMem_escapeChars (s : List Char) : '/' ∉ escapeChars s := by
  induction s with
  | nil => simp [escapeChars]
  | cons c rest ih =>
    by_cases h₁ : c = '~'
    · simp [escapeChars, h₁, ih]
    · by_cases h₂ : c = '/'
      · simp [escapeChars, h₂, ih]
      · simp [escapeChars, h₁, h₂, ih, Ne.symm h₂]

/-! ## Paths -/

/-- The tokens of a pointer, or nothing if the text is no pointer. -/
def tokens? (pointer : String) : Option (List String) :=
  match pointer.toList with
  | [] => some []
  | '/' :: rest => some ((Text.splitSlash rest).map fun token => String.ofList (unescapeChars token))
  | _ :: _ => none

/-- Drops the fragment mark: `#/A` and `/A` are the same pointer. -/
def canonical (pointer : String) : String :=
  match pointer.toList with
  | '#' :: rest => String.ofList rest
  | _ => pointer

/-- The pointer of a field of the root. -/
def ofField (name : String) : String :=
  "/" ++ escape name

/-- The first token of a pointer, the empty text for the root. -/
def owner (pointer : String) : String :=
  match (Text.splitSlash pointer.toList)[1]? with
  | some token => String.ofList (unescapeChars token)
  | none => ""

/-- The array index that a token writes: decimal digits without a leading zero. -/
def index? (token : String) : Option Nat :=
  match token.toList with
  | [] => none
  | ['0'] => some 0
  | '0' :: _ => none
  | digits => if digits.all Decimal.isDigit then some (Decimal.ofDigits digits) else none

end Pointer

/-! ## Following a path -/

namespace Json

/-- The part of a value that one token names. -/
def child? (value : Json) (token : String) : Option Json :=
  match value with
  | .object fields => Fields.get? fields token
  | .array items => (Pointer.index? token).bind fun i => items[i]?
  | _ => none

/-- Follows a path of tokens. -/
def descend? (value : Json) : List String → Option Json
  | [] => some value
  | token :: path => (value.child? token).bind (descend? · path)

/-- The part of a value that a pointer leads to. -/
def resolve? (value : Json) (pointer : String) : Option Json :=
  (Pointer.tokens? pointer).bind value.descend?

theorem descend?_append (value : Json) (path more : List String) :
    value.descend? (path ++ more) = (value.descend? path).bind (descend? · more) := by
  induction path generalizing value with
  | nil => rfl
  | cons token path ih =>
    cases h : value.child? token with
    | none => simp [descend?, h]
    | some part => simp [descend?, h, ih]

/-! ## What a part inherits -/

theorem references_child {value part : Json} {token : String}
    (h : value.child? token = some part) : ∀ t ∈ part.references, t ∈ value.references := by
  intro t ht
  cases value with
  | object fields =>
    rw [references, List.mem_append]
    exact Or.inr (references_field h t ht)
  | array items =>
    rw [references]
    simp only [child?, Option.bind_eq_some_iff] at h
    obtain ⟨i, _, hi⟩ := h
    exact references_item (List.mem_of_getElem? hi) t ht
  | null => simp [child?] at h
  | bool => simp [child?] at h
  | number => simp [child?] at h
  | string => simp [child?] at h

/-- **A part of a value has no references that the whole does not have.** -/
theorem references_of_descend? {value part : Json} {path : List String}
    (h : value.descend? path = some part) : ∀ t ∈ part.references, t ∈ value.references := by
  induction path generalizing value with
  | nil =>
    simp only [descend?, Option.some.injEq] at h
    subst h
    exact fun _ ht => ht
  | cons token path ih =>
    simp only [descend?, Option.bind_eq_some_iff] at h
    obtain ⟨middle, hm, hp⟩ := h
    exact fun t ht => references_child hm t (ih hp t ht)

theorem longestArray_child {value part : Json} {token : String}
    (h : value.child? token = some part) : part.longestArray ≤ value.longestArray := by
  cases value with
  | object fields => exact longestArray_field h
  | array items =>
    rw [longestArray]
    simp only [child?, Option.bind_eq_some_iff] at h
    obtain ⟨i, _, hi⟩ := h
    exact Nat.le_trans (longestArray_item (List.mem_of_getElem? hi)) (Nat.le_max_right _ _)
  | null => simp [child?] at h
  | bool => simp [child?] at h
  | number => simp [child?] at h
  | string => simp [child?] at h

/-- **A part of a value has no array longer than the longest of the whole.** -/
theorem longestArray_of_descend? {value part : Json} {path : List String}
    (h : value.descend? path = some part) : part.longestArray ≤ value.longestArray := by
  induction path generalizing value with
  | nil =>
    simp only [descend?, Option.some.injEq] at h
    subst h
    exact Nat.le_refl _
  | cons token path ih =>
    simp only [descend?, Option.bind_eq_some_iff] at h
    obtain ⟨middle, hm, hp⟩ := h
    exact Nat.le_trans (ih hp) (longestArray_child hm)

end Json

end SchemaHeader

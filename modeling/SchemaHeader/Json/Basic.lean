set_option autoImplicit false

/-! # JSON values

The data that every other module reads. An object is the list of its fields in the order in
which the text gave them, because that order reaches the generated header.

* `Json.Fields.insert` writes one field: **a repeated key keeps its first place and takes the
  last value**.
* `Json.UniqueKeys` says that no object inside a value repeats a key. It is a predicate beside
  the type, since a list inside a recursive type cannot carry the proof itself;
  `Json.Fields.insert` keeps the keys of one object distinct (`nodup_keys_insert`).
* `Json.references` lists every text found under a `$ref` key, at any depth. Resolution draws
  its pointers from this finite list.
-/

namespace SchemaHeader

/-! ## Values -/

/-- A JSON number. Integers that fit a 64-bit word stay exact, all others are binary floating
point values. -/
inductive Number where
  | integer (value : Int)
  | float (value : Float)
  deriving DecidableEq

/-- A JSON value. The fields of an object are in source order. -/
inductive Json where
  | null
  | bool (value : Bool)
  | number (value : Number)
  | string (value : String)
  | array (items : List Json)
  | object (fields : List (String × Json))

namespace Json

/-- The fields of an object, in source order. -/
abbrev Fields := List (String × Json)

/-- The type of a JSON value, as messages name it. -/
inductive Kind where
  | null
  | boolean
  | number
  | string
  | array
  | object
  deriving DecidableEq, Repr

/-- The word for a kind in messages. -/
def Kind.name : Kind → String
  | .null => "null"
  | .boolean => "boolean"
  | .number => "number"
  | .string => "string"
  | .array => "array"
  | .object => "object"

/-- The kind of a value. -/
def kind : Json → Kind
  | .null => .null
  | .bool _ => .boolean
  | .number _ => .number
  | .string _ => .string
  | .array _ => .array
  | .object _ => .object

/-- The fields of an object, nothing for any other value. -/
def fields? : Json → Option Fields
  | .object fields => some fields
  | _ => none

/-- The text of a string, nothing for any other value. -/
def string? : Json → Option String
  | .string text => some text
  | _ => none

/-! ## Fields -/

/-- The value of a key. -/
def Fields.get? (fields : Fields) (key : String) : Option Json :=
  fields.lookup key

/-- Whether a key is present. -/
def Fields.has (fields : Fields) (key : String) : Bool :=
  (fields.get? key).isSome

/-- The keys in source order. -/
def Fields.keys (fields : Fields) : List String :=
  fields.map Prod.fst

/-- Writes one field: a repeated key keeps its first place and takes the last value. -/
def Fields.insert (key : String) (value : Json) : Fields → Fields
  | [] => [(key, value)]
  | (k, v) :: rest => if k = key then (k, value) :: rest else (k, v) :: insert key value rest

theorem Fields.mem_keys_insert (key : String) (value : Json) (fields : Fields) (k : String) :
    k ∈ (fields.insert key value).keys ↔ k = key ∨ k ∈ fields.keys := by
  induction fields with
  | nil => simp [insert, keys]
  | cons field rest ih =>
    obtain ⟨k', v⟩ := field
    simp only [keys] at ih
    by_cases h : k' = key
    · subst h; simp [insert, keys]
    · simp only [insert, h, if_false, keys, List.map_cons, List.mem_cons, ih]
      constructor
      · rintro (h₁ | h₁ | h₁) <;> simp [h₁]
      · rintro (h₁ | h₁ | h₁) <;> simp [h₁]

/-- Writing fields one after the other never repeats a key. -/
theorem Fields.nodup_keys_insert (key : String) (value : Json) (fields : Fields)
    (h : fields.keys.Nodup) : (fields.insert key value).keys.Nodup := by
  induction fields with
  | nil => simp [insert, keys]
  | cons field rest ih =>
    obtain ⟨k', v⟩ := field
    simp only [keys, List.map_cons, List.nodup_cons] at h
    by_cases hk : k' = key
    · subst hk
      simpa [insert, keys] using h
    · simp only [insert, hk, if_false, keys, List.map_cons, List.nodup_cons]
      refine ⟨fun hmem => ?_, ih h.2⟩
      rcases (mem_keys_insert key value rest k').1 hmem with heq | hin
      · exact hk heq
      · exact h.1 hin

/-! ## Objects without repeated keys -/

mutual

/-- No object inside the value repeats a key. -/
def UniqueKeys : Json → Prop
  | .array items => UniqueKeysItems items
  | .object fields => (fields.map Prod.fst).Nodup ∧ UniqueKeysFields fields
  | _ => True

/-- No object inside the items repeats a key. -/
def UniqueKeysItems : List Json → Prop
  | [] => True
  | item :: rest => item.UniqueKeys ∧ UniqueKeysItems rest

/-- No object inside the field values repeats a key. -/
def UniqueKeysFields : List (String × Json) → Prop
  | [] => True
  | (_, value) :: rest => value.UniqueKeys ∧ UniqueKeysFields rest

end

/-! ## References inside a value -/

/-- The text under the `$ref` key of an object, if there is one. -/
def Fields.reference? (fields : Fields) : Option String :=
  (fields.get? "$ref").bind string?

mutual

/-- Every text under a `$ref` key, at any depth. -/
def references : Json → List String
  | .array items => referencesItems items
  | .object fields => (Fields.reference? fields).toList ++ referencesFields fields
  | _ => []

/-- Every text under a `$ref` key of the items, at any depth. -/
def referencesItems : List Json → List String
  | [] => []
  | item :: rest => item.references ++ referencesItems rest

/-- Every text under a `$ref` key of the field values, at any depth. -/
def referencesFields : List (String × Json) → List String
  | [] => []
  | (_, value) :: rest => value.references ++ referencesFields rest

end

mutual

/-- The length of the longest array inside the value. -/
def longestArray : Json → Nat
  | .array items => max items.length (longestArrayItems items)
  | .object fields => longestArrayFields fields
  | _ => 0

/-- The length of the longest array inside the items. -/
def longestArrayItems : List Json → Nat
  | [] => 0
  | item :: rest => max item.longestArray (longestArrayItems rest)

/-- The length of the longest array inside the field values. -/
def longestArrayFields : List (String × Json) → Nat
  | [] => 0
  | (_, value) :: rest => max value.longestArray (longestArrayFields rest)

end

/-! Items and field values have nothing that the list of them does not have. -/

theorem references_item {item : Json} {items : List Json} (h : item ∈ items) :
    ∀ t ∈ item.references, t ∈ referencesItems items := by
  induction items with
  | nil => simp at h
  | cons head rest ih =>
    intro t ht
    rw [referencesItems, List.mem_append]
    rcases List.mem_cons.1 h with rfl | h
    · exact Or.inl ht
    · exact Or.inr (ih h t ht)

theorem references_field {fields : Fields} {key : String} {value : Json}
    (h : fields.get? key = some value) :
    ∀ t ∈ value.references, t ∈ referencesFields fields := by
  induction fields with
  | nil => simp [Fields.get?] at h
  | cons field rest ih =>
    obtain ⟨k, v⟩ := field
    intro t ht
    rw [referencesFields, List.mem_append]
    rw [Fields.get?, List.lookup_cons] at h
    split at h
    · cases h; exact Or.inl ht
    · exact Or.inr (ih h t ht)

theorem longestArray_item {item : Json} {items : List Json} (h : item ∈ items) :
    item.longestArray ≤ longestArrayItems items := by
  induction items with
  | nil => simp at h
  | cons head rest ih =>
    rw [longestArrayItems]
    rcases List.mem_cons.1 h with rfl | h
    · exact Nat.le_max_left _ _
    · exact Nat.le_trans (ih h) (Nat.le_max_right _ _)

theorem longestArray_field {fields : Fields} {key : String} {value : Json}
    (h : fields.get? key = some value) : value.longestArray ≤ longestArrayFields fields := by
  induction fields with
  | nil => simp [Fields.get?] at h
  | cons field rest ih =>
    obtain ⟨k, v⟩ := field
    rw [longestArrayFields]
    rw [Fields.get?, List.lookup_cons] at h
    split at h
    · cases h; exact Nat.le_max_left _ _
    · exact Nat.le_trans (ih h) (Nat.le_max_right _ _)

/-! ## Decidable equality -/

mutual

/-- Equality of values is decided by comparing them piece by piece. -/
def decEq : (a b : Json) → Decidable (a = b)
  | .null, .null => isTrue rfl
  | .bool a, .bool b => if h : a = b then isTrue (h ▸ rfl) else isFalse (by simpa using h)
  | .number a, .number b => if h : a = b then isTrue (h ▸ rfl) else isFalse (by simpa using h)
  | .string a, .string b => if h : a = b then isTrue (h ▸ rfl) else isFalse (by simpa using h)
  | .array a, .array b =>
    match decEqItems a b with
    | isTrue h => isTrue (h ▸ rfl)
    | isFalse h => isFalse (by simpa using h)
  | .object a, .object b =>
    match decEqFields a b with
    | isTrue h => isTrue (h ▸ rfl)
    | isFalse h => isFalse (by simpa using h)
  | .null, .bool _ | .null, .number _ | .null, .string _ | .null, .array _ | .null, .object _
  | .bool _, .null | .bool _, .number _ | .bool _, .string _ | .bool _, .array _
  | .bool _, .object _
  | .number _, .null | .number _, .bool _ | .number _, .string _ | .number _, .array _
  | .number _, .object _
  | .string _, .null | .string _, .bool _ | .string _, .number _ | .string _, .array _
  | .string _, .object _
  | .array _, .null | .array _, .bool _ | .array _, .number _ | .array _, .string _
  | .array _, .object _
  | .object _, .null | .object _, .bool _ | .object _, .number _ | .object _, .string _
  | .object _, .array _ => isFalse (by simp)

/-- Equality of item lists. -/
def decEqItems : (a b : List Json) → Decidable (a = b)
  | [], [] => isTrue rfl
  | [], _ :: _ => isFalse (by simp)
  | _ :: _, [] => isFalse (by simp)
  | a :: as, b :: bs =>
    match decEq a b, decEqItems as bs with
    | isTrue h, isTrue hs => isTrue (by rw [h, hs])
    | isFalse h, _ => isFalse (fun e => h (List.cons.inj e).1)
    | _, isFalse hs => isFalse (fun e => hs (List.cons.inj e).2)

/-- Equality of field lists. -/
def decEqFields : (a b : List (String × Json)) → Decidable (a = b)
  | [], [] => isTrue rfl
  | [], _ :: _ => isFalse (by simp)
  | _ :: _, [] => isFalse (by simp)
  | (k, a) :: as, (l, b) :: bs =>
    match decEq a b, decEqFields as bs with
    | isTrue h, isTrue hs =>
      if hk : k = l then isTrue (by rw [h, hs, hk])
      else isFalse (fun e => hk (Prod.mk.inj (List.cons.inj e).1).1)
    | isFalse h, _ => isFalse (fun e => h (Prod.mk.inj (List.cons.inj e).1).2)
    | _, isFalse hs => isFalse (fun e => hs (List.cons.inj e).2)

end

instance : DecidableEq Json := decEq

end Json

end SchemaHeader

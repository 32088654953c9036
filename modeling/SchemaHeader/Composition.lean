import SchemaHeader.EnumSpec

set_option autoImplicit false

/-! # Compositions

The body of a definition is a list of members: references to other bodies, property sets given
in place, and entries that are neither. The lists under `allof` and `allOf` count as one, the
first one first; a body without such a list that has `properties` or `$ref` of its own is its
own single member.

* `reference_mem_references` and `length_members_le` bound what a composition may hold by the
  JSON value it was read from.
-/

namespace SchemaHeader

/-! ## Members -/

/-- A declared property. -/
structure Property where
  name : String
  schema : Json
  enumSpec : Option EnumSpec
  deriving DecidableEq

/-- A property with its enum keys read. -/
def Property.ofField (field : String × Json) : Property :=
  ⟨field.1, field.2, EnumSpec.ofJson? field.2⟩

/-- A property set given in place. -/
structure InlineSchema where
  /-- Where the set stands below its body, such as `/allof/1`; empty for the body itself. -/
  location : String
  properties : List Property
  required : List String
  deriving DecidableEq

/-- Why an entry is not a member. -/
inductive MemberFault where
  | listNotArray (key : String) (found : Json.Kind)
  | memberNotObject (found : Json.Kind)
  | referenceNotString (found : Json.Kind)
  deriving DecidableEq, Repr

/-- The wording of a member fault. -/
def MemberFault.message : MemberFault → String
  | .listNotArray key found => "`" ++ key ++ "` is " ++ found.name ++ ", expected an array"
  | .memberNotObject found => "composition member is " ++ found.name ++ ", expected an object"
  | .referenceNotString found => "`$ref` is " ++ found.name ++ ", expected a string"

/-- A member of a composition. -/
inductive Member where
  | reference (pointer : String)
  | inline (schema : InlineSchema)
  | malformed (fault : MemberFault)
  deriving DecidableEq

namespace InlineSchema

/-- Reads a property set; what is not of the expected type counts as empty. -/
def ofFields (fields : Json.Fields) (location : String) : InlineSchema where
  location := location
  properties :=
    match fields.get? "properties" with
    | some (.object properties) => properties.map Property.ofField
    | _ => []
  required :=
    match fields.get? "required" with
    | some (.array names) => names.filterMap Json.string?
    | _ => []

/-- Whether the set lists a name as required. -/
def isRequired (schema : InlineSchema) (name : String) : Bool :=
  schema.required.contains name

end InlineSchema

/-- Reads a member that stands at `location` below its body. -/
def Member.ofJson (value : Json) (location : String) : Member :=
  match value with
  | .object fields =>
    match Json.Fields.get? fields "$ref" with
    | some (.string pointer) => .reference pointer
    | some other => .malformed (.referenceNotString other.kind)
    | none => .inline (.ofFields fields location)
  | other => .malformed (.memberNotObject other.kind)

/-! ## Bodies -/

/-- The members of a body, in order. -/
structure Composition where
  members : List Member
  deriving DecidableEq

namespace Composition

/-- The members of a list, numbered from `index` on below `key`. -/
def ofItems (key : String) (index : Nat) : List Json → List Member
  | [] => []
  | item :: rest =>
    Member.ofJson item ("/" ++ key ++ "/" ++ toString index) :: ofItems key (index + 1) rest

/-- The members under one of the two list keys. -/
def ofKey (fields : Json.Fields) (key : String) : List Member :=
  match fields.get? key with
  | none => []
  | some (.array items) => ofItems key 0 items
  | some other => [.malformed (.listNotArray key other.kind)]

/-- The members of the body with these fields. -/
def ofFields (fields : Json.Fields) : Composition :=
  if fields.has "allof" || fields.has "allOf" then
    ⟨ofKey fields "allof" ++ ofKey fields "allOf"⟩
  else if fields.has "properties" || fields.has "$ref" then
    ⟨[Member.ofJson (.object fields) ""]⟩
  else ⟨[]⟩

/-- Reads a body; only objects are bodies. -/
def ofJson? (value : Json) : Option Composition :=
  value.fields?.map ofFields

/-- Whether a value may be referred to although it is not a definition: an object with members
or properties of its own. -/
def isComposable (value : Json) : Bool :=
  match value with
  | .object fields =>
    ["allof", "allOf", "properties", "$ref"].any (Json.Fields.has fields)
  | _ => false

end Composition

/-! ## Bounds -/

theorem Member.ofJson_reference {value : Json} {location pointer : String}
    (h : Member.ofJson value location = .reference pointer) : pointer ∈ value.references := by
  cases value with
  | object fields =>
    simp only [ofJson] at h
    split at h
    · rename_i text ht
      cases h
      simp [Json.references, Json.Fields.reference?, ht, Json.string?]
    · cases h
    · cases h
  | null => cases h
  | bool => cases h
  | number => cases h
  | string => cases h
  | array => cases h

namespace Composition

theorem length_ofItems (key : String) (index : Nat) (items : List Json) :
    (ofItems key index items).length = items.length := by
  induction items generalizing index with
  | nil => rfl
  | cons item rest ih => simp [ofItems, ih]

theorem reference_mem_ofItems {key pointer : String} {index : Nat} {items : List Json}
    (h : .reference pointer ∈ ofItems key index items) :
    pointer ∈ Json.referencesItems items := by
  induction items generalizing index with
  | nil => simp [ofItems] at h
  | cons item rest ih =>
    rw [Json.referencesItems, List.mem_append]
    rcases List.mem_cons.1 h with h | h
    · exact Or.inl (Member.ofJson_reference h.symm)
    · exact Or.inr (ih h)

theorem reference_mem_ofKey {fields : Json.Fields} {key pointer : String}
    (h : .reference pointer ∈ ofKey fields key) : pointer ∈ Json.referencesFields fields := by
  unfold ofKey at h
  split at h
  · simp at h
  · rename_i items hi
    refine Json.references_field hi pointer ?_
    rw [Json.references]
    exact reference_mem_ofItems h
  · simp at h

theorem length_ofKey_le (fields : Json.Fields) (key : String) :
    (ofKey fields key).length ≤ Json.longestArrayFields fields + 1 := by
  unfold ofKey
  split
  · simp
  · rename_i items hi
    rw [length_ofItems]
    have h := Json.longestArray_field hi
    rw [Json.longestArray] at h
    have := Nat.le_max_left items.length (Json.longestArrayItems items)
    omega
  · simp

/-- **The references of a composition stand in the value it was read from.** -/
theorem reference_mem_references {value : Json} {body : Composition} {pointer : String}
    (hv : ofJson? value = some body) (h : .reference pointer ∈ body.members) :
    pointer ∈ value.references := by
  cases value with
  | object fields =>
    simp only [ofJson?, Json.fields?, Option.map_some, Option.some.injEq] at hv
    subst hv
    unfold ofFields at h
    split at h
    · rw [Json.references, List.mem_append]
      rcases List.mem_append.1 h with h | h
      · exact Or.inr (reference_mem_ofKey h)
      · exact Or.inr (reference_mem_ofKey h)
    · split at h
      · exact Member.ofJson_reference (List.mem_singleton.1 h).symm
      · simp at h
  | null => simp [ofJson?, Json.fields?] at hv
  | bool => simp [ofJson?, Json.fields?] at hv
  | number => simp [ofJson?, Json.fields?] at hv
  | string => simp [ofJson?, Json.fields?] at hv
  | array => simp [ofJson?, Json.fields?] at hv

/-- **A composition has no more members than its two lists can hold.** -/
theorem length_members_le {value : Json} {body : Composition} (hv : ofJson? value = some body) :
    body.members.length ≤ 2 * value.longestArray + 2 := by
  cases value with
  | object fields =>
    simp only [ofJson?, Json.fields?, Option.map_some, Option.some.injEq] at hv
    subst hv
    have h₁ := length_ofKey_le fields "allof"
    have h₂ := length_ofKey_le fields "allOf"
    unfold ofFields
    rw [Json.longestArray]
    split
    · simp only [List.length_append]
      omega
    · split <;> simp
  | null => simp [ofJson?, Json.fields?] at hv
  | bool => simp [ofJson?, Json.fields?] at hv
  | number => simp [ofJson?, Json.fields?] at hv
  | string => simp [ofJson?, Json.fields?] at hv
  | array => simp [ofJson?, Json.fields?] at hv

end Composition

end SchemaHeader

import SchemaHeader.Compilation
import SchemaHeader.Proofs.PointerPaths
import SchemaHeader.Proofs.ReferenceGraph

set_option autoImplicit false

/-! # Where properties come from

A resolved property carries the pointer of the set that declares it, put together from the pointer
of a body, as some reference spells it, and the place of the set below that body. **Following this
pointer leads back to the declaration.**

* `Composition.inline_mem_ofFields`: where the sets of a body stand.
* `ResolvedProperty.Faithful`: all that a property says of its origin, checked against the document.
* `Resolution.faithful_of_mem_properties`: every property of every walk is faithful.
-/

namespace SchemaHeader

/-! ## Where sets stand -/

theorem Member.ofJson_inline {value : Json} {location : String} {schema : InlineSchema}
    (h : Member.ofJson value location = .inline schema) :
    ∃ fields, value = .object fields ∧ schema = .ofFields fields location := by
  cases value with
  | object fields =>
      simp only [ofJson] at h
      split at h
      · cases h
      · cases h
      · cases h
        exact ⟨fields, rfl, rfl⟩
  | null => cases h
  | bool => cases h
  | number => cases h
  | string => cases h
  | array => cases h

namespace Composition

theorem ofJson?_eq_some {value : Json} {body : Composition} (h : ofJson? value = some body) :
    ∃ fields, value = .object fields ∧ body = ofFields fields := by
  cases value with
  | object fields => exact ⟨fields, rfl, (Option.some.inj h).symm⟩
  | null => cases h
  | bool => cases h
  | number => cases h
  | string => cases h
  | array => cases h

/-- Every member of a list was read from an item, and its place is the index of the item. -/
theorem exists_item_of_mem {key : String} {index : Nat} {items : List Json} {member : Member}
    (h : member ∈ ofItems key index items) :
    ∃ i item, items[i]? = some item ∧
      member = Member.ofJson item ("/" ++ key ++ "/" ++ toString (index + i)) := by
  induction items generalizing index with
  | nil => cases h
  | cons first rest ih =>
      rcases List.mem_cons.mp h with rfl | h
      · exact ⟨0, first, rfl, rfl⟩
      · obtain ⟨i, item, hitem, rfl⟩ := ih h
        refine ⟨i + 1, item, hitem, ?_⟩
        rw [Nat.add_assoc, Nat.add_comm 1 i]

/-- A set in a list was read from an object among the items. -/
theorem inline_mem_ofKey {fields : Json.Fields} {key : String} {schema : InlineSchema}
    (h : .inline schema ∈ ofKey fields key) :
    ∃ (items : List Json) (i : Nat) (inner : Json.Fields),
      fields.get? key = some (.array items) ∧ items[i]? = some (.object inner) ∧
      schema = .ofFields inner ("/" ++ key ++ "/" ++ toString i) := by
  unfold ofKey at h
  split at h
  · cases h
  · rename_i items hitems
    obtain ⟨i, item, hitem, hmember⟩ := exists_item_of_mem h
    obtain ⟨inner, rfl, rfl⟩ := Member.ofJson_inline hmember.symm
    rw [Nat.zero_add]
    exact ⟨items, i, inner, hitems, hitem, rfl⟩
  · cases List.mem_singleton.mp h

/-- **The sets of a body stand in its two lists**, or the body is the set itself. -/
theorem inline_mem_ofFields {fields : Json.Fields} {schema : InlineSchema}
    (h : .inline schema ∈ (ofFields fields).members) :
    schema = .ofFields fields "" ∨
      ∃ key ∈ ["allof", "allOf"], .inline schema ∈ ofKey fields key := by
  unfold ofFields at h
  split at h
  · rcases List.mem_append.mp h with h | h
    · exact Or.inr ⟨"allof", by simp, h⟩
    · exact Or.inr ⟨"allOf", by simp, h⟩
  · split at h
    · obtain ⟨inner, hfields, rfl⟩ := Member.ofJson_inline (List.mem_singleton.mp h).symm
      cases hfields
      exact Or.inl rfl
    · cases h

/-- **The place of a set leads from its body to the object that it was read from.** -/
theorem exists_fields_of_inline {fields : Json.Fields} {schema : InlineSchema}
    (h : .inline schema ∈ (ofFields fields).members) :
    ∃ (inner : Json.Fields) (path : List String),
      Pointer.tokens? schema.location = some path ∧
      (Json.object fields).resolve? schema.location = some (.object inner) ∧
      schema = .ofFields inner schema.location := by
  rcases inline_mem_ofFields h with rfl | ⟨key, hkey, hmem⟩
  · exact ⟨fields, [], rfl, rfl, rfl⟩
  · obtain ⟨items, i, inner, hitems, hitem, rfl⟩ := inline_mem_ofKey hmem
    have hplain : ∀ key ∈ ["allof", "allOf"], Pointer.escape key = key := by decide +kernel
    -- The place is written without escaping, and neither of its tokens would need any.
    have hlocation : "/" ++ key ++ "/" ++ toString i
        = Pointer.ofField key ++ Pointer.ofField (toString i) := by
      rw [Pointer.ofField_of_plain (hplain key hkey),
        Pointer.ofField_of_plain (Pointer.escape_toString i), String.append_assoc]
    have hlist : (Json.object fields).resolve? (Pointer.ofField key) = some (.array items) := by
      rw [Json.resolve?_ofField, hitems]
    have hindex := Pointer.tokens?_ofField (toString i)
    refine ⟨inner, [key] ++ [toString i], ?_, ?_, rfl⟩
    · show Pointer.tokens? ("/" ++ key ++ "/" ++ toString i) = _
      rw [hlocation]
      exact Pointer.tokens?_append (Pointer.tokens?_ofField key) hindex
    · show (Json.object fields).resolve? ("/" ++ key ++ "/" ++ toString i) = _
      rw [hlocation, Json.resolve?_append hlist hindex, Json.resolve?_item, hitem]

end Composition

/-! ## What a set declares -/

namespace InlineSchema

/-- The properties of a set are the fields under `properties`. -/
theorem mem_properties_ofFields {fields : Json.Fields} {location : String} {property : Property}
    (h : property ∈ (ofFields fields location).properties) :
    ∃ properties : Json.Fields, fields.get? "properties" = some (.object properties) ∧
      (property.name, property.schema) ∈ properties ∧
      property.enumSpec = EnumSpec.ofJson? property.schema := by
  unfold ofFields at h
  simp only at h
  split at h
  · rename_i properties hproperties
    obtain ⟨field, hfield, rfl⟩ := List.mem_map.mp h
    exact ⟨properties, hproperties, hfield, rfl⟩
  · cases h

/-- The required names of a set are the texts under `required`. -/
theorem mem_required_ofFields_iff {fields : Json.Fields} {location name : String} :
    name ∈ (ofFields fields location).required ↔
      ∃ names, fields.get? "required" = some (.array names) ∧ .string name ∈ names := by
  unfold ofFields
  simp only
  split
  · rename_i names hnames
    have hstring : ∀ item : Json, item.string? = some name ↔ item = .string name := by
      intro item
      cases item <;> simp [Json.string?]
    simp [hnames, List.mem_filterMap, hstring]
  · rename_i hnone
    constructor
    · intro h
      cases h
    · rintro ⟨names, hnames, _⟩
      exact absurd hnames (hnone names)

end InlineSchema

/-! ## Faithful properties -/

/-- **What a resolved property says of its origin is true of the document.** -/
structure ResolvedProperty.Faithful (document : Document) (resolved : ResolvedProperty) : Prop where
  /-- The origin addresses an object that declares the property, and that lists its name under
  `required` exactly if the property is required. -/
  declaration : ∃ fields properties : Json.Fields,
    document.lookup? resolved.origin = some (.object fields) ∧
    fields.get? "properties" = some (.object properties) ∧
    properties.get? resolved.name = some resolved.property.schema ∧
    (resolved.isRequired = true ↔
      ∃ names, fields.get? "required" = some (.array names) ∧ .string resolved.name ∈ names)
  /-- The schema can be looked up below the origin. -/
  schema : document.lookup?
    (resolved.origin ++ "/properties/" ++ Pointer.escape resolved.name)
      = some resolved.property.schema
  /-- The enum keys are those of the schema, and there are none if it is no object. -/
  enumSpec : resolved.property.enumSpec = resolved.property.schema.fields?.bind EnumSpec.ofFields?
  /-- The owner is the definition in which the origin lies; the document as a whole has none. -/
  owner : (resolved.origin = "" ∧ resolved.owner = "") ∨
    (resolved.owner ∈ document.names ∧
      ∃ rest, Pointer.tokens? resolved.origin = some (resolved.owner :: rest))

/-- What can be read as a path is looked up as it is. -/
theorem Document.lookup?_of_tokens? (document : Document) {pointer : String} {path : List String}
    (h : Pointer.tokens? pointer = some path) :
    document.lookup? pointer = document.root.resolve? pointer := by
  rw [lookup?, Pointer.canonical_of_tokens? h]

/-- **A set stands at its origin**: the pointer of its body and its own place, written in a row,
lead to the object that the set was read from. -/
theorem resolve?_origin {document : Document} {pointer : String} {fields : Json.Fields}
    {schema : InlineSchema} (hpart : document.root.resolve? pointer = some (.object fields))
    (hmem : .inline schema ∈ (Composition.ofFields fields).members) :
    ∃ (inner : Json.Fields) (front path : List String), Pointer.tokens? pointer = some front ∧
      Pointer.tokens? (pointer ++ schema.location) = some (front ++ path) ∧
      document.root.resolve? (pointer ++ schema.location) = some (.object inner) ∧
      schema = .ofFields inner schema.location := by
  obtain ⟨inner, path, hlocation, hinner, hschema⟩ := Composition.exists_fields_of_inline hmem
  obtain ⟨front, hfront, _⟩ := Option.bind_eq_some_iff.mp hpart
  refine ⟨inner, front, path, hfront, Pointer.tokens?_append hfront hlocation, ?_, hschema⟩
  rw [Json.resolve?_append hpart hlocation, hinner]

/-- The schema of a property is looked up below the object that declares it. -/
theorem lookup?_property {document : Document} {origin : String} {fields properties : Json.Fields}
    {path : List String} (htokens : Pointer.tokens? origin = some path)
    (horigin : document.root.resolve? origin = some (.object fields))
    (hproperties : fields.get? "properties" = some (.object properties)) (name : String) :
    document.lookup? (origin ++ "/properties/" ++ Pointer.escape name) = properties.get? name := by
  have hkey : Pointer.ofField "properties" ++ "/" = "/properties/" := by decide +kernel
  have hpointer : origin ++ "/properties/" ++ Pointer.escape name
      = origin ++ Pointer.ofField "properties" ++ Pointer.ofField name := by
    rw [← hkey, Pointer.ofField.eq_1 name]
    simp only [String.append_assoc]
  have hobject : document.root.resolve? (origin ++ Pointer.ofField "properties")
      = some (.object properties) := by
    rw [Json.resolve?_append horigin (Pointer.tokens?_ofField "properties"),
      Json.resolve?_ofField, hproperties]
  have hpath := Pointer.tokens?_append htokens (Pointer.tokens?_ofField "properties")
  rw [hpointer, document.lookup?_of_tokens?
      (Pointer.tokens?_append hpath (Pointer.tokens?_ofField name)),
    Json.resolve?_append hobject (Pointer.tokens?_ofField name), Json.resolve?_ofField]

section Faithful

variable {value : Json} {document : Document}
  (hkeys : value.UniqueKeys) (hread : Document.ofJson value = .ok document)

include hread in
/-- The document as a whole has no lists of members, because its fields are objects. -/
theorem location_eq_empty_of_root {schema : InlineSchema}
    (h : .inline schema ∈ (Composition.ofFields document.fields).members) :
    schema.location = "" := by
  rcases Composition.inline_mem_ofFields h with rfl | ⟨key, _, hmem⟩
  · rfl
  · obtain ⟨items, _, _, hitems, _, _⟩ := Composition.inline_mem_ofKey hmem
    obtain ⟨body, hbody⟩ := Document.exists_body_of_field hread (Json.Fields.mem_of_get? hitems)
    cases hbody

include hread in
/-- The first token of a pointer that leads somewhere is the name of a definition. -/
theorem mem_names_of_resolve? {pointer token : String} {rest : List String} {part : Json}
    (hpart : document.root.resolve? pointer = some part)
    (htokens : Pointer.tokens? pointer = some (token :: rest)) : token ∈ document.names := by
  rw [Json.resolve?, htokens, Option.bind_some] at hpart
  obtain ⟨first, hfirst, _⟩ := Option.bind_eq_some_iff.mp hpart
  have hkey : token ∈ document.fields.keys :=
    List.mem_map_of_mem (Json.Fields.mem_of_get? hfirst)
  rwa [← Document.map_name_eq_keys hread] at hkey

include hread in
/-- **The owner of a set is the definition in which its origin lies**, and only the document as a
whole has none. -/
theorem owner_of_inline {pointer : String} {fields : Json.Fields} {schema : InlineSchema}
    {front path : List String} (hpart : document.root.resolve? pointer = some (.object fields))
    (hmem : .inline schema ∈ (Composition.ofFields fields).members)
    (hfront : Pointer.tokens? pointer = some front)
    (horigin : Pointer.tokens? (pointer ++ schema.location) = some (front ++ path)) :
    (pointer ++ schema.location = "" ∧ front.headD "" = "") ∨
    (front.headD "" ∈ document.names ∧
      ∃ rest, Pointer.tokens? (pointer ++ schema.location) = some (front.headD "" :: rest)) := by
  cases front with
  | nil =>
      have hempty : pointer = "" := Pointer.eq_empty_of_tokens? hfront
      subst hempty
      -- The empty pointer addresses the document itself.
      cases hpart
      rw [location_eq_empty_of_root hread hmem]
      exact Or.inl ⟨rfl, rfl⟩
  | cons token rest =>
      exact Or.inr ⟨mem_names_of_resolve? hread hpart hfront, rest ++ path, horigin⟩

include hkeys hread in
/-- **What a set in a body declares is faithful**, by whatever pointer the body is addressed. -/
theorem faithful_of_mem_declared {pointer : String} {body : Composition} {schema : InlineSchema}
    {resolved : ResolvedProperty} (hbody : document.bodyAt? pointer = some body)
    (hmem : .inline schema ∈ body.members) (hresolved : resolved ∈ declared pointer schema) :
    resolved.Faithful document := by
  obtain ⟨part, hpart, hcomposition⟩ := Option.bind_eq_some_iff.mp hbody
  obtain ⟨fields, rfl, rfl⟩ := Composition.ofJson?_eq_some hcomposition
  obtain ⟨inner, front, path, hfront, htokens, horigin, hschema⟩ := resolve?_origin hpart hmem
  obtain ⟨property, hproperty, rfl⟩ := List.mem_map.mp hresolved
  have hrequired : property.name ∈ schema.required ↔ ∃ names,
      inner.get? "required" = some (.array names) ∧ .string property.name ∈ names := by
    rw [hschema]
    exact InlineSchema.mem_required_ofFields_iff
  rw [hschema] at hproperty
  obtain ⟨properties, hproperties, hfield, henum⟩ := InlineSchema.mem_properties_ofFields hproperty
  -- A field of the object is the one found by its name, because no key is repeated.
  have hname : properties.get? property.name = some property.schema := by
    have hroot : document.root.UniqueKeys := (Document.root_eq_of_ofJson hread).1 ▸ hkeys
    have hunique : (Json.object properties).UniqueKeys := (hroot.resolve horigin).child hproperties
    exact Json.Fields.get?_of_mem hunique.1 hfield
  have howner := owner_of_inline hread hpart hmem hfront htokens
  constructor
  case declaration =>
    refine ⟨inner, properties, ?_, hproperties, hname, decide_eq_true_iff.trans hrequired⟩
    rw [document.lookup?_of_tokens? htokens, horigin]
  case schema => exact (lookup?_property htokens horigin hproperties property.name).trans hname
  case enumSpec => exact henum
  case owner =>
    show _ ∨ ((Pointer.tokens? pointer).getD []).headD "" ∈ document.names ∧ _
    rw [hfront]
    exact howner

end Faithful

namespace Resolution

/-- **Every property of every walk is faithful to the document**: its origin leads to the object
that declares it, whatever references the walk has come along, and so do its schema, its enum keys
and its owner. -/
theorem faithful_of_mem_properties {value : Json} {document : Document} {start : Definition}
    (hkeys : value.UniqueKeys) (hread : Document.ofJson value = .ok document)
    (hstart : start ∈ document.definitions) {resolved : ResolvedProperty}
    (h : resolved ∈ (resolve document start).properties) : resolved.Faithful document := by
  obtain ⟨_, _, _, _, _, hbody, hmem, hresolved⟩ :=
    (mem_properties_resolve_iff hkeys hread hstart resolved).mp h
  exact faithful_of_mem_declared hkeys hread hbody hmem hresolved

/-! ## Names with slashes and tildes -/

/-- The fields of a body that refers to an item of the list of `a/b~` and to the whole document. -/
def outerBody : Json.Fields :=
  [("allof", .array [
    .object [("$ref", .string "#/a~1b~0/allOf/0")], .object [("$ref", .string "#")]])]

/-- The fields of a body with one list, of one set, that declares and requires `x/y`. -/
def slashBody : Json.Fields :=
  [("allOf", .array [.object [
    ("properties", .object [("x/y", .number (.integer 1))]),
    ("required", .array [.string "x/y"])]])]

/-- A document whose third definition makes it a set of properties of its own. -/
def slashDocument : Document where
  fields := [("A", .object outerBody), ("a/b~", .object slashBody),
    ("properties", .object [("p", .object [])])]
  definitions := [⟨"A", "/A", .ofFields outerBody⟩, ⟨"a/b~", "/a~1b~0", .ofFields slashBody⟩,
    ⟨"properties", "/properties", .ofFields [("p", .object [])]⟩]

/-- `A` has a property of `a/b~` and one of the whole document, and both lead back to where they are
declared. -/
theorem faithful_slashDocument :
    slashDocument.root.UniqueKeys ∧ Document.ofJson slashDocument.root = .ok slashDocument ∧
      ⟨"A", "/A", .ofFields outerBody⟩ ∈ slashDocument.definitions ∧
      (resolve slashDocument ⟨"A", "/A", .ofFields outerBody⟩).properties
        = [⟨⟨"x/y", .number (.integer 1), none⟩, true, "a/b~", "/a~1b~0/allOf/0"⟩,
          ⟨⟨"p", .object [], none⟩, false, "", ""⟩] ∧
      slashDocument.lookup? ("/a~1b~0/allOf/0" ++ "/properties/" ++ Pointer.escape "x/y")
        = some (.number (.integer 1)) ∧
      slashDocument.lookup? ("" ++ "/properties/" ++ Pointer.escape "p") = some (.object []) := by
  have hkeys : slashDocument.root.UniqueKeys := by
    simp [slashDocument, outerBody, slashBody, Document.root, Json.UniqueKeys,
      Json.UniqueKeysFields, Json.UniqueKeysItems]
  have hread : Document.ofJson slashDocument.root = .ok slashDocument := rfl
  have hstart : ⟨"A", "/A", .ofFields outerBody⟩ ∈ slashDocument.definitions := List.mem_cons_self
  have hproperties : (resolve slashDocument ⟨"A", "/A", .ofFields outerBody⟩).properties
      = [⟨⟨"x/y", .number (.integer 1), none⟩, true, "a/b~", "/a~1b~0/allOf/0"⟩,
        ⟨⟨"p", .object [], none⟩, false, "", ""⟩] := by
    decide +kernel
  refine ⟨hkeys, hread, hstart, hproperties, ?_, ?_⟩
  · have hmem : ⟨⟨"x/y", .number (.integer 1), none⟩, true, "a/b~", "/a~1b~0/allOf/0"⟩
        ∈ (resolve slashDocument ⟨"A", "/A", .ofFields outerBody⟩).properties := by
      rw [hproperties]
      exact List.mem_cons_self
    exact (faithful_of_mem_properties hkeys hread hstart hmem).schema
  · have hmem : ⟨⟨"p", .object [], none⟩, false, "", ""⟩
        ∈ (resolve slashDocument ⟨"A", "/A", .ofFields outerBody⟩).properties := by
      rw [hproperties]
      exact List.mem_cons_of_mem _ List.mem_cons_self
    exact (faithful_of_mem_properties hkeys hread hstart hmem).schema

end Resolution

end SchemaHeader

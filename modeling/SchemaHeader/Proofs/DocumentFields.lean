import SchemaHeader.Proofs.OtherDefinitions
import SchemaHeader.Proofs.PointerRoundTrips
import SchemaHeader.Proofs.WalkRounds

set_option autoImplicit false

/-! # Documents and their fields

A document keeps its fields as they were written, and beside them the definitions that it has read
from them. A walk starts with a definition, but a reference to it goes back to the fields: it looks
the pointer up and reads the body once more. **Both have to come to the same frame.**

* `Document.Fault`: what is wrong with a value that is no document, and
  `Document.ofJson_eq_error_iff`: reading fails with just that.
* `Document.StandsFor`: a definition stands for a field. By name, by pointer and by reference it is
  found, and what is found is the field.
* `Document.ofJson_mirrors_fields`: **which values are documents, and that every definition stands
  for its field**, in source order.
-/

namespace SchemaHeader

theorem Json.kind_eq_object_iff {value : Json} :
    value.kind = .object ↔ ∃ fields, value = .object fields := by
  cases value <;> simp [kind]

/-- Only objects are bodies. -/
theorem Composition.exists_body_iff {value : Json} :
    (∃ body, Composition.ofJson? value = some body) ↔ value.kind = .object := by
  rw [Json.kind_eq_object_iff]
  constructor
  · rintro ⟨body, hbody⟩
    obtain ⟨fields, hfields, _⟩ := Option.map_eq_some_iff.mp hbody
    cases value with
    | object fields => exact ⟨fields, rfl⟩
    | null => cases hfields
    | bool => cases hfields
    | number => cases hfields
    | string => cases hfields
    | array => cases hfields
  · rintro ⟨fields, rfl⟩
    exact ⟨ofFields fields, rfl⟩

namespace Document

/-! ## Values that are no documents -/

/-- **What is wrong with a value that is no document**: it is no object, or one of its fields is
none, and then the first such field is to blame. -/
inductive Fault : Json → DocumentError → Prop where
  | notAnObject {value : Json} (h : value.kind ≠ .object) :
      Fault value (.notAnObject value.kind)
  | invalidDefinition {before after : Json.Fields} {name : String} {part : Json}
      (hbefore : ∀ field ∈ before, field.2.kind = .object) (hpart : part.kind ≠ .object) :
      Fault (.object (before ++ (name, part) :: after)) (.invalidDefinition name part.kind)

theorem readDefinition_of_object {field : String × Json} (h : field.2.kind = .object) :
    ∃ definition, readDefinition field = .ok definition := by
  obtain ⟨body, hbody⟩ := Composition.exists_body_iff.mpr h
  exact ⟨⟨field.1, Pointer.ofField field.1, body⟩, by simp only [readDefinition, hbody]⟩

theorem readDefinition_of_not_object {field : String × Json} (h : field.2.kind ≠ .object) :
    readDefinition field = .error (.invalidDefinition field.1 field.2.kind) := by
  unfold readDefinition
  split
  · rename_i body hbody
    exact absurd (Composition.exists_body_iff.mp ⟨body, hbody⟩) h
  · rfl

/-- Fields that are objects are read before a fault behind them is met. -/
theorem readDefinitions_append {before after : Json.Fields} {error : DocumentError}
    (hbefore : ∀ field ∈ before, field.2.kind = .object)
    (hafter : readDefinitions after = .error error) :
    readDefinitions (before ++ after) = .error error := by
  induction before with
  | nil => exact hafter
  | cons field before ih =>
      obtain ⟨definition, hdefinition⟩ :=
        readDefinition_of_object (hbefore field List.mem_cons_self)
      have hrest := ih fun other hother => hbefore other (List.mem_cons_of_mem _ hother)
      show readDefinitions (field :: (before ++ after)) = .error error
      simp only [readDefinitions, hdefinition, hrest]

/-- **Reading fields fails at the first one that is no object.** -/
theorem exists_first_of_readDefinitions {fields : Json.Fields} {error : DocumentError}
    (h : readDefinitions fields = .error error) :
    ∃ before name part after, fields = before ++ (name, part) :: after ∧
      (∀ field ∈ before, field.2.kind = .object) ∧ part.kind ≠ .object ∧
      error = .invalidDefinition name part.kind := by
  induction fields with
  | nil => cases h
  | cons field rest ih =>
      by_cases hobject : field.2.kind = .object
      · obtain ⟨definition, hdefinition⟩ := readDefinition_of_object hobject
        have hrest : readDefinitions rest = .error error := by
          simp only [readDefinitions, hdefinition] at h
          split at h
          · rename_i other hother
            cases h
            exact hother
          · cases h
        obtain ⟨before, name, part, after, rfl, hbefore, hpart, herror⟩ := ih hrest
        refine ⟨field :: before, name, part, after, rfl, ?_, hpart, herror⟩
        exact List.forall_mem_cons.mpr ⟨hobject, hbefore⟩
      · simp only [readDefinitions, readDefinition_of_not_object hobject] at h
        cases h
        exact ⟨[], field.1, field.2, rest, rfl, by simp, hobject, rfl⟩

theorem ofJson_of_not_object {value : Json} (h : value.kind ≠ .object) :
    ofJson value = .error (.notAnObject value.kind) := by
  unfold ofJson
  split
  · exact absurd rfl h
  · rfl

/-- **Reading a value fails exactly with what is wrong with it.** -/
theorem ofJson_eq_error_iff {value : Json} {error : DocumentError} :
    ofJson value = .error error ↔ Fault value error := by
  constructor
  · intro h
    by_cases hobject : value.kind = .object
    · obtain ⟨fields, rfl⟩ := Json.kind_eq_object_iff.mp hobject
      have hfields : readDefinitions fields = .error error := by
        simp only [ofJson] at h
        split at h
        · rename_i other hother
          cases h
          exact hother
        · cases h
      obtain ⟨before, name, part, after, rfl, hbefore, hpart, rfl⟩ :=
        exists_first_of_readDefinitions hfields
      exact .invalidDefinition hbefore hpart
    · rw [ofJson_of_not_object hobject] at h
      cases h
      exact .notAnObject hobject
  · intro h
    cases h with
    | notAnObject hobject => exact ofJson_of_not_object hobject
    | @invalidDefinition before after name part hbefore hpart =>
        have hfault : readDefinition (name, part) = .error (.invalidDefinition name part.kind) :=
          readDefinition_of_not_object hpart
        have hfirst : readDefinitions ((name, part) :: after)
            = .error (.invalidDefinition name part.kind) := by
          simp only [readDefinitions, hfault]
        simp only [ofJson, readDefinitions_append hbefore hfirst]

/-- **The documents are the objects of objects.** -/
theorem exists_ofJson_iff {value : Json} :
    (∃ document, ofJson value = .ok document) ↔
      ∃ fields, value = .object fields ∧ ∀ field ∈ fields, field.2.kind = .object := by
  constructor
  · rintro ⟨document, hread⟩
    refine ⟨document.fields, (root_eq_of_ofJson hread).1, fun field hfield => ?_⟩
    exact Composition.exists_body_iff.mp (exists_body_of_field hread hfield)
  · rintro ⟨fields, rfl, hobjects⟩
    obtain ⟨document, hread, _⟩ := exists_ofJson fields fun field hfield =>
      Composition.exists_body_iff.mpr (hobjects field hfield)
    exact ⟨document, hread⟩

/-! ## Definitions of documents -/

/-- **A definition stands for a field**: it has the field's name and is found by it; its pointer
leads to the field's value, with the fragment mark and without, and belongs to its name; its body is
what the value is read as; and whoever refers to it goes on with the frame that its own walk starts
with. -/
structure StandsFor (document : Document) (definition : Definition) (field : String × Json) :
    Prop where
  name : definition.name = field.1
  found : document.definition? definition.name = some definition
  addressed : document.lookup? definition.pointer = some field.2
  marked : document.lookup? ("#" ++ definition.pointer) = some field.2
  body : Composition.ofJson? field.2 = some definition.body
  owner : Pointer.owner definition.pointer = definition.name
  entered : ∀ referrer path reference, Pointer.canonical reference = definition.pointer →
    definition.pointer ∉ path →
    ∃ frame, Resolution.follow document referrer path reference = .ok frame ∧
      (Resolution.after document definition 0).1 = [frame]

section Read

variable {value : Json} {document : Document} (hkeys : value.UniqueKeys)
  (hread : Document.ofJson value = .ok document)

include hkeys hread

/-- What a field is read as stands for the field. -/
theorem standsFor_of_mem {definition : Definition} {field : String × Json}
    (hdefinition : definition ∈ document.definitions) (hfield : field ∈ document.fields)
    (h : readDefinition field = .ok definition) : document.StandsFor definition field := by
  obtain ⟨hname, hpointer, hbody⟩ := readDefinition_eq_ok h
  have hdistinct : document.fields.keys.Nodup := nodup_keys hread hkeys
  have htokens : Pointer.tokens? definition.pointer = some [field.1] := by
    rw [hpointer, Pointer.tokens?_ofField]
  have hvalue : document.root.descend? [field.1] = some field.2 := by
    have hchild : document.root.child? field.1 = some field.2 :=
      Json.Fields.get?_of_mem hdistinct hfield
    rw [Json.descend?, hchild, Option.bind_some, Json.descend?]
  obtain ⟨hplain, hmarked⟩ := document.lookup?_of_path htokens
  refine ⟨hname, ?_, hplain.trans hvalue, hmarked.trans hvalue, hbody, ?_, ?_⟩
  · exact (definition?_eq_some_iff hread hdistinct).mpr ⟨hdefinition, rfl⟩
  · rw [Pointer.owner_eq_of_tokens? htokens, hname]
    rfl
  · intro referrer path reference hreference hoff
    -- The reference reads the body from the fields once more, and finds the one that was kept.
    have htarget := Resolution.target_of_canonical_eq hkeys hread hdefinition hreference
    refine ⟨⟨definition.pointer, definition.body.members⟩, ?_, rfl⟩
    simp only [Resolution.follow, hreference, htarget, if_neg hoff]

/-- **Definition by definition, a document stands for its fields.** -/
theorem forall₂_standsFor :
    List.Forall₂ document.StandsFor document.definitions document.fields := by
  have hall := map_readDefinition_eq (root_eq_of_ofJson hread).2
  have hread₂ : List.Forall₂ (fun definition field => readDefinition field = .ok definition)
      document.definitions document.fields := by
    have hsame : List.Forall₂ (fun ok result => result = ok)
        (document.definitions.map Except.ok) (document.fields.map readDefinition) := by
      rw [hall]
      exact List.forall₂_same.mpr fun _ _ => rfl
    rw [List.forall₂_map_left_iff, List.forall₂_map_right_iff] at hsame
    exact hsame
  rw [List.forall₂_iff_zip] at hread₂ ⊢
  refine ⟨hread₂.1, fun {definition field} hpair => ?_⟩
  obtain ⟨hdefinition, hfield⟩ := List.of_mem_zip hpair
  exact standsFor_of_mem hkeys hread hdefinition hfield (hread₂.2 hpair)

/-- The pointers of the definitions are distinct. -/
theorem nodup_pointers : (document.definitions.map Definition.pointer).Nodup := by
  refine List.Nodup.map_on ?_ (nodup_names hread hkeys).of_map
  intro first hfirst second hsecond h
  exact eq_of_pointer_eq hread hkeys hfirst hsecond h

end Read

/-- **A document mirrors its fields.** A value is a document exactly if it is an object of objects;
otherwise reading it fails with what is wrong first. The definitions of a document have distinct
names and distinct pointers, and one by one, in source order, they stand for the fields. -/
theorem ofJson_mirrors_fields {value : Json} (hkeys : value.UniqueKeys) :
    ((∃ document, ofJson value = .ok document) ↔
      ∃ fields, value = .object fields ∧ ∀ field ∈ fields, field.2.kind = .object) ∧
    (∀ error, ofJson value = .error error ↔ Fault value error) ∧
    ∀ document, ofJson value = .ok document →
      ∃ fields : Json.Fields, value = .object fields ∧
        document.definitions.map Definition.name = fields.keys ∧
        List.Forall₂ document.StandsFor document.definitions fields ∧
        (document.definitions.map Definition.name).Nodup ∧
        (document.definitions.map Definition.pointer).Nodup := by
  refine ⟨exists_ofJson_iff, fun error => ofJson_eq_error_iff, fun document hread => ?_⟩
  exact ⟨document.fields, (root_eq_of_ofJson hread).1, map_name_eq_keys hread,
    forall₂_standsFor hkeys hread, nodup_names hread hkeys, nodup_pointers hkeys hread⟩

/-! ## Names made of marks -/

/-- A body that refers to the definition without a name. -/
def markedBody : Json :=
  .object [("allof", .array [.object [("$ref", .string "#/")]])]

/-- The fields of a definition without a name, and of one whose name looks like a pointer. -/
def markedFields : Json.Fields :=
  [("", .object []), ("#/~1", markedBody)]

/-- The definition whose name looks like a pointer. -/
def markedDefinition : Definition :=
  ⟨"#/~1", "/#~1~01", ⟨[.reference "#/"]⟩⟩

/-- The document of both definitions. -/
def markedDocument : Document where
  fields := markedFields
  definitions := [⟨"", "/", ⟨[]⟩⟩, markedDefinition]

/-- Both names lead to their fields. With two more fields that are no objects, the first of them is
to blame. -/
theorem ofJson_mirrors_markedFields :
    (Json.object markedFields).UniqueKeys ∧
      ofJson (.object markedFields) = .ok markedDocument ∧
      markedDocument.StandsFor ⟨"", "/", ⟨[]⟩⟩ ("", .object []) ∧
      markedDocument.StandsFor markedDefinition ("#/~1", markedBody) ∧
      (Json.object (markedFields ++ [("B", .null), ("C", .string "")])).UniqueKeys ∧
      ofJson (.object (markedFields ++ [("B", .null), ("C", .string "")]))
        = .error (.invalidDefinition "B" .null) := by
  have hkeys : (Json.object markedFields).UniqueKeys := by
    simp [markedFields, markedBody, Json.UniqueKeys, Json.UniqueKeysFields, Json.UniqueKeysItems]
  have hmore : (Json.object (markedFields ++ [("B", .null), ("C", .string "")])).UniqueKeys := by
    simp [markedFields, markedBody, Json.UniqueKeys, Json.UniqueKeysFields, Json.UniqueKeysItems]
  have hread : ofJson (.object markedFields) = .ok markedDocument := by
    have hempty : "/" = Pointer.ofField "" := by decide +kernel
    have hmarks : "/#~1~01" = Pointer.ofField "#/~1" := by decide +kernel
    rw [markedDocument, markedDefinition, hempty, hmarks]
    rfl
  obtain ⟨fields, hfields, _, hstand, _, _⟩ := (ofJson_mirrors_fields hkeys).2.2 _ hread
  cases hfields
  obtain ⟨hfirst, hrest⟩ := List.forall₂_cons.mp hstand
  refine ⟨hkeys, hread, hfirst, (List.forall₂_cons.mp hrest).1, hmore, ?_⟩
  refine ((ofJson_mirrors_fields hmore).2.1 _).mpr (.invalidDefinition ?_ ?_)
  · intro field hfield
    rcases List.mem_cons.mp hfield with rfl | hfield
    · rfl
    · rw [List.mem_singleton.mp hfield]
      rfl
  · decide

end Document

end SchemaHeader

import SchemaHeader.Document
import Mathlib.Data.List.Nodup

set_option autoImplicit false

/-! # Definitions at their pointers

A definition is read from a field of the root and gets the pointer of that field. Following the
pointer leads back to the field, because a written token is one token and reads back as the name
it was written for.

* `Json.resolve?_ofField`: the pointer of a name addresses the first field of that name.
* `Document.exists_body_of_isDefinition`: **what the pointer of a definition addresses is a
  body**, so a reference that passes for a definition can always be expanded.
* `Document.bodyAt?_pointer`: if no key is repeated, it is the body of that very definition.
-/

namespace SchemaHeader

/-! ## One token -/

theorem Text.splitSlash_of_slash_notMem {s : List Char} (h : '/' ∉ s) :
    Text.splitSlash s = [s] := by
  induction s with
  | nil => rfl
  | cons c rest ih =>
      have hc : c ≠ '/' := fun hc => h (hc ▸ List.mem_cons_self)
      have hrest : Text.splitSlash rest = [rest] := ih fun hr => h (List.mem_cons_of_mem c hr)
      rw [Text.splitSlash, if_neg hc, hrest]

namespace Pointer

/-- The characters of the pointer of a name. -/
theorem toList_ofField (name : String) :
    (ofField name).toList = '/' :: escapeChars name.toList := by
  simp [ofField, escape]

/-- **The pointer of a name is the path of that one name.** -/
theorem tokens?_ofField (name : String) : tokens? (ofField name) = some [name] := by
  have hsplit : Text.splitSlash (escapeChars name.toList) = [escapeChars name.toList] :=
    Text.splitSlash_of_slash_notMem (slash_notMem_escapeChars name.toList)
  rw [tokens?, toList_ofField]
  simp [hsplit, unescapeChars_escapeChars]

/-- The owner of a pointer is its first token. -/
theorem owner_eq_of_tokens? {pointer : String} {path : List String}
    (h : tokens? pointer = some path) : owner pointer = path.headD "" := by
  unfold tokens? at h
  unfold owner
  split at h
  · rename_i hnil
    cases h
    simp [hnil, Text.splitSlash]
  · rename_i rest hslash
    cases h
    rw [hslash, Text.splitSlash, if_pos rfl, List.getElem?_cons_succ]
    cases Text.splitSlash rest with
    | nil => rfl
    | cons token tokens => rfl
  · cases h

end Pointer

/-! ## Fields -/

namespace Json

theorem resolve?_ofField (fields : Fields) (name : String) :
    (Json.object fields).resolve? (Pointer.ofField name) = fields.get? name := by
  rw [resolve?, Pointer.tokens?_ofField]
  show ((Json.object fields).child? name).bind (descend? · []) = fields.get? name
  cases h : fields.get? name with
  | none => simp [child?, h]
  | some value => simp [child?, h, descend?]

/-- The value that is found for a key stands in a field. -/
theorem Fields.mem_of_get? {fields : Fields} {key : String} {value : Json}
    (h : fields.get? key = some value) : (key, value) ∈ fields := by
  induction fields with
  | nil => simp [get?] at h
  | cons field rest ih =>
      obtain ⟨k, v⟩ := field
      rw [get?, List.lookup_cons] at h
      split at h
      · rename_i hk
        have hkey : key = k := by simpa using hk
        cases h
        exact hkey ▸ List.mem_cons_self
      · exact List.mem_cons_of_mem _ (ih h)

/-- If no key is repeated, the value of a field is the one that is found for its key. -/
theorem Fields.get?_of_mem {fields : Fields} {key : String} {value : Json}
    (hkeys : fields.keys.Nodup) (h : (key, value) ∈ fields) : fields.get? key = some value := by
  induction fields with
  | nil => simp at h
  | cons field rest ih =>
      obtain ⟨k, v⟩ := field
      have hk : k ∉ Fields.keys rest := (List.nodup_cons.mp hkeys).1
      have hrest : (Fields.keys rest).Nodup := (List.nodup_cons.mp hkeys).2
      rw [get?, List.lookup_cons]
      rcases List.mem_cons.mp h with heq | hmem
      · cases heq
        simp
      · have hne : (key == k) = false := by
          refine beq_eq_false_iff_ne.mpr fun heq => hk ?_
          exact heq ▸ List.mem_map_of_mem hmem
        rw [hne]
        exact ih hrest hmem

/-- A key is there if something is found for it. -/
theorem Fields.exists_get?_iff {fields : Fields} {key : String} :
    (∃ value, fields.get? key = some value) ↔ key ∈ fields.keys := by
  constructor
  · rintro ⟨value, hvalue⟩
    exact List.mem_map_of_mem (mem_of_get? hvalue)
  · intro hkey
    refine Option.ne_none_iff_exists'.mp fun hnone => ?_
    obtain ⟨field, hfield, rfl⟩ := List.mem_map.mp hkey
    have hne := List.lookup_eq_none_iff.mp hnone field hfield
    simp at hne

/-- If no key is repeated, the order of the fields does not matter to what is found. -/
theorem Fields.get?_of_perm {fields others : Fields} (hkeys : fields.keys.Nodup)
    (h : fields.Perm others) (key : String) : others.get? key = fields.get? key := by
  have hkeys' : others.keys.Nodup := (h.map Prod.fst).nodup_iff.mp hkeys
  refine Option.ext fun value => ?_
  constructor
  · intro hvalue
    exact get?_of_mem hkeys (h.mem_iff.mpr (mem_of_get? hvalue))
  · intro hvalue
    exact get?_of_mem hkeys' (h.mem_iff.mp (mem_of_get? hvalue))

end Json

/-- What is composable is a body. -/
theorem Composition.exists_body_of_isComposable {value : Json}
    (h : Composition.isComposable value = true) :
    ∃ body, Composition.ofJson? value = some body := by
  cases value with
  | object fields => exact ⟨Composition.ofFields fields, rfl⟩
  | null => cases h
  | bool => cases h
  | number => cases h
  | string => cases h
  | array => cases h

/-! ## Definitions -/

namespace Document

/-- A pointer passes for a definition if some definition has it. -/
theorem isDefinition_iff {document : Document} {pointer : String} :
    document.isDefinition pointer = true
      ↔ ∃ definition ∈ document.definitions, pointer = definition.pointer := by
  rw [isDefinition, List.any_eq_true]
  constructor
  · rintro ⟨definition, hmem, heq⟩
    exact ⟨definition, hmem, (beq_iff_eq.mp heq).symm⟩
  · rintro ⟨definition, hmem, rfl⟩
    exact ⟨definition, hmem, beq_iff_eq.mpr rfl⟩

/-- The body that a pointer addresses, if it addresses an object. No fragment mark is dropped. -/
def bodyAt? (document : Document) (pointer : String) : Option Composition :=
  (document.root.resolve? pointer).bind Composition.ofJson?

/-- A document holds the fields of the value that it was read from. -/
theorem root_eq_of_ofJson {value : Json} {document : Document}
    (hread : Document.ofJson value = .ok document) :
    value = document.root ∧ readDefinitions document.fields = .ok document.definitions := by
  cases value with
  | object fields =>
      simp only [ofJson] at hread
      split at hread
      · cases hread
      · rename_i definitions hd
        cases hread
        exact ⟨rfl, hd⟩
  | null => cases hread
  | bool => cases hread
  | number => cases hread
  | string => cases hread
  | array => cases hread

/-- **Definitions are read from the fields one by one**, in the same order. -/
theorem map_readDefinition_eq {fields : Json.Fields} {definitions : List Definition}
    (h : readDefinitions fields = .ok definitions) :
    fields.map readDefinition = definitions.map Except.ok := by
  induction fields generalizing definitions with
  | nil =>
      cases h
      rfl
  | cons field rest ih =>
      simp only [readDefinitions] at h
      split at h
      · cases h
      · rename_i definition hfield
        split at h
        · cases h
        · rename_i definitions' hrest
          cases h
          rw [List.map_cons, List.map_cons, hfield, ih hrest]

theorem readDefinition_eq_ok {field : String × Json} {definition : Definition}
    (h : readDefinition field = .ok definition) :
    definition.name = field.1 ∧ definition.pointer = Pointer.ofField field.1 ∧
      Composition.ofJson? field.2 = some definition.body := by
  simp only [readDefinition] at h
  split at h
  · rename_i body hbody
    cases h
    exact ⟨rfl, rfl, hbody⟩
  · cases h

section Read

variable {value : Json} {document : Document} (hread : Document.ofJson value = .ok document)

include hread

/-- Every definition was read from a field of its name. -/
theorem exists_field_of_mem {definition : Definition} (h : definition ∈ document.definitions) :
    ∃ part, (definition.name, part) ∈ document.fields ∧
      definition.pointer = Pointer.ofField definition.name ∧
      Composition.ofJson? part = some definition.body := by
  have hall := map_readDefinition_eq (root_eq_of_ofJson hread).2
  have hok : Except.ok definition ∈ document.fields.map readDefinition := by
    rw [hall]
    exact List.mem_map_of_mem h
  obtain ⟨field, hfield, hdef⟩ := List.mem_map.mp hok
  obtain ⟨hname, hpointer, hbody⟩ := readDefinition_eq_ok hdef
  rw [hname]
  exact ⟨field.2, hfield, hpointer, hbody⟩

/-- Every field of a document is a body. -/
theorem exists_body_of_field {key : String} {part : Json} (h : (key, part) ∈ document.fields) :
    ∃ body, Composition.ofJson? part = some body := by
  have hall := map_readDefinition_eq (root_eq_of_ofJson hread).2
  have hmem : readDefinition (key, part) ∈ document.definitions.map Except.ok := by
    rw [← hall]
    exact List.mem_map_of_mem h
  obtain ⟨definition, _, hdef⟩ := List.mem_map.mp hmem
  exact ⟨definition.body, (readDefinition_eq_ok hdef.symm).2.2⟩

/-- A pointer passes for a definition if it is the pointer of a field's name. -/
theorem exists_name_of_isDefinition {pointer : String} (h : document.isDefinition pointer) :
    ∃ name, pointer = Pointer.ofField name := by
  obtain ⟨definition, hmem, heq⟩ := isDefinition_iff.mp h
  obtain ⟨_, _, hpointer, _⟩ := exists_field_of_mem hread hmem
  exact ⟨definition.name, heq.trans hpointer⟩

/-- **What the pointer of a definition addresses is a body.** -/
theorem exists_body_of_isDefinition {pointer : String} {part : Json}
    (h : document.isDefinition pointer) (hpart : document.root.resolve? pointer = some part) :
    ∃ body, Composition.ofJson? part = some body := by
  obtain ⟨name, rfl⟩ := exists_name_of_isDefinition hread h
  rw [root, Json.resolve?_ofField] at hpart
  exact exists_body_of_field hread (Json.Fields.mem_of_get? hpart)

/-- What passes for a target of references, as a definition or as composable, is a body. -/
theorem exists_body_of_accepted {pointer : String} {part : Json}
    (hpart : document.root.resolve? pointer = some part)
    (hok : document.isDefinition pointer = true ∨ Composition.isComposable part = true) :
    ∃ body, Composition.ofJson? part = some body := by
  rcases hok with hdefinition | hcomposable
  · exact exists_body_of_isDefinition hread hdefinition hpart
  · exact Composition.exists_body_of_isComposable hcomposable

/-- The pointer of a definition is the path of its name. -/
theorem tokens?_pointer {definition : Definition} (h : definition ∈ document.definitions) :
    Pointer.tokens? definition.pointer = some [definition.name] := by
  obtain ⟨_, _, hpointer, _⟩ := exists_field_of_mem hread h
  rw [hpointer, Pointer.tokens?_ofField]

/-- The definitions carry the keys of the document as their names, in the same order. -/
theorem map_name_eq_keys : document.definitions.map Definition.name = document.fields.keys := by
  have hall := map_readDefinition_eq (root_eq_of_ofJson hread).2
  generalize document.fields = fields, document.definitions = definitions at hall
  induction fields generalizing definitions with
  | nil =>
      rw [List.map_eq_nil_iff.mp hall.symm]
      rfl
  | cons field rest ih =>
      cases definitions with
      | nil => cases hall
      | cons definition definitions =>
          obtain ⟨hfield, hrest⟩ := List.cons.inj hall
          rw [List.map_cons, (readDefinition_eq_ok hfield).1, ih definitions hrest]
          rfl

/-- The keys of a document are distinct, if the value that was read repeats none. -/
theorem nodup_keys (hkeys : value.UniqueKeys) : document.fields.keys.Nodup := by
  rw [(root_eq_of_ofJson hread).1, root, Json.UniqueKeys] at hkeys
  exact hkeys.1

/-- The names of the definitions are distinct, if the value that was read repeats no key. -/
theorem nodup_names (hkeys : value.UniqueKeys) :
    (document.definitions.map Definition.name).Nodup := by
  rw [map_name_eq_keys hread]
  exact nodup_keys hread hkeys

/-- A definition is known by its pointer, if the value that was read repeats no key. -/
theorem eq_of_pointer_eq (hkeys : value.UniqueKeys) {first second : Definition}
    (hfirst : first ∈ document.definitions) (hsecond : second ∈ document.definitions)
    (h : first.pointer = second.pointer) : first = second := by
  have htokens : some [first.name] = some [second.name] := by
    rw [← tokens?_pointer hread hfirst, ← tokens?_pointer hread hsecond, h]
  refine List.inj_on_of_nodup_map (nodup_names hread hkeys) hfirst hsecond ?_
  simpa using htokens

/-- **The pointer of a definition addresses its body**, if the value that was read repeats no
key. -/
theorem bodyAt?_pointer (hkeys : value.UniqueKeys) {definition : Definition}
    (h : definition ∈ document.definitions) :
    document.bodyAt? definition.pointer = some definition.body := by
  obtain ⟨part, hpart, hpointer, hbody⟩ := exists_field_of_mem hread h
  rw [bodyAt?, hpointer, root, Json.resolve?_ofField,
    Json.Fields.get?_of_mem (nodup_keys hread hkeys) hpart]
  exact hbody

end Read

end Document

end SchemaHeader

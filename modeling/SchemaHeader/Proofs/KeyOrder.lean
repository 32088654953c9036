import SchemaHeader.Json.Reader.UniqueKeys
import SchemaHeader.Proofs.FullSinks
import SchemaHeader.Proofs.LikeDocuments
import SchemaHeader.Proofs.PointerPaths
import Mathlib.Data.Option.Basic

set_option autoImplicit false

/-! # The order of keys

Of the objects of a document two kinds are gone through in order, the document itself and the
values of `properties` keys. All others are asked for single keys, and **an object that is asked for
single keys does not show the order in which it was written**.

* `Json.Reordered`: two values that differ in the order of keys only, and not in that of the values
  of `properties` keys.
* `Json.Reordered.resolve?`: a pointer leads to values that differ in the same way.
* `Composition.alike_ofFields`, `Document.alike_ofJson`: read, such values are alike.
* `Compilation.compile_of_reordered`: **runs over such documents write the same and report the
  same**; `Compilation.compileText_of_reordered` says so of texts.
-/

namespace SchemaHeader

/-! ## Reordered values -/

namespace Json

/-- Both values have the same keys in the same order, or both are no objects. -/
def SameKeys (first second : Json) : Prop :=
  first.fields?.map Fields.keys = second.fields?.map Fields.keys

/-- **The values differ in the order of keys only**, at any depth, and the values of `properties`
keys have theirs in the same order. -/
inductive Reordered : Json → Json → Prop where
  | same {value : Json} : Reordered value value
  | array {items others : List Json} (hlength : items.length = others.length)
      (hitems : ∀ (i : Nat) (item other : Json), items[i]? = some item → others[i]? = some other →
        Reordered item other) : Reordered (.array items) (.array others)
  | object {fields others : Fields} (hkeys : fields.keys.Perm others.keys)
      (hvalues : ∀ (key : String) (value other : Json), fields.get? key = some value →
        others.get? key = some other → Reordered value other)
      (hproperties : ∀ value other : Json, fields.get? "properties" = some value →
        others.get? "properties" = some other → value.SameKeys other) :
      Reordered (.object fields) (.object others)

namespace Reordered

/-- An object is a reordering of the same fields in another order. -/
theorem of_perm {fields others : Fields} (hkeys : fields.keys.Nodup) (h : fields.Perm others) :
    (Json.object fields).Reordered (.object others) := by
  refine .object (h.map Prod.fst) (fun key value other hvalue hother => ?_)
    fun value other hvalue hother => ?_
  · rw [Fields.get?_of_perm hkeys h, hvalue] at hother
    cases hother
    exact .same
  · rw [Fields.get?_of_perm hkeys h, hvalue] at hother
    cases hother
    rfl

theorem kind_eq {first second : Json} (h : first.Reordered second) : first.kind = second.kind := by
  cases h <;> rfl

theorem label?_eq {first second : Json} (h : first.Reordered second) :
    first.label? = second.label? := by
  cases h <;> rfl

theorem string?_eq {first second : Json} (h : first.Reordered second) :
    first.string? = second.string? := by
  cases h <;> rfl

theorem rel_same (found : Option Json) : Option.Rel Reordered found found := by
  cases found with
  | none => exact .none
  | some => exact .some .same

/-! ## Parts -/

/-- The items of a reordered array, one by one. -/
theorem items {items others : List Json} (h : (Json.array items).Reordered (.array others)) :
    List.Forall₂ Reordered items others := by
  cases h with
  | same => exact List.forall₂_same.mpr fun _ _ => .same
  | array hlength hitems =>
      refine List.forall₂_iff_get.mpr ⟨hlength, fun i hi hi' => hitems i _ _ ?_ ?_⟩
      · exact List.getElem?_eq_getElem hi
      · exact List.getElem?_eq_getElem hi'

/-- **What is found under a key of a reordered object** differs in the same way. -/
theorem get? {fields others : Fields} (h : (Json.object fields).Reordered (.object others))
    (key : String) : Option.Rel Reordered (fields.get? key) (others.get? key) := by
  cases h with
  | same => exact rel_same _
  | object hkeys hvalues _ =>
      -- A key is found in both objects or in neither.
      have hmem : (∃ value, fields.get? key = some value)
          ↔ ∃ other, others.get? key = some other := by
        rw [Fields.exists_get?_iff, Fields.exists_get?_iff, hkeys.mem_iff]
      cases hvalue : fields.get? key with
      | none =>
          cases hother : others.get? key with
          | none => exact .none
          | some other =>
              obtain ⟨value, hsome⟩ := hmem.mpr ⟨other, hother⟩
              rw [hvalue] at hsome
              cases hsome
      | some value =>
          obtain ⟨other, hother⟩ := hmem.mp ⟨value, hvalue⟩
          rw [hother]
          exact .some (hvalues key value other hvalue hother)

theorem sameKeys_properties {fields others : Fields}
    (h : (Json.object fields).Reordered (.object others)) {value other : Json}
    (hvalue : fields.get? "properties" = some value)
    (hother : others.get? "properties" = some other) : value.SameKeys other := by
  cases h with
  | same =>
      rw [hvalue] at hother
      cases hother
      rfl
  | object _ _ hproperties => exact hproperties value other hvalue hother

theorem has_eq {fields others : Fields} (h : (Json.object fields).Reordered (.object others))
    (key : String) : fields.has key = others.has key := by
  have hrel := h.get? key
  rw [Fields.has, Fields.has]
  generalize fields.get? key = found, others.get? key = found' at hrel
  cases hrel with
  | none => rfl
  | some => rfl

/-- Fields with the same keys in the same order differ one by one. -/
theorem fields {fields others : Fields} (h : (Json.object fields).Reordered (.object others))
    (hdistinct : fields.keys.Nodup) (hsame : fields.keys = others.keys) :
    List.Forall₂ (fun field other => field.1 = other.1 ∧ field.2.Reordered other.2) fields
      others := by
  cases h with
  | same => exact List.forall₂_same.mpr fun _ _ => ⟨rfl, .same⟩
  | object _ hvalues _ =>
      have hlength : fields.length = others.length := by
        simpa [Fields.keys] using congrArg List.length hsame
      refine List.forall₂_iff_get.mpr ⟨hlength, fun i hi hi' => ?_⟩
      have hkey : (fields.get ⟨i, hi⟩).1 = (others.get ⟨i, hi'⟩).1 := by
        have hitem := congrArg (·[i]?) hsame
        simpa [Fields.keys, hi, hi'] using hitem
      -- No other field has the key of this position, so the look-ups lead back to it.
      refine ⟨hkey, hvalues (fields.get ⟨i, hi⟩).1 _ _ ?_ ?_⟩
      · exact Fields.get?_of_mem hdistinct (List.get_mem fields ⟨i, hi⟩)
      · rw [hkey]
        exact Fields.get?_of_mem (hsame ▸ hdistinct) (List.get_mem others ⟨i, hi'⟩)

theorem child? {first second : Json} (h : first.Reordered second) (token : String) :
    Option.Rel Reordered (first.child? token) (second.child? token) := by
  cases h with
  | same => exact rel_same _
  | @array items others hlength hitems =>
      rw [Json.child?, Json.child?]
      cases Pointer.index? token with
      | none => exact .none
      | some i =>
          show Option.Rel Reordered items[i]? others[i]?
          cases hitem : items[i]? with
          | none =>
              rw [List.getElem?_eq_none (hlength ▸ List.getElem?_eq_none_iff.mp hitem)]
              exact .none
          | some item =>
              have hi : i < others.length := hlength ▸ (List.getElem?_eq_some_iff.mp hitem).1
              rw [List.getElem?_eq_getElem hi]
              exact .some (hitems i item _ hitem (List.getElem?_eq_getElem hi))
  | object hkeys hvalues hproperties =>
      exact (Reordered.object hkeys hvalues hproperties).get? token

theorem descend? {first second : Json} (h : first.Reordered second) (path : List String) :
    Option.Rel Reordered (first.descend? path) (second.descend? path) := by
  induction path generalizing first second with
  | nil => exact .some h
  | cons token path ih =>
      have hchild := h.child? token
      rw [Json.descend?, Json.descend?]
      generalize first.child? token = part, second.child? token = part' at hchild
      cases hchild with
      | none => exact .none
      | some hpart => exact ih hpart

/-- **A pointer leads to values that differ in the same way**, or to nothing in both. -/
theorem resolve? {first second : Json} (h : first.Reordered second) (pointer : String) :
    Option.Rel Reordered (first.resolve? pointer) (second.resolve? pointer) := by
  rw [Json.resolve?, Json.resolve?]
  cases Pointer.tokens? pointer with
  | none => exact .none
  | some path => exact h.descend? path

end Reordered

end Json

/-! ## Enum keys -/

namespace EnumSpec

theorem itemIssues_eq {items others : List Json} (h : List.Forall₂ Json.Reordered items others)
    (key : String) (index : Nat) : itemIssues key index items = itemIssues key index others := by
  induction h generalizing index with
  | nil => rfl
  | cons hitem _ ih => rw [itemIssues, itemIssues, hitem.label?_eq, hitem.kind_eq, ih]

section Fields

variable {fields others : Json.Fields} (h : (Json.object fields).Reordered (.object others))

include h

theorem labels_eq (key : String) :
    (items fields key).map Json.label? = (items others key).map Json.label? := by
  have hrel := h.get? key
  unfold items
  generalize fields.get? key = found, others.get? key = found' at hrel
  cases hrel with
  | none => rfl
  | some hvalue =>
      cases hvalue with
      | array hlength hitems =>
          exact map_eq_map_of_forall₂ (Json.Reordered.array hlength hitems).items
            fun _ _ hitem => hitem.label?_eq
      | same => rfl
      | object => rfl

theorem keyIssues_eq (key : String) : keyIssues fields key = keyIssues others key := by
  have hrel := h.get? key
  unfold keyIssues
  generalize fields.get? key = found, others.get? key = found' at hrel
  cases hrel with
  | none => rfl
  | some hvalue =>
      cases hvalue with
      | array hlength hitems =>
          exact itemIssues_eq (Json.Reordered.array hlength hitems).items key 0
      | same => rfl
      | object => rfl

theorem ofFields?_eq : ofFields? fields = ofFields? others := by
  simp only [ofFields?, h.has_eq, List.map_append, labels_eq h, keyIssues_eq h]

end Fields

/-- The enum keys of a reordered schema are the same. -/
theorem ofJson?_eq {first second : Json} (h : first.Reordered second) :
    ofJson? first = ofJson? second := by
  cases h with
  | object hkeys hvalues hproperties => exact ofFields?_eq (.object hkeys hvalues hproperties)
  | same => rfl
  | array => rfl

end EnumSpec

/-! ## Bodies -/

section Bodies

variable {fields others : Json.Fields} (hkeys : (Json.object fields).UniqueKeys)
  (h : (Json.object fields).Reordered (.object others))

include h

/-- The required names of a reordered set are the same. -/
theorem InlineSchema.required_eq (location : String) :
    (ofFields fields location).required = (ofFields others location).required := by
  have hrel := h.get? "required"
  unfold ofFields
  simp only
  generalize fields.get? "required" = found, others.get? "required" = found' at hrel
  cases hrel with
  | none => rfl
  | some hvalue =>
      cases hvalue with
      | array hlength hitems =>
          have hnames := map_eq_map_of_forall₂ (Json.Reordered.array hlength hitems).items
            fun _ _ hitem => hitem.string?_eq
          have hlist := congrArg (List.filterMap id) hnames
          rwa [List.filterMap_map, List.filterMap_map] at hlist
      | same => rfl
      | object => rfl

include hkeys

/-- **The properties of a reordered set are alike one by one**, because their keys are in the same
order. -/
theorem InlineSchema.alike_properties (location : String) :
    List.Forall₂ (Property.Alike Json.Reordered) (ofFields fields location).properties
      (ofFields others location).properties := by
  have hrel := h.get? "properties"
  have hsame := @Json.Reordered.sameKeys_properties _ _ h
  have hunique : ∀ value, fields.get? "properties" = some value → value.UniqueKeys :=
    fun _ hvalue => hkeys.child hvalue
  unfold ofFields
  simp only
  generalize fields.get? "properties" = found, others.get? "properties" = found'
    at hrel hsame hunique
  cases hrel with
  | none => exact .nil
  | some hvalue =>
      have hnames := hsame rfl rfl
      have hdistinct := hunique _ rfl
      cases hvalue with
      | object hkeys hvalues hproperties =>
          have hfields := (Json.Reordered.object hkeys hvalues hproperties).fields
            ((Json.uniqueKeys_object _).mp hdistinct).1 (Option.some.inj hnames)
          refine List.forall₂_map_left_iff.mpr (List.forall₂_map_right_iff.mpr ?_)
          exact hfields.imp fun field other hfield =>
            ⟨hfield.1, hfield.2, EnumSpec.ofJson?_eq hfield.2⟩
      | same =>
          exact List.forall₂_same.mpr fun property _ => property.alike_refl fun _ => .same
      | array => exact .nil

end Bodies

/-- A reordered member is the same member, with properties that are alike. -/
theorem Member.alike_ofJson {first second : Json} (hkeys : first.UniqueKeys)
    (h : first.Reordered second) (location : String) :
    (Member.ofJson first location).Alike Json.Reordered (Member.ofJson second location) := by
  cases h with
  | @object fields others hperm hvalues hproperties =>
      have hfields := Json.Reordered.object hperm hvalues hproperties
      have hlocation : (InlineSchema.ofFields fields location).location
          = (InlineSchema.ofFields others location).location := rfl
      have hinline := Member.Alike.inline hlocation
        (InlineSchema.alike_properties hkeys hfields location)
        (InlineSchema.required_eq hfields location)
      have hrel := hfields.get? "$ref"
      unfold Member.ofJson
      simp only
      generalize fields.get? "$ref" = found, others.get? "$ref" = found' at hrel
      cases hrel with
      | none => exact hinline
      | @some value _ hvalue =>
          cases hvalue with
          | same =>
              cases value with
              | string => exact .reference
              | null => exact .malformed
              | bool => exact .malformed
              | number => exact .malformed
              | array => exact .malformed
              | object => exact .malformed
          | array => exact .malformed
          | object => exact .malformed
  | same => exact Member.alike_refl (fun _ => .same) _
  | array => exact .malformed

namespace Composition

theorem alike_ofItems {items others : List Json} (h : List.Forall₂ Json.Reordered items others)
    (hkeys : ∀ item ∈ items, item.UniqueKeys) (key : String) (index : Nat) :
    List.Forall₂ (Member.Alike Json.Reordered) (ofItems key index items)
      (ofItems key index others) := by
  induction h generalizing index with
  | nil => exact .nil
  | cons hitem _ ih =>
      refine .cons (Member.alike_ofJson (hkeys _ List.mem_cons_self) hitem _) (ih ?_ (index + 1))
      exact fun item hmem => hkeys item (List.mem_cons_of_mem _ hmem)

section Fields

variable {fields others : Json.Fields} (hkeys : (Json.object fields).UniqueKeys)
  (h : (Json.object fields).Reordered (.object others))

include hkeys h

theorem alike_ofKey (key : String) :
    List.Forall₂ (Member.Alike Json.Reordered) (ofKey fields key) (ofKey others key) := by
  have hrel := h.get? key
  have hunique : ∀ value, fields.get? key = some value → value.UniqueKeys :=
    fun _ hvalue => hkeys.child hvalue
  unfold ofKey
  generalize fields.get? key = found, others.get? key = found' at hrel hunique
  cases hrel with
  | none => exact .nil
  | some hvalue =>
      have hitems := hunique _ rfl
      cases hvalue with
      | array hlength hrelated =>
          exact alike_ofItems (Json.Reordered.array hlength hrelated).items
            ((Json.uniqueKeysItems_iff _).mp hitems) key 0
      | same => exact List.forall₂_same.mpr fun member _ => member.alike_refl fun _ => .same
      | object => exact .cons .malformed .nil

/-- **A reordered body has the same members**, one by one. -/
theorem alike_ofFields : (ofFields fields).Alike Json.Reordered (ofFields others) := by
  unfold ofFields
  rw [h.has_eq, h.has_eq, h.has_eq, h.has_eq]
  split
  · exact List.rel_append (alike_ofKey hkeys h "allof") (alike_ofKey hkeys h "allOf")
  · split
    · exact .cons (Member.alike_ofJson hkeys h "") .nil
    · exact .nil

end Fields

theorem alike_ofJson? {first second : Json} (hkeys : first.UniqueKeys)
    (h : first.Reordered second) :
    Option.Rel (Composition.Alike Json.Reordered) (ofJson? first) (ofJson? second) := by
  cases h with
  | object hperm hvalues hproperties =>
      exact .some (alike_ofFields hkeys (.object hperm hvalues hproperties))
  | same =>
      cases ofJson? first with
      | none => exact .none
      | some body => exact .some (body.alike_refl fun _ => .same)
  | array => exact .none

theorem isComposable_eq {first second : Json} (h : first.Reordered second) :
    isComposable first = isComposable second := by
  cases h with
  | object hperm hvalues hproperties =>
      have hhas := (Json.Reordered.object hperm hvalues hproperties).has_eq
      unfold isComposable
      simp only
      rw [funext hhas]
  | same => rfl
  | array => rfl

end Composition

/-! ## Documents -/

namespace Document

/-- Fields that differ one by one are read as definitions that are alike, or stop at the same
error. -/
theorem alike_readDefinitions {fields others : Json.Fields}
    (h : List.Forall₂ (fun field other => field.1 = other.1 ∧ field.2.Reordered other.2) fields
      others) (hkeys : ∀ field ∈ fields, field.2.UniqueKeys) :
    (∃ error, readDefinitions fields = .error error ∧ readDefinitions others = .error error) ∨
    ∃ definitions definitions', readDefinitions fields = .ok definitions ∧
      readDefinitions others = .ok definitions' ∧
      List.Forall₂ (Definition.Alike Json.Reordered) definitions definitions' := by
  induction h with
  | nil => exact Or.inr ⟨[], [], rfl, rfl, .nil⟩
  | @cons field other _ _ hfield _ ih =>
      obtain ⟨hname, hvalue⟩ := hfield
      have hbody := Composition.alike_ofJson? (hkeys _ List.mem_cons_self) hvalue
      have hrest := ih fun field hmem => hkeys field (List.mem_cons_of_mem _ hmem)
      simp only [readDefinitions, readDefinition]
      rw [← hname, ← hvalue.kind_eq]
      generalize Composition.ofJson? field.2 = read, Composition.ofJson? other.2 = read' at hbody
      cases hbody with
      | none => exact Or.inl ⟨_, rfl, rfl⟩
      | @some body body' halike =>
          rcases hrest with ⟨error, herror, herror'⟩ | ⟨rest, rest', hread, hread', hlist⟩
          · refine Or.inl ⟨error, ?_, ?_⟩
            · rw [herror]
            · rw [herror']
          · have hhead : Definition.Alike Json.Reordered
                ⟨field.1, Pointer.ofField field.1, body⟩
                ⟨field.1, Pointer.ofField field.1, body'⟩ := ⟨rfl, rfl, halike⟩
            refine Or.inr ⟨_ :: rest, _ :: rest', ?_, ?_, .cons hhead hlist⟩
            · rw [hread]
            · rw [hread']

/-- **Documents that differ in the order of nested keys** are both read, as definitions that are
alike, or both refused for the same reason. -/
theorem alike_ofJson {first second : Json} (hkeys : first.UniqueKeys) (h : first.Reordered second)
    (hsame : first.SameKeys second) :
    (∃ error, Document.ofJson first = .error error ∧ Document.ofJson second = .error error) ∨
    ∃ document other, Document.ofJson first = .ok document ∧ Document.ofJson second = .ok other ∧
      List.Forall₂ (Definition.Alike Json.Reordered) document.definitions other.definitions := by
  cases h with
  | @object fields others hperm hvalues hproperties =>
      obtain ⟨hdistinct, hunique⟩ := (Json.uniqueKeys_object _).mp hkeys
      have hfields := (Json.Reordered.object hperm hvalues hproperties).fields hdistinct
        (Option.some.inj hsame)
      simp only [ofJson]
      rcases alike_readDefinitions hfields hunique with
        ⟨error, herror, herror'⟩ | ⟨definitions, definitions', hread, hread', halike⟩
      · refine Or.inl ⟨error, ?_, ?_⟩
        · rw [herror]
        · rw [herror']
      · refine Or.inr ⟨⟨fields, definitions⟩, ⟨others, definitions'⟩, ?_, ?_, halike⟩
        · rw [hread]
        · rw [hread']
  | same =>
      cases hread : Document.ofJson first with
      | error error => exact Or.inl ⟨error, rfl, rfl⟩
      | ok document =>
          refine Or.inr ⟨document, document, rfl, rfl, List.forall₂_same.mpr fun start _ => ?_⟩
          exact start.alike_refl fun _ => .same
  | array => exact Or.inl ⟨_, rfl, rfl⟩

theorem isDefinition_eq {first second : Document}
    (h : List.Forall₂ (Definition.Alike Json.Reordered) first.definitions second.definitions)
    (pointer : String) : first.isDefinition pointer = second.isDefinition pointer := by
  have hpointers := map_eq_map_of_forall₂ h fun _ _ halike => halike.pointer
  have hany := congrArg (List.any · (· == pointer)) hpointers
  rwa [List.any_map, List.any_map] at hany

/-- A reference finds values that differ in the same way, or nothing in both documents. -/
theorem rel_lookup? {first second : Document} (h : first.root.Reordered second.root)
    (reference : String) :
    Option.Rel Json.Reordered (first.lookup? reference) (second.lookup? reference) :=
  h.resolve? (Pointer.canonical reference)

/-- **Reordered documents answer references alike.** -/
theorem answers_of_reordered {first second : Document} (hkeys : first.root.UniqueKeys)
    (h : first.root.Reordered second.root)
    (hdefinitions : List.Forall₂ (Definition.Alike Json.Reordered) first.definitions
      second.definitions) : first.Answers Json.Reordered (fun _ => True) second where
  includes := by
    rintro reference body ⟨part, hpart, hok, hbody⟩
    have hrel := rel_lookup? h reference
    rw [hpart] at hrel
    generalize hpart' : second.lookup? reference = found at hrel
    cases hrel with
    | @some _ part' hvalue =>
        have hbodies := Composition.alike_ofJson? (hkeys.resolve hpart) hvalue
        rw [hbody] at hbodies
        generalize hbody' : Composition.ofJson? part' = read at hbodies
        cases hbodies with
        | some halike =>
            rw [isDefinition_eq hdefinitions, Composition.isComposable_eq hvalue] at hok
            exact ⟨_, ⟨part', hpart', hok, hbody'⟩, halike⟩
  refused := by
    intro reference failure _ hrefused
    have hrel := rel_lookup? h reference
    generalize hpart' : second.lookup? reference = found at hrel
    cases hrefused with
    | notFound hnone =>
        rw [hnone] at hrel
        cases hrel
        exact .notFound hpart'
    | notComposable hpart hdefinition hcomposable =>
        rw [hpart] at hrel
        cases hrel with
        | some hvalue =>
            rw [isDefinition_eq hdefinitions] at hdefinition
            rw [Composition.isComposable_eq hvalue] at hcomposable
            rw [hvalue.kind_eq]
            exact .notComposable hpart' hdefinition hcomposable

end Document

/-! ## Runs -/

namespace Compilation

/-- The lines of a header, by its parts. -/
theorem headerLines_eq_append (document : Document) (layout : Layout) :
    headerLines document layout
      = layout.preamble ++ layout.forwardDeclarations 1 document.names
        ++ document.resolutions.flatMap (fun resolution => layout.enumTypes 1 resolution.enumTypes)
        ++ Layout.closing := by
  -- Of the stages of a definition only the last one writes.
  have hdefinition : ∀ resolution,
      (definitionStages layout resolution).flatMap Stage.lines
        = layout.enumTypes 1 resolution.enumTypes := by
    intro resolution
    simp [definitionStages, Stage.lines]
  rw [headerLines, stages, List.flatMap_append, List.flatMap_append, List.flatMap_assoc]
  simp only [hdefinition]
  simp [Stage.lines]

section Alike

variable {like : Json → Json → Prop} {first second : Document}
  (hresolutions : List.Forall₂ (Resolution.Alike like) first.resolutions second.resolutions)

include hresolutions

theorem flatMap_resolutions_eq {β : Type} {view : Resolution → List β}
    (hview : ∀ resolution other : Resolution, resolution.Alike like other →
      view resolution = view other) :
    first.resolutions.flatMap view = second.resolutions.flatMap view :=
  congrArg List.flatten (map_eq_map_of_forall₂ hresolutions hview)

/-- **Documents with the same names and like resolutions have the same header.** -/
theorem headerLines_eq_of_alike (hnames : first.names = second.names) (layout : Layout) :
    headerLines first layout = headerLines second layout := by
  have htypes := flatMap_resolutions_eq hresolutions fun resolution other halike =>
    congrArg (layout.enumTypes 1) halike.enumTypes_eq
  rw [headerLines_eq_append, headerLines_eq_append, hnames, htypes]

/-- **Documents with the same names and like resolutions have the same report.** -/
theorem finishedReport_eq_of_alike (hnames : first.names = second.names) :
    finishedReport first = finishedReport second := by
  have hnameDiagnostics : first.nameDiagnostics = second.nameDiagnostics := by
    have hall := congrArg (List.flatMap fun name => identifierDiagnostics name [name]) hnames
    rwa [Document.names, Document.names, List.flatMap_map, List.flatMap_map] at hall
  have hfound : found first = found second := by
    rw [found, found, hnameDiagnostics,
      flatMap_resolutions_eq hresolutions fun _ _ halike => halike.found_eq]
  have hsize : first.size = second.size := by
    simpa [Document.names, Document.size] using congrArg List.length hnames
  have henums : enumCount first.resolutions = enumCount second.resolutions := by
    rw [enumCount, enumCount,
      flatMap_resolutions_eq hresolutions fun _ _ halike => halike.enumTypes_eq]
  rw [finishedReport, finishedReport, hfound, hsize, henums]

end Alike

/-- **Runs over reordered documents are alike**: they leave the same bytes in any sink, and have the
same report. -/
theorem compile_eq_of_alike {value other : Json} {first second : Document}
    (hread : Document.ofJson value = .ok first) (hread' : Document.ofJson other = .ok second)
    (hkeys : value.UniqueKeys) (h : value.Reordered other)
    (hlist : List.Forall₂ (Definition.Alike Json.Reordered) first.definitions second.definitions)
    (layout : Layout) (sink : Sink) :
    (compile first layout sink).session.sink = (compile second layout sink).session.sink ∧
      (compile first layout sink).report = (compile second layout sink).report := by
  obtain rfl := (Document.root_eq_of_ofJson hread).1
  obtain rfl := (Document.root_eq_of_ofJson hread').1
  have hresolutions := Resolution.alike_resolutions hread hread'
    (Document.answers_of_reordered hkeys h hlist) (fun _ => trivial) hlist
  have hnames : first.names = second.names :=
    map_eq_map_of_forall₂ hlist fun _ _ halike => halike.name
  have hlines := headerLines_eq_of_alike hresolutions hnames layout
  constructor
  · rw [sink_compile, sink_compile, hlines]
  · rw [report_compile, report_compile, hlines, finishedReport_eq_of_alike hresolutions hnames]

/-- **Only the order of definitions and of properties shows.** Documents that differ in the order of
nested keys, but not in that of the values of `properties` keys, are refused for the same reason, or
runs over both leave the same bytes in any sink and have the same report. -/
theorem compile_of_reordered {first second : Json} (hkeys : first.UniqueKeys)
    (h : first.Reordered second) (hsame : first.SameKeys second) :
    (∃ error, Document.ofJson first = .error error ∧ Document.ofJson second = .error error) ∨
    ∃ document other, Document.ofJson first = .ok document ∧ Document.ofJson second = .ok other ∧
      ∀ layout sink,
        (compile document layout sink).session.sink = (compile other layout sink).session.sink ∧
        (compile document layout sink).report = (compile other layout sink).report := by
  rcases Document.alike_ofJson hkeys h hsame with hrefused | ⟨document, other, hread, hread', hlist⟩
  · exact Or.inl hrefused
  · exact Or.inr ⟨document, other, hread, hread', compile_eq_of_alike hread hread' hkeys h hlist⟩

/-- A body with its keys in one order. -/
def fuelBody : Json.Fields :=
  [("required", .array [.string "fuel"]),
    ("properties", .object [("fuel", .object [("enum", .array [.string "gas"])]),
      ("mass", .object [])])]

theorem reordered_fuelBody : (Json.object [("Car", .object fuelBody)]).Reordered
    (.object [("Car", .object fuelBody.reverse)]) := by
  have hbody : (Json.object fuelBody).Reordered (.object fuelBody.reverse) :=
    .of_perm (by decide) (List.reverse_perm fuelBody).symm
  refine .object (List.Perm.refl ["Car"]) (fun key value other hvalue hother => ?_)
    fun value other hvalue => ?_
  · cases List.mem_singleton.mp (Json.Fields.mem_of_get? hvalue)
    cases List.mem_singleton.mp (Json.Fields.mem_of_get? hother)
    exact hbody
  · have hkey : "properties" = "Car" :=
      congrArg Prod.fst (List.mem_singleton.mp (Json.Fields.mem_of_get? hvalue))
    exact absurd hkey (by decide)

/-- With the keys of the body in the other order, a run writes the same and reports the same: one
enum type, and no problem. -/
theorem compile_of_reordered_fuelBody :
    (Json.object [("Car", .object fuelBody)]).UniqueKeys ∧
      (Json.object [("Car", .object fuelBody)]).Reordered
        (.object [("Car", .object fuelBody.reverse)]) ∧
      (Json.object [("Car", .object fuelBody)]).SameKeys
        (.object [("Car", .object fuelBody.reverse)]) ∧
      ∃ document other,
        Document.ofJson (.object [("Car", .object fuelBody)]) = .ok document ∧
        Document.ofJson (.object [("Car", .object fuelBody.reverse)]) = .ok other ∧
        (∀ layout sink,
          (compile document layout sink).session.sink = (compile other layout sink).session.sink ∧
          (compile document layout sink).report = (compile other layout sink).report) ∧
        (compile other ⟨"data", [], 2⟩ (Sink.empty none)).report = some ⟨[], 1, 1⟩ ∧
        (compile other ⟨"data", [], 2⟩ (Sink.empty none)).session.sink.written
          = ("#pragma once\n\nnamespace data\n\x7b\n  class Car;\n"
            ++ "  enum class Car_fuel_kind\n  \x7b\n    gas,\n  \x7d;\n\x7d\n").toUTF8 := by
  have hkeys : (Json.object [("Car", .object fuelBody)]).UniqueKeys := by
    simp [fuelBody, Json.UniqueKeys, Json.UniqueKeysFields, Json.UniqueKeysItems]
  refine ⟨hkeys, reordered_fuelBody, rfl, ?_⟩
  rcases compile_of_reordered hkeys reordered_fuelBody rfl with
    ⟨error, herror, _⟩ | ⟨document, other, hread, hread', hruns⟩
  · cases herror
  refine ⟨document, other, hread, hread', hruns, ?_, ?_⟩
  · cases hread'
    rw [report_compile_empty]
    decide +kernel
  · cases hread'
    rw [written_compile_empty]
    decide +kernel

/-! ## Texts -/

/-- **Only the order of definitions and of properties shows in a text.** No object that was read
repeats a key, so nothing has to be asked of the keys of the texts. -/
theorem compileText_of_reordered {first second : String} {value other : Json}
    (hread : Json.read first = .ok value) (hread' : Json.read second = .ok other)
    (h : value.Reordered other) (hsame : value.SameKeys other) (layout : Layout) (sink : Sink) :
    (∃ error, compileText first layout sink = .error error ∧
      compileText second layout sink = .error error) ∨
    ∃ outcome outcome', compileText first layout sink = .ok outcome ∧
      compileText second layout sink = .ok outcome' ∧
      outcome.session.sink = outcome'.session.sink ∧ outcome.report = outcome'.report := by
  have hkeys : value.UniqueKeys := Json.uniqueKeys_of_read hread
  have hparse : Document.parse first = Document.ofJson value := by
    rw [Document.parse, hread]
  have hparse' : Document.parse second = Document.ofJson other := by
    rw [Document.parse, hread']
  rw [compileText, compileText, hparse, hparse']
  rcases Document.alike_ofJson hkeys h hsame with
    ⟨error, herror, herror'⟩ | ⟨document, document', hok, hok', hlist⟩
  · rw [herror, herror']
    exact Or.inl ⟨error, rfl, rfl⟩
  · rw [hok, hok']
    exact Or.inr ⟨_, _, rfl, rfl, compile_eq_of_alike hok hok' hkeys h hlist layout sink⟩

-- Two texts whose values are such a pair.
example :
    (Json.read "\x7b\"Car\": \x7b\"required\": [\"fuel\"], \"allof\": []\x7d\x7d").toOption
      = some (.object [("Car", .object [("required", .array [.string "fuel"]),
        ("allof", .array [])])]) ∧
    (Json.read "\x7b\"Car\": \x7b\"allof\": [], \"required\": [\"fuel\"]\x7d\x7d").toOption
      = some (.object [("Car", .object [("allof", .array []),
        ("required", .array [.string "fuel"])])]) := by
  decide +kernel

end Compilation

end SchemaHeader

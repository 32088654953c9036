import SchemaHeader.Compilation
import SchemaHeader.Proofs.Flattening

set_option autoImplicit false

/-! # Walks through two documents

Whatever a walk learns about a document it learns from the references that it follows: what one
stands for, or why it stands for nothing. **Two documents that answer all references alike cannot be
told apart by a walk**, whatever else is in them.

The schemas of properties are carried along and never looked into, so the likeness is stated over
any relation `like` between schemas: equality for documents that hold the same values, and a
weaker relation for documents whose values differ in ways that do not show.

* `Document.Answers`: the references that one document expands or refuses, another one does too.
* `Flattens.alike`: members that are alike come to results that are alike.
* `Resolution.Alike`: what two walks have found, compared by what a run makes of it
  (`Resolution.Alike.enumTypes_eq`, `Resolution.Alike.found_eq`).
* `Resolution.alike_resolve`, `Resolution.alike_resolutions`: **like definitions of like documents
  have like resolutions.**
-/

namespace SchemaHeader

/-! ## Likeness -/

section Likeness

variable (like : Json → Json → Prop)

/-- The same property, with a schema that is alike. -/
structure Property.Alike (first second : Property) : Prop where
  name : first.name = second.name
  schema : like first.schema second.schema
  enumSpec : first.enumSpec = second.enumSpec

/-- The same member, with properties that are alike. -/
inductive Member.Alike : Member → Member → Prop where
  | reference {pointer : String} : Alike (.reference pointer) (.reference pointer)
  | inline {first second : InlineSchema} (hlocation : first.location = second.location)
      (hproperties : List.Forall₂ (Property.Alike like) first.properties second.properties)
      (hrequired : first.required = second.required) : Alike (.inline first) (.inline second)
  | malformed {fault : MemberFault} : Alike (.malformed fault) (.malformed fault)

/-- The same members, one by one. -/
def Composition.Alike (first second : Composition) : Prop :=
  List.Forall₂ (Member.Alike like) first.members second.members

/-- The same definition, with a body that is alike. -/
structure Definition.Alike (first second : Definition) : Prop where
  name : first.name = second.name
  pointer : first.pointer = second.pointer
  body : first.body.Alike like second.body

/-- The same resolved property, with a schema that is alike. -/
structure ResolvedProperty.Alike (first second : ResolvedProperty) : Prop where
  property : first.property.Alike like second.property
  isRequired : first.isRequired = second.isRequired
  owner : first.owner = second.owner
  origin : first.origin = second.origin

/-- The same result, with properties that are alike one by one. -/
structure Flattened.Alike (first second : Flattened) : Prop where
  properties : List.Forall₂ (ResolvedProperty.Alike like) first.properties second.properties
  diagnostics : first.diagnostics = second.diagnostics

/-- **The second document answers references as the first one does**: it expands what the first one
expands, to a body that is alike, and refuses what the first one refuses with one of `failures`. -/
structure Document.Answers (failures : ReferenceFailure → Prop) (first second : Document) :
    Prop where
  includes : ∀ reference body, Includes first reference body →
    ∃ other, Includes second reference other ∧ body.Alike like other
  refused : ∀ reference failure, failures failure → Refused first reference failure →
    Refused second reference failure

end Likeness

variable {like : Json → Json → Prop}

section Refl

variable (hrefl : ∀ schema, like schema schema)

include hrefl

theorem Property.alike_refl (property : Property) : property.Alike like property :=
  ⟨rfl, hrefl property.schema, rfl⟩

theorem Member.alike_refl (member : Member) : member.Alike like member := by
  cases member with
  | reference => exact .reference
  | inline schema =>
      exact .inline rfl (List.forall₂_same.mpr fun property _ => property.alike_refl hrefl) rfl
  | malformed => exact .malformed

theorem Composition.alike_refl (body : Composition) : body.Alike like body :=
  List.forall₂_same.mpr fun member _ => member.alike_refl hrefl

theorem Definition.alike_refl (definition : Definition) : definition.Alike like definition :=
  ⟨rfl, rfl, definition.body.alike_refl hrefl⟩

end Refl

/-- Properties with equal schemas that are alike are the same. -/
theorem ResolvedProperty.eq_of_alike {first second : ResolvedProperty}
    (h : first.Alike Eq second) : first = second := by
  obtain ⟨⟨name, schema, enumSpec⟩, isRequired, owner, origin⟩ := first
  obtain ⟨⟨name', schema', enumSpec'⟩, isRequired', owner', origin'⟩ := second
  obtain ⟨⟨hname, hschema, henumSpec⟩, hrequired, howner, horigin⟩ := h
  cases hname
  cases hschema
  cases henumSpec
  cases hrequired
  cases howner
  cases horigin
  rfl

/-! ## Flattenings -/

namespace Flattened.Alike

theorem empty : Flattened.Alike like .empty .empty where
  properties := .nil
  diagnostics := rfl

theorem problem (diagnostic : Diagnostic) :
    Flattened.Alike like (.problem diagnostic) (.problem diagnostic) where
  properties := .nil
  diagnostics := rfl

theorem append {first second first' second' : Flattened} (h : first.Alike like first')
    (h' : second.Alike like second') : (first ++ second).Alike like (first' ++ second') where
  properties := List.rel_append h.properties h'.properties
  diagnostics := by
    rw [diagnostics_append, diagnostics_append, h.diagnostics, h'.diagnostics]

end Flattened.Alike

/-- Sets that are alike declare properties that are alike. -/
theorem alike_declared {pointer : String} {first second : InlineSchema}
    (hlocation : first.location = second.location)
    (hproperties : List.Forall₂ (Property.Alike like) first.properties second.properties)
    (hrequired : first.required = second.required) :
    List.Forall₂ (ResolvedProperty.Alike like) (declared pointer first)
      (declared pointer second) := by
  unfold declared
  refine List.forall₂_map_left_iff.mpr (List.forall₂_map_right_iff.mpr ?_)
  refine hproperties.imp fun property other halike => ?_
  exact ⟨halike, by rw [halike.name, hrequired], rfl, by rw [hlocation]⟩

section Flattens

variable {failures : ReferenceFailure → Prop} {first second : Document} {definition : String}
  (hanswers : first.Answers like failures second)

include hanswers

/-- A member that is settled where it stands is settled alike in the second document. -/
theorem Settles.alike {path : List String} {pointer : String} {member other : Member}
    {part : Flattened} (h : Settles first definition path pointer member part)
    (hmember : member.Alike like other)
    (hfailures : ∀ name reference failure, .reference name reference failure ∈ part.diagnostics →
      failures failure) :
    ∃ part', Settles second definition path pointer other part' ∧ part.Alike like part' := by
  cases h with
  | inline =>
      cases hmember with
      | inline hlocation hproperties hrequired =>
          exact ⟨_, .inline, alike_declared hlocation hproperties hrequired, rfl⟩
  | malformed =>
      cases hmember
      exact ⟨_, .malformed, .problem _⟩
  | cycle hon =>
      cases hmember
      exact ⟨_, .cycle hon, .problem _⟩
  | refused hoff hrefused =>
      cases hmember
      have hfailure := hfailures _ _ _ List.mem_cons_self
      exact ⟨_, .refused hoff (hanswers.refused _ _ hfailure hrefused), .problem _⟩

/-- **Members that are alike come to results that are alike**, as long as no failure is met on which
the documents may differ. -/
theorem Flattens.alike {path : List String} {pointer : String} {members others : List Member}
    {result : Flattened} (h : Flattens first definition path pointer members result)
    (hmembers : List.Forall₂ (Member.Alike like) members others)
    (hfailures : ∀ name reference failure,
      .reference name reference failure ∈ result.diagnostics → failures failure) :
    ∃ result', Flattens second definition path pointer others result' ∧
      result.Alike like result' := by
  induction h generalizing others with
  | done =>
      cases hmembers
      exact ⟨_, .done, .empty⟩
  | settle hmember _ ih =>
      obtain ⟨other, others, hother, hothers, rfl⟩ := List.forall₂_cons_left_iff.mp hmembers
      obtain ⟨part', hpart', hpart⟩ := hmember.alike hanswers hother fun name reference failure h =>
        hfailures name reference failure (List.mem_append_left _ h)
      obtain ⟨result', hresult', hresult⟩ := ih hothers fun name reference failure h =>
        hfailures name reference failure (List.mem_append_right _ h)
      exact ⟨_, .settle hpart' hresult', hpart.append hresult⟩
  | expand hoff hincludes _ _ ihinner ihrest =>
      obtain ⟨other, others, hother, hothers, rfl⟩ := List.forall₂_cons_left_iff.mp hmembers
      cases hother
      obtain ⟨body', hincludes', hbody⟩ := hanswers.includes _ _ hincludes
      obtain ⟨inner', hinner', hinner⟩ := ihinner hbody fun name reference failure h =>
        hfailures name reference failure (List.mem_append_left _ h)
      obtain ⟨result', hresult', hresult⟩ := ihrest hothers fun name reference failure h =>
        hfailures name reference failure (List.mem_append_right _ h)
      exact ⟨_, .expand hoff hincludes' hinner' hresult', hinner.append hresult⟩

end Flattens

/-! ## Resolutions -/

/-- Two lists that are related item by item look the same to functions that cannot tell related
items apart. -/
theorem map_eq_map_of_forall₂ {α β γ : Type} {r : α → β → Prop} {items : List α} {others : List β}
    {f : α → γ} {g : β → γ} (h : List.Forall₂ r items others)
    (hsame : ∀ item other, r item other → f item = g other) : items.map f = others.map g := by
  have heq : List.Forall₂ Eq (items.map f) (others.map g) :=
    List.forall₂_map_left_iff.mpr (List.forall₂_map_right_iff.mpr (h.imp hsame))
  rwa [List.forall₂_eq_eq_eq] at heq

namespace Resolution

/-- What two walks have found, compared as far as a run looks at it. -/
structure Alike (like : Json → Json → Prop) (first second : Resolution) : Prop where
  name : first.name = second.name
  properties : List.Forall₂ (ResolvedProperty.Alike like) first.properties second.properties
  diagnostics : first.diagnostics = second.diagnostics

namespace Alike

variable {first second : Resolution} (h : first.Alike like second)

include h

/-- Like resolutions have the same enum types. -/
theorem enumTypes_eq : first.enumTypes = second.enumTypes := by
  have htype : ∀ resolved other : ResolvedProperty, resolved.Alike like other →
      first.enumType? resolved = second.enumType? other := by
    intro resolved other halike
    simp only [enumType?, ResolvedProperty.name, halike.property.name, halike.property.enumSpec,
      h.name]
  have htypes := congrArg (List.filterMap id) (map_eq_map_of_forall₂ h.properties htype)
  rwa [List.filterMap_map, List.filterMap_map] at htypes

/-- Like resolutions have the same problems with enum keys. -/
theorem enumDiagnostics_eq : first.enumDiagnostics = second.enumDiagnostics := by
  have hissues : ∀ resolved other : ResolvedProperty, resolved.Alike like other →
      first.issueDiagnostics resolved = second.issueDiagnostics other := by
    intro resolved other halike
    simp only [issueDiagnostics, ResolvedProperty.name, halike.property.name,
      halike.property.enumSpec, h.name]
  exact congrArg List.flatten (map_eq_map_of_forall₂ h.properties hissues)

/-- Like resolutions report the same problems. -/
theorem found_eq : first.found = second.found := by
  rw [found, found, h.diagnostics, h.enumDiagnostics_eq, h.name, h.enumTypes_eq]

end Alike

section Documents

variable {failures : ReferenceFailure → Prop} {value other : Json} {first second : Document}
  (hread : Document.ofJson value = .ok first) (hread' : Document.ofJson other = .ok second)
  (hanswers : first.Answers like failures second)

include hread hread' hanswers

/-- **Like definitions of like documents have like resolutions**, as long as the walk through the
first one meets no failure on which the documents may differ. -/
theorem alike_resolve {start start' : Definition} (hstart : start ∈ first.definitions)
    (hstart' : start' ∈ second.definitions) (halike : start.Alike like start')
    (hfailures : ∀ name reference failure,
      .reference name reference failure ∈ (resolve first start).diagnostics → failures failure) :
    (resolve first start).Alike like (resolve second start') := by
  have hwalk := flattens_walk hread hstart
  have hwalk' := flattens_walk hread' hstart'
  obtain ⟨result, hresult, hlike⟩ := hwalk.alike hanswers halike.body hfailures
  -- A flattening has one result, so the like one is what the second walk finds.
  rw [halike.name, halike.pointer] at hresult
  rw [hresult.functional hwalk'] at hlike
  exact ⟨halike.name, hlike.properties, hlike.diagnostics⟩

/-- **Documents that are alike throughout have like resolutions**, one by one. -/
theorem alike_resolutions (hfailures : ∀ failure, failures failure)
    (hdefinitions : List.Forall₂ (Definition.Alike like) first.definitions second.definitions) :
    List.Forall₂ (Alike like) first.resolutions second.resolutions := by
  obtain ⟨hlength, halike⟩ := List.forall₂_iff_zip.mp hdefinitions
  refine List.forall₂_map_left_iff.mpr (List.forall₂_map_right_iff.mpr ?_)
  refine List.forall₂_iff_zip.mpr ⟨hlength, fun {start start'} hmem => ?_⟩
  obtain ⟨hstart, hstart'⟩ := List.of_mem_zip hmem
  exact alike_resolve hread hread' hanswers hstart hstart' (halike hmem)
    fun _ _ failure _ => hfailures failure

end Documents

end Resolution

end SchemaHeader

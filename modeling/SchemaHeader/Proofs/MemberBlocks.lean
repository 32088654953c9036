import SchemaHeader.Proofs.ReferenceGraph
import SchemaHeader.Proofs.RunReport

set_option autoImplicit false

/-! # Definitions as blocks of members

The path of the bodies being expanded matters only through cycles. Where none is found, a body comes
to the same result however it was reached, so that a definition is put together from one block for
each of its members, and **the block of a reference to another definition is what that definition
flattens to by itself**.

* `Flattens.of_subset`: a flattening without cycles does not change when the path gets shorter.
* `Flattens.relabel`: the definition that is being compiled is a mere label of the problems found.
* `Resolution.resolve_eq_blocks`: the properties and the problems of a definition, block by block.
-/

namespace SchemaHeader

/-! ## Labels -/

/-- The same problem, found in another definition. -/
def Diagnostic.relabel (definition : String) : Diagnostic → Diagnostic
  | .reference _ pointer failure => .reference definition pointer failure
  | .cyclicReference _ cycle => .cyclicReference definition cycle
  | .malformedEnum _ property issue => .malformedEnum definition property issue
  | .invalidIdentifier _ identifier fault => .invalidIdentifier definition identifier fault

theorem cyclesOf_relabel (definition : String) (diagnostics : List Diagnostic) :
    cyclesOf (diagnostics.map (Diagnostic.relabel definition)) = cyclesOf diagnostics := by
  rw [cyclesOf, cyclesOf, List.filterMap_map]
  refine List.filterMap_congr fun diagnostic _ => ?_
  cases diagnostic with
  | reference => rfl
  | cyclicReference => rfl
  | malformedEnum => rfl
  | invalidIdentifier => rfl

/-- The same result, with its problems found in another definition. -/
def Flattened.relabel (definition : String) (result : Flattened) : Flattened :=
  ⟨result.properties, result.diagnostics.map (Diagnostic.relabel definition)⟩

theorem Flattened.relabel_append (definition : String) (first second : Flattened) :
    (first ++ second).relabel definition
      = first.relabel definition ++ second.relabel definition := by
  simp only [relabel, properties_append, diagnostics_append, List.map_append]
  rfl

/-- Two results together have no cycle if neither of them has one. -/
theorem Flattened.acyclic_append {first second : Flattened} :
    cyclesOf (first ++ second).diagnostics = []
      ↔ cyclesOf first.diagnostics = [] ∧ cyclesOf second.diagnostics = [] := by
  rw [diagnostics_append, cyclesOf_append, List.append_eq_nil_iff]

section Flattens

variable {document : Document} {definition : String} {path : List String} {pointer : String}

theorem Settles.relabel {member : Member} {part : Flattened}
    (h : Settles document definition path pointer member part) (other : String) :
    Settles document other path pointer member (part.relabel other) := by
  cases h with
  | inline => exact .inline
  | malformed => exact .malformed
  | cycle hon => exact .cycle hon
  | refused hoff hrefused => exact .refused hoff hrefused

/-- **The name of the definition is a mere label.** -/
theorem Flattens.relabel {members : List Member} {result : Flattened}
    (h : Flattens document definition path pointer members result) (other : String) :
    Flattens document other path pointer members (result.relabel other) := by
  induction h with
  | done => exact .done
  | settle hmember _ ih =>
      rw [Flattened.relabel_append]
      exact .settle (hmember.relabel other) ih
  | expand hoff hincludes _ _ ihinner ihrest =>
      rw [Flattened.relabel_append]
      exact .expand hoff hincludes ihinner ihrest

/-! ## Shorter paths -/

theorem Settles.of_subset {member : Member} {part : Flattened} {shorter : List String}
    (h : Settles document definition path pointer member part)
    (hacyclic : cyclesOf part.diagnostics = []) (hsub : ∀ vertex ∈ shorter, vertex ∈ path) :
    Settles document definition shorter pointer member part := by
  cases h with
  | inline => exact .inline
  | malformed => exact .malformed
  | cycle hon => cases hacyclic
  | refused hoff hrefused => exact .refused (fun hon => hoff (hsub _ hon)) hrefused

/-- **The path matters only through cycles**: where none is found, a shorter path gives the same
result. -/
theorem Flattens.of_subset {members : List Member} {result : Flattened} {shorter : List String}
    (h : Flattens document definition path pointer members result)
    (hacyclic : cyclesOf result.diagnostics = []) (hsub : ∀ vertex ∈ shorter, vertex ∈ path) :
    Flattens document definition shorter pointer members result := by
  induction h generalizing shorter with
  | done => exact .done
  | settle hmember _ ih =>
      obtain ⟨hpart, hrest⟩ := Flattened.acyclic_append.mp hacyclic
      exact .settle (hmember.of_subset hpart hsub) (ih hrest hsub)
  | @expand path _ reference _ _ _ _ hoff hincludes _ _ ihinner ihrest =>
      obtain ⟨hinner, hrest⟩ := Flattened.acyclic_append.mp hacyclic
      refine .expand (fun hon => hoff (hsub _ hon)) hincludes (ihinner hinner ?_)
        (ihrest hrest hsub)
      -- Both paths grow by the same pointer.
      intro vertex hvertex
      rcases List.mem_append.mp hvertex with hold | hnew
      · exact List.mem_append_left _ (hsub vertex hold)
      · exact List.mem_append_right _ hnew

end Flattens

/-! ## Blocks -/

/-- Results one after the other. -/
def Flattened.concat (results : List Flattened) : Flattened :=
  ⟨results.flatMap properties, results.flatMap diagnostics⟩

namespace Resolution

/-- What a definition flattens to by itself. -/
def flattened (document : Document) (definition : Definition) : Flattened :=
  ⟨(resolve document definition).properties, (resolve document definition).diagnostics⟩

/-- **What one member of `start` comes to**, whatever stands around it. A reference to a definition
stands for all that this definition flattens to by itself, and a reference to another part of the
document for all that the members there come to, with nothing but that part being expanded. -/
inductive Contributes (document : Document) (start : Definition) : Member → Flattened → Prop where
  | inline {schema : InlineSchema} :
      Contributes document start (.inline schema) ⟨declared start.pointer schema, []⟩
  | malformed {fault : MemberFault} :
      Contributes document start (.malformed fault)
        (.problem (.reference start.name ("#" ++ start.pointer) (.malformed fault)))
  | refused {reference : String} {failure : ReferenceFailure}
      (hnot : document.isDefinition (Pointer.canonical reference) = false)
      (hrefused : Refused document reference failure) :
      Contributes document start (.reference reference)
        (.problem (.reference start.name reference failure))
  | definition {reference : String} {other : Definition} (hother : other ∈ document.definitions)
      (hpointer : Pointer.canonical reference = other.pointer) :
      Contributes document start (.reference reference)
        ((flattened document other).relabel start.name)
  | part {reference : String} {body : Composition} {block : Flattened}
      (hnot : document.isDefinition (Pointer.canonical reference) = false)
      (hincludes : Includes document reference body)
      (hblock : Flattens document start.name [Pointer.canonical reference]
        (Pointer.canonical reference) body.members block) :
      Contributes document start (.reference reference) block

section Blocks

variable {value : Json} {document : Document} {start : Definition}
  (hkeys : value.UniqueKeys) (hread : Document.ofJson value = .ok document)

include hread in
/-- **A definition that is expanded on the way, without a cycle, comes to what it flattens to by
itself.** -/
theorem eq_flattened_of_flattens {other : Definition} (hother : other ∈ document.definitions)
    {definition : String} {path : List String} {inner : Flattened}
    (h : Flattens document definition path other.pointer other.body.members inner)
    (hon : other.pointer ∈ path) (hacyclic : cyclesOf inner.diagnostics = []) :
    inner = (flattened document other).relabel definition := by
  -- With the path cut down to the definition alone, both flattenings differ only in the label.
  have hshort : Flattens document definition [other.pointer] other.pointer other.body.members
      inner := by
    refine h.of_subset hacyclic fun vertex hvertex => ?_
    rw [List.mem_singleton.mp hvertex]
    exact hon
  have halone : Flattens document other.name [other.pointer] other.pointer other.body.members
      (flattened document other) := flattens_walk hread hother
  exact hshort.functional (halone.relabel definition)

include hkeys hread in
/-- The block of a reference to a definition is what that definition flattens to. -/
theorem Contributes.eq_flattened {reference : String} {block : Flattened}
    (h : Contributes document start (.reference reference) block) {other : Definition}
    (hother : other ∈ document.definitions)
    (hpointer : Pointer.canonical reference = other.pointer) :
    block = (flattened document other).relabel start.name := by
  have hyes : document.isDefinition (Pointer.canonical reference) = true :=
    Document.isDefinition_iff.mpr ⟨other, hother, hpointer⟩
  cases h with
  | refused hnot => exact absurd (hnot.symm.trans hyes) Bool.false_ne_true
  | definition hother' hpointer' =>
      rw [Document.eq_of_pointer_eq hread hkeys hother' hother (hpointer'.symm.trans hpointer)]
  | part hnot => exact absurd (hnot.symm.trans hyes) Bool.false_ne_true

include hkeys hread in
/-- A reference that is refused does not lead to a definition. -/
theorem isDefinition_of_refused {reference : String} {failure : ReferenceFailure}
    (h : Refused document reference failure) :
    document.isDefinition (Pointer.canonical reference) = false := by
  refine Bool.eq_false_iff.mpr fun hyes => ?_
  obtain ⟨other, hother, hpointer⟩ := Document.isDefinition_iff.mp hyes
  have hnot := exists_refused_iff.mp ⟨failure, h⟩
  rw [hpointer] at hnot
  exact hnot (accepts_pointer hread hkeys hother)

include hkeys hread in
/-- A member that is settled without a cycle contributes the same wherever its body is expanded. -/
theorem contributes_of_settles {member : Member} {part : Flattened}
    (h : Settles document start.name [start.pointer] start.pointer member part)
    (hacyclic : cyclesOf part.diagnostics = []) : Contributes document start member part := by
  cases h with
  | inline => exact .inline
  | malformed => exact .malformed
  | cycle => cases hacyclic
  | refused _ hrefused =>
      exact .refused (isDefinition_of_refused hkeys hread hrefused) hrefused

include hkeys hread in
/-- A reference that is expanded without a cycle contributes what its target comes to by itself. -/
theorem contributes_of_expansion {reference : String} {body : Composition} {inner : Flattened}
    (hincludes : Includes document reference body)
    (hinner : Flattens document start.name [start.pointer, Pointer.canonical reference]
      (Pointer.canonical reference) body.members inner)
    (hacyclic : cyclesOf inner.diagnostics = []) :
    Contributes document start (.reference reference) inner := by
  have hon : Pointer.canonical reference ∈ [start.pointer, Pointer.canonical reference] :=
    List.mem_cons_of_mem _ List.mem_cons_self
  cases hdefinition : document.isDefinition (Pointer.canonical reference) with
  | true =>
      obtain ⟨other, hother, hpointer⟩ := Document.isDefinition_iff.mp hdefinition
      -- The body was read afresh from the document; it is the one that the definition holds.
      have hbody : body = other.body := by
        have hat := hincludes.bodyAt?
        rw [hpointer, Document.bodyAt?_pointer hread hkeys hother] at hat
        exact (Option.some.inj hat).symm
      rw [hpointer] at hinner hon
      rw [hbody] at hinner
      rw [eq_flattened_of_flattens hread hother hinner hon hacyclic]
      exact .definition hother hpointer
  | false =>
      refine .part hdefinition hincludes (hinner.of_subset hacyclic fun vertex hvertex => ?_)
      rw [List.mem_singleton.mp hvertex]
      exact hon

include hkeys hread in
/-- **Members come to one block each.** -/
theorem exists_blocks (members : List Member) {result : Flattened}
    (h : Flattens document start.name [start.pointer] start.pointer members result)
    (hacyclic : cyclesOf result.diagnostics = []) :
    ∃ blocks : List Flattened,
      List.Forall₂ (Contributes document start) members blocks ∧ result = .concat blocks := by
  induction members generalizing result with
  | nil =>
      cases h
      exact ⟨[], .nil, rfl⟩
  | cons member rest ih =>
      cases h with
      | settle hmember hrest =>
          obtain ⟨hpart, hresult⟩ := Flattened.acyclic_append.mp hacyclic
          obtain ⟨blocks, hblocks, rfl⟩ := ih hrest hresult
          exact ⟨_ :: blocks, .cons (contributes_of_settles hkeys hread hmember hpart) hblocks, rfl⟩
      | expand _ hincludes hinner hrest =>
          obtain ⟨hpart, hresult⟩ := Flattened.acyclic_append.mp hacyclic
          obtain ⟨blocks, hblocks, rfl⟩ := ih hrest hresult
          exact ⟨_ :: blocks,
            .cons (contributes_of_expansion hkeys hread hincludes hinner hpart) hblocks, rfl⟩

end Blocks

/-- **Flattening is compositional.** A definition without cycles comes to one block after the other,
one for each of its members, and the block of a reference to a definition is all that this
definition flattens to by itself; no definition that it refers to has a cycle either. -/
theorem resolve_eq_blocks {value : Json} {document : Document} {start : Definition}
    (hkeys : value.UniqueKeys) (hread : Document.ofJson value = .ok document)
    (hstart : start ∈ document.definitions)
    (hacyclic : cyclesOf (resolve document start).diagnostics = []) :
    (∃ blocks : List Flattened,
      List.Forall₂ (Contributes document start) start.body.members blocks ∧
      (resolve document start).properties = blocks.flatMap Flattened.properties ∧
      (resolve document start).diagnostics = blocks.flatMap Flattened.diagnostics) ∧
    ∀ other ∈ document.definitions, ∀ reference, .reference reference ∈ start.body.members →
      Pointer.canonical reference = other.pointer →
      cyclesOf (resolve document other).diagnostics = [] := by
  have hflattens : Flattens document start.name [start.pointer] start.pointer start.body.members
      (flattened document start) := flattens_walk hread hstart
  obtain ⟨blocks, hblocks, hconcat⟩ :=
    exists_blocks hkeys hread start.body.members hflattens hacyclic
  have hdiagnostics : (resolve document start).diagnostics = blocks.flatMap Flattened.diagnostics :=
    congrArg Flattened.diagnostics hconcat
  refine ⟨⟨blocks, hblocks, congrArg Flattened.properties hconcat, hdiagnostics⟩, ?_⟩
  intro other hother reference hmem hpointer
  obtain ⟨hlength, hget⟩ := List.forall₂_iff_get.mp hblocks
  obtain ⟨⟨i, hi⟩, hmember⟩ := List.get_of_mem hmem
  have hblock : Contributes document start (.reference reference)
      (blocks.get ⟨i, hlength ▸ hi⟩) := hmember ▸ hget i hi (hlength ▸ hi)
  -- The cycles of the whole are those of the blocks, so this block has none.
  rw [hdiagnostics, cyclesOf_flatMap, List.flatMap_eq_nil_iff] at hacyclic
  have hcycles := hacyclic _ (List.get_mem blocks ⟨i, hlength ▸ hi⟩)
  rw [hblock.eq_flattened hkeys hread hother hpointer] at hcycles
  exact (cyclesOf_relabel start.name _).symm.trans hcycles

/-! ## A diamond -/

/-- The fields of a body whose members are references, and then one set with one property. -/
def diamondBody (references : List String) (property : String) : Json.Fields :=
  [("allof", .array (references.map (fun reference => .object [("$ref", .string reference)])
    ++ [.object [("properties", .object [(property, .object [])])]]))]

/-- `A` refers to `B` and `C`, both of these refer to `D`, and `C` to something missing. -/
def diamondDocument : Document where
  fields :=
    [("A", .object (diamondBody ["#/B", "#/C"] "a")), ("B", .object (diamondBody ["#/D"] "b")),
      ("C", .object (diamondBody ["#/D", "#/X"] "c")), ("D", .object (diamondBody [] "d"))]
  definitions :=
    [⟨"A", "/A", .ofFields (diamondBody ["#/B", "#/C"] "a")⟩,
      ⟨"B", "/B", .ofFields (diamondBody ["#/D"] "b")⟩,
      ⟨"C", "/C", .ofFields (diamondBody ["#/D", "#/X"] "c")⟩,
      ⟨"D", "/D", .ofFields (diamondBody [] "d")⟩]

/-- The tip of the diamond. -/
def diamondStart : Definition := ⟨"A", "/A", .ofFields (diamondBody ["#/B", "#/C"] "a")⟩

/-- `A` is put together from the blocks of `B` and `C` and its own property, so that `d` occurs once
for each way to it, and the missing reference of `C` is found in `A` too. -/
theorem resolve_eq_blocks_diamondStart :
    diamondDocument.root.UniqueKeys ∧ Document.ofJson diamondDocument.root = .ok diamondDocument ∧
      diamondStart ∈ diamondDocument.definitions ∧
      cyclesOf (resolve diamondDocument diamondStart).diagnostics = [] ∧
      (∃ blocks : List Flattened,
        List.Forall₂ (Contributes diamondDocument diamondStart) diamondStart.body.members blocks ∧
        blocks.flatMap (fun block => block.properties.map ResolvedProperty.name)
          = ["d", "b", "d", "c", "a"] ∧
        blocks.flatMap Flattened.diagnostics = [.reference "A" "#/X" .notFound]) := by
  have hkeys : diamondDocument.root.UniqueKeys := by
    simp [diamondDocument, diamondBody, Document.root, Json.UniqueKeys, Json.UniqueKeysFields,
      Json.UniqueKeysItems]
  have hread : Document.ofJson diamondDocument.root = .ok diamondDocument := rfl
  have hstart : diamondStart ∈ diamondDocument.definitions := List.mem_cons_self
  have hacyclic : cyclesOf (resolve diamondDocument diamondStart).diagnostics = [] := by
    decide +kernel
  obtain ⟨⟨blocks, hblocks, hproperties, hdiagnostics⟩, _⟩ :=
    resolve_eq_blocks hkeys hread hstart hacyclic
  refine ⟨hkeys, hread, hstart, hacyclic, blocks, hblocks, ?_, ?_⟩
  · rw [← List.map_flatMap, ← hproperties]
    decide +kernel
  · rw [← hdiagnostics]
    decide +kernel

end Resolution

end SchemaHeader

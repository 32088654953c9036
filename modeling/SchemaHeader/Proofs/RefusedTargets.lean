import SchemaHeader.Proofs.OtherDefinitions
import SchemaHeader.Proofs.Provenance
import SchemaHeader.Proofs.WalkRounds

set_option autoImplicit false

/-! # Targets that are refused

A walk tests a target before it reads it: the pointer has to be that of a definition, or the value
has to be composable. Then the value is read, and should it be no body after all, the walk would
have to refuse it too. The first test looks at a text only, so that **a definition is a body
wherever its pointer leads** is a fact about reading documents, not about the walk.

* `Document.Unfit`: what cannot be composed, said without the tests.
* `Resolution.Stranded`: a target that passes the tests and is no body.
  `Resolution.follow_notComposable_iff` says that a target is refused as not composable if it is
  unfit or stranded, and `Resolution.not_stranded` that none is stranded in a document that was
  read.
* `Resolution.Passes.accepts`: the bodies being expanded are at accepted pointers, so that an unfit
  target never closes a cycle.
* `Compilation.refuses_only_unfit`: **exactly the unfit targets are refused as not composable**, in
  every state of every walk, and nothing else is reported as such.
-/

namespace SchemaHeader

/-! ## Unfit targets -/

/-- **What cannot be composed**: the reference leads to `part`, but its pointer is not that of a
definition, and `part` is no object with one of the keys by which a body is read. -/
structure Document.Unfit (document : Document) (reference : String) (part : Json) : Prop where
  found : document.lookup? reference = some part
  not_definition : ∀ definition ∈ document.definitions,
    definition.pointer ≠ Pointer.canonical reference
  keyless : ∀ fields, part = .object fields → ∀ key ∈ Json.Fields.bodyKeys,
    key ∉ Json.Fields.keys fields

theorem Json.Fields.has_iff {fields : Fields} {key : String} :
    fields.has key = true ↔ key ∈ fields.keys := by
  rw [has, Option.isSome_iff_exists, exists_get?_iff]

/-- A value is composable if it is an object with one of the keys by which a body is read. -/
theorem Composition.isComposable_iff {value : Json} :
    isComposable value = true ↔
      ∃ fields, value = .object fields ∧ ∃ key ∈ Json.Fields.bodyKeys,
        key ∈ Json.Fields.keys fields := by
  constructor
  · intro h
    obtain ⟨body, hbody⟩ := exists_body_of_isComposable h
    obtain ⟨fields, rfl, _⟩ := ofJson?_eq_some hbody
    obtain ⟨key, hkey, hhas⟩ := List.any_eq_true.mp h
    exact ⟨fields, rfl, key, hkey, Json.Fields.has_iff.mp hhas⟩
  · rintro ⟨fields, rfl, key, hkey, hmem⟩
    exact List.any_eq_true.mpr ⟨key, hkey, Json.Fields.has_iff.mpr hmem⟩

/-- **A target is unfit if it fails both tests.** -/
theorem Document.unfit_iff {document : Document} {reference : String} {part : Json} :
    document.Unfit reference part ↔ document.lookup? reference = some part ∧
      ¬ (document.isDefinition (Pointer.canonical reference) = true
        ∨ Composition.isComposable part = true) := by
  rw [not_or, isDefinition_iff, Composition.isComposable_iff]
  constructor
  · rintro ⟨hfound, hnot, hkeyless⟩
    refine ⟨hfound, ?_, ?_⟩
    · rintro ⟨definition, hmem, heq⟩
      exact hnot definition hmem heq.symm
    · rintro ⟨fields, hfields, key, hkey, hmem⟩
      exact hkeyless fields hfields key hkey hmem
  · rintro ⟨hfound, hnot, hkeyless⟩
    refine ⟨hfound, ?_, ?_⟩
    · intro definition hmem heq
      exact hnot ⟨definition, hmem, heq.symm⟩
    · intro fields hfields key hkey hmem
      exact hkeyless ⟨fields, hfields, key, hkey, hmem⟩

/-- An unfit target is not at an accepted pointer. -/
theorem Document.Unfit.not_accepts {document : Document} {reference : String} {part : Json}
    (h : document.Unfit reference part) : ¬ document.Accepts (Pointer.canonical reference) := by
  obtain ⟨hpart, hfails⟩ := Document.unfit_iff.mp h
  rintro ⟨other, hother, hpasses⟩
  have hsame : some part = some other := hpart.symm.trans hother
  exact hfails (Option.some.inj hsame ▸ hpasses)

namespace Resolution

/-! ## Stranded targets -/

/-- **A target that passes the tests and is no body**: a walk through the bodies of `path` would
neither close a cycle with the reference nor find nothing there, and could not expand it either. -/
structure Stranded (document : Document) (path : List String) (reference : String)
    (part : Json) : Prop where
  off : Pointer.canonical reference ∉ path
  found : document.lookup? reference = some part
  passes : document.isDefinition (Pointer.canonical reference) = true
    ∨ Composition.isComposable part = true
  no_body : Composition.ofJson? part = none

section Follow

variable {value : Json} {document : Document} {definition reference : String} {path : List String}

/-- **Why a target is refused as not composable**: it is unfit, or it is no body although it passes
the tests. -/
theorem unfit_or_of_target {found : Json.Kind}
    (h : target document reference = .error (.notComposable found)) :
    ∃ part, part.kind = found ∧ (document.Unfit reference part ∨
      document.lookup? reference = some part ∧
        (document.isDefinition (Pointer.canonical reference) = true
          ∨ Composition.isComposable part = true) ∧
        Composition.ofJson? part = none) := by
  unfold target at h
  split at h
  · cases h
  · rename_i part hpart
    split at h
    · rename_i hpasses
      split at h
      · cases h
      · -- Both tests come before the reading, so this is the target that no test has caught.
        rename_i hnone
        cases h
        exact ⟨part, rfl, Or.inr ⟨hpart, Bool.or_eq_true_iff.mp hpasses, hnone⟩⟩
    · rename_i hfails
      cases h
      rw [Bool.or_eq_true] at hfails
      exact ⟨part, rfl, Or.inl (Document.unfit_iff.mpr ⟨hpart, hfails⟩)⟩

/-- **A reference is refused as not composable if its target is unfit or stranded**, and if it does
not close a cycle. -/
theorem follow_notComposable_iff {name pointer : String} {found : Json.Kind} :
    follow document definition path reference
        = .error (.reference name pointer (.notComposable found)) ↔
      name = definition ∧ pointer = reference ∧ ∃ part, part.kind = found ∧
        (Pointer.canonical reference ∉ path ∧ document.Unfit reference part ∨
          Stranded document path reference part) := by
  constructor
  · intro h
    rcases follow_error h with ⟨_, hcycle⟩ | ⟨hoff, failure, htarget, heq⟩
    · cases hcycle
    · cases heq
      obtain ⟨part, hkind, hunfit | ⟨hfound, hpasses, hnone⟩⟩ := unfit_or_of_target htarget
      · exact ⟨rfl, rfl, part, hkind, Or.inl ⟨hoff, hunfit⟩⟩
      · exact ⟨rfl, rfl, part, hkind, Or.inr ⟨hoff, hfound, hpasses, hnone⟩⟩
  · rintro ⟨rfl, rfl, part, rfl, ⟨hoff, hunfit⟩ | hstranded⟩
    · obtain ⟨hfound, hfails⟩ := Document.unfit_iff.mp hunfit
      rw [← Bool.or_eq_true] at hfails
      simp [follow, hoff, target, hfound, hfails]
    · simp [follow, hstranded.off, target, hstranded.found, hstranded.passes, hstranded.no_body]

/-- A document that was not read from a value may take `null` for a definition. A reference to it is
stranded, and so it is refused. -/
example : Stranded ⟨[("A", .null)], [⟨"A", "/A", ⟨[]⟩⟩]⟩ [] "#/A" .null ∧
    follow ⟨[("A", .null)], [⟨"A", "/A", ⟨[]⟩⟩]⟩ "A" [] "#/A"
      = .error (.reference "A" "#/A" (.notComposable .null)) :=
  ⟨⟨by decide, by decide, by decide, by decide⟩, by decide⟩

/-- **No target is stranded in a document that was read.** A definition was read from an object, and
its pointer leads back to an object of that name; a composable value is an object by itself. -/
theorem not_stranded (hread : Document.ofJson value = .ok document) (part : Json) :
    ¬ Stranded document path reference part := by
  intro h
  obtain ⟨body, hbody⟩ := Document.exists_body_of_accepted hread h.found h.passes
  rw [h.no_body] at hbody
  cases hbody

/-- What passes the tests is an object, and it is expanded unless it closes a cycle. -/
theorem exists_fields_of_passes (hread : Document.ofJson value = .ok document) {part : Json}
    (hpart : document.lookup? reference = some part)
    (hpasses : document.isDefinition (Pointer.canonical reference) = true
      ∨ Composition.isComposable part = true) :
    ∃ fields, part = .object fields ∧ (Pointer.canonical reference ∉ path →
      follow document definition path reference
        = .ok ⟨Pointer.canonical reference, (Composition.ofFields fields).members⟩) := by
  obtain ⟨body, hbody⟩ := Document.exists_body_of_accepted hread hpart hpasses
  obtain ⟨fields, rfl, rfl⟩ := Composition.ofJson?_eq_some hbody
  refine ⟨fields, rfl, fun hoff => ?_⟩
  simp [follow, hoff, target, hpart, hpasses, hbody]

end Follow

/-! ## The states of a walk -/

section States

variable {value : Json} {document : Document} {start : Definition} {stack : Stack}
  (hread : Document.ofJson value = .ok document) (hstart : start ∈ document.definitions)

include hread in
/-- The pointer of a definition leads somewhere: to the first field of that name, if there are
several. -/
theorem accepts_of_isDefinition {pointer : String} (h : document.isDefinition pointer = true) :
    document.Accepts pointer := by
  obtain ⟨named, hnamed, rfl⟩ := Document.isDefinition_iff.mp h
  obtain ⟨part, hfield, hpointer, _⟩ := Document.exists_field_of_mem hread hnamed
  obtain ⟨first, hfirst⟩ := Json.Fields.exists_get?_iff.mpr (List.mem_map_of_mem hfield)
  refine ⟨first, ?_, Or.inl h⟩
  rw [hpointer, Document.root, Json.resolve?_ofField]
  exact hfirst

/-- Every step keeps the bodies being expanded at accepted pointers. -/
theorem accepts_step {frame : Frame} {outer : Stack}
    (h : ∀ pointer ∈ Stack.path (frame :: outer), document.Accepts pointer) :
    ∀ pointer ∈ (step document start.name frame outer).1.path, document.Accepts pointer := by
  rcases step_stack_cases document start.name frame outer with
    hstep | ⟨member, pending, _, hstep | ⟨reference, body, _, hincludes, hstep⟩⟩
  · rw [hstep]
    exact fun pointer hpointer => h pointer (List.mem_cons_of_mem _ hpointer)
  · rw [hstep]
    exact h
  · rw [hstep]
    exact List.forall_mem_cons.mpr ⟨hincludes.accepts, h⟩

include hread hstart in
/-- **The bodies being expanded are at accepted pointers**, in every state of a walk. -/
theorem Passes.accepts (h : Passes document start stack) :
    ∀ pointer ∈ stack.path, document.Accepts pointer := by
  induction h with
  | start =>
      have hdefinition : document.isDefinition start.pointer = true :=
        Document.isDefinition_iff.mpr ⟨start, hstart, rfl⟩
      exact List.forall_mem_singleton.mpr (accepts_of_isDefinition hread hdefinition)
  | step _ ih => exact accepts_step ih

/-- **What a step skips**: a malformed member, or a reference that is not followed. -/
theorem exists_skipped_iff {definition : String} {frame : Frame} {outer : Stack}
    {diagnostic : Diagnostic} :
    (∃ depth, .skipped depth diagnostic ∈ (step document definition frame outer).2) ↔
      (∃ fault pending, frame.pending = .malformed fault :: pending ∧
        diagnostic = .reference definition ("#" ++ frame.pointer) (.malformed fault)) ∨
      ∃ reference pending, frame.pending = .reference reference :: pending ∧
        follow document definition (Stack.path (frame :: outer)) reference = .error diagnostic := by
  obtain ⟨pointer, pending⟩ := frame
  cases pending with
  | nil => simp [step]
  | cons member pending =>
      cases member with
      | inline schema => simp [step]
      | malformed fault => simp [step]
      | reference reference =>
          -- Whether a reference is followed depends on the pointers of the stack alone.
          have hpath : Stack.path (⟨pointer, pending⟩ :: outer)
              = Stack.path (⟨pointer, .reference reference :: pending⟩ :: outer) := rfl
          simp only [step, hpath]
          split
          · rename_i inner hinner
            simp [hinner]
          · rename_i other hother
            simp [hother, eq_comm]

/-- The diagnostics of a walk are those of the members that it skips in its states. -/
theorem mem_diagnostics_iff {diagnostic : Diagnostic} :
    diagnostic ∈ (resolve document start).diagnostics ↔
      ∃ frame outer, Passes document start (frame :: outer) ∧
        ∃ depth, .skipped depth diagnostic ∈ (step document start.name frame outer).2 := by
  have hskipped : ∀ finding : Finding, finding.diagnostic? = some diagnostic ↔
      ∃ depth, finding = .skipped depth diagnostic := by
    intro finding
    cases finding <;> simp [Finding.diagnostic?]
  rw [diagnostics, List.mem_filterMap]
  constructor
  · rintro ⟨finding, hmem, hdiagnostic⟩
    obtain ⟨depth, rfl⟩ := (hskipped finding).mp hdiagnostic
    obtain ⟨frame, outer, hpasses, hstep⟩ := mem_walk_iff.mp hmem
    exact ⟨frame, outer, hpasses, depth, hstep⟩
  · rintro ⟨frame, outer, hpasses, depth, hstep⟩
    exact ⟨.skipped depth diagnostic, mem_walk_iff.mpr ⟨frame, outer, hpasses, hstep⟩, rfl⟩

/-- **How the references of a state come out**: none is stranded, what passes the tests is an object
and is expanded unless it closes a cycle, and a reference is refused as not composable exactly if
its target is unfit. -/
structure DecidesTargets (document : Document) (definition : String) (stack : Stack) : Prop where
  never_stranded : ∀ reference part, ¬ Stranded document stack.path reference part
  expands : ∀ reference part, document.lookup? reference = some part →
    document.isDefinition (Pointer.canonical reference) = true
      ∨ Composition.isComposable part = true →
    ∃ fields, part = .object fields ∧ (Pointer.canonical reference ∉ stack.path →
      follow document definition stack.path reference
        = .ok ⟨Pointer.canonical reference, (Composition.ofFields fields).members⟩)
  refuses : ∀ reference found, follow document definition stack.path reference
      = .error (.reference definition reference (.notComposable found)) ↔
    ∃ part, document.Unfit reference part ∧ part.kind = found

include hread hstart in
/-- In a state of a walk, the unfit targets are refused as not composable and no others. -/
theorem Passes.follow_notComposable_iff (h : Passes document start stack)
    {reference name pointer : String} {found : Json.Kind} :
    follow document start.name stack.path reference
        = .error (.reference name pointer (.notComposable found)) ↔
      name = start.name ∧ pointer = reference ∧
        ∃ part, document.Unfit reference part ∧ part.kind = found := by
  rw [Resolution.follow_notComposable_iff]
  refine and_congr_right fun _ => and_congr_right fun _ => exists_congr fun part => ?_
  constructor
  · rintro ⟨hkind, ⟨_, hunfit⟩ | hstranded⟩
    · exact ⟨hunfit, hkind⟩
    · exact absurd hstranded (not_stranded hread part)
  · rintro ⟨hunfit, hkind⟩
    -- Bodies that are being expanded have passed the tests, so the reference closes no cycle.
    have hoff : Pointer.canonical reference ∉ stack.path := fun hon =>
      hunfit.not_accepts (h.accepts hread hstart _ hon)
    exact ⟨hkind, Or.inl ⟨hoff, hunfit⟩⟩

include hread hstart in
/-- **Every state of a walk decides the targets of references rightly.** -/
theorem Passes.decidesTargets (h : Passes document start stack) :
    DecidesTargets document start.name stack where
  never_stranded := fun _ part => not_stranded hread part
  expands := fun _ _ hpart hpasses => exists_fields_of_passes hread hpart hpasses
  refuses := fun reference found => by
    rw [h.follow_notComposable_iff hread hstart]
    simp

/-- **A walk meets a reference**: in one of its states, the reference is the next member. -/
def Meets (document : Document) (start : Definition) (reference : String) : Prop :=
  ∃ pointer pending outer,
    Passes document start (⟨pointer, .reference reference :: pending⟩ :: outer)

include hread hstart in
/-- **A walk reports the unfit targets that it meets.** -/
theorem notComposable_mem_diagnostics_iff {name reference : String} {found : Json.Kind} :
    .reference name reference (.notComposable found) ∈ (resolve document start).diagnostics ↔
      name = start.name ∧ Meets document start reference ∧
        ∃ part, document.Unfit reference part ∧ part.kind = found := by
  rw [mem_diagnostics_iff]
  constructor
  · rintro ⟨⟨pointer, pending⟩, outer, hpasses, hskipped⟩
    rcases exists_skipped_iff.mp hskipped with ⟨_, _, _, heq⟩ | ⟨other, rest, hpending, hfollow⟩
    · cases heq
    · obtain ⟨hname, rfl, hunfit⟩ :=
        (hpasses.follow_notComposable_iff hread hstart).mp hfollow
      cases hpending
      exact ⟨hname, ⟨pointer, rest, outer, hpasses⟩, hunfit⟩
  · rintro ⟨hname, ⟨pointer, pending, outer, hpasses⟩, hunfit⟩
    refine ⟨_, outer, hpasses, exists_skipped_iff.mpr (Or.inr ⟨reference, pending, rfl, ?_⟩)⟩
    exact (hpasses.follow_notComposable_iff hread hstart).mpr ⟨hname, rfl, hunfit⟩

end States

end Resolution

/-! ## Reports -/

namespace Compilation

open Resolution

/-- The reference failures among the problems of a document are those of its walks. -/
theorem reference_mem_found_iff {document : Document} {name pointer : String}
    {failure : ReferenceFailure} :
    .reference name pointer failure ∈ found document ↔
      ∃ start ∈ document.definitions,
        .reference name pointer failure ∈ (resolve document start).diagnostics := by
  constructor
  · intro h
    -- What names and enum keys give rise to are diagnostics of other kinds.
    rcases List.mem_append.mp h with hname | hfound
    · obtain ⟨_, _, hname⟩ := List.mem_flatMap.mp hname
      obtain ⟨_, _, heq⟩ := exists_of_mem_identifierDiagnostics hname
      cases heq
    · obtain ⟨resolution, hresolution, hfound⟩ := List.mem_flatMap.mp hfound
      obtain ⟨start, hstart, rfl⟩ := List.mem_map.mp hresolution
      rcases List.mem_append.mp hfound with hfound | htype
      · rcases List.mem_append.mp hfound with hwalk | henum
        · exact ⟨start, hstart, hwalk⟩
        · obtain ⟨_, _, hissue⟩ := List.mem_flatMap.mp henum
          obtain ⟨_, heq⟩ := exists_of_mem_issueDiagnostics hissue
          cases heq
      · obtain ⟨_, _, hname⟩ := List.mem_flatMap.mp htype
        obtain ⟨_, _, heq⟩ := exists_of_mem_identifierDiagnostics hname
        cases heq
  · rintro ⟨start, hstart, hwalk⟩
    refine List.mem_append_right _ (List.mem_flatMap.mpr ⟨_, List.mem_map_of_mem hstart, ?_⟩)
    exact List.mem_append_left _ (List.mem_append_left _ hwalk)

/-- **A ledger reports the reference failures of all walks**: only cycles are ever left out. -/
theorem reference_mem_ledger_iff {document : Document} {name pointer : String}
    {failure : ReferenceFailure} :
    .reference name pointer failure
        ∈ (Ledger.empty.enterAll (found document)).1.diagnostics.toList ↔
      ∃ start ∈ document.definitions,
        .reference name pointer failure ∈ (resolve document start).diagnostics := by
  have hkept : ∀ diagnostics : List Diagnostic, .reference name pointer failure ∈ diagnostics ↔
      .reference name pointer failure ∈ diagnostics.filter (·.cycle?.isNone) := by
    intro diagnostics
    simp [List.mem_filter, Diagnostic.cycle?]
  rw [hkept, Ledger.filter_isNone_enterAll, ← hkept, reference_mem_found_iff]

/-- A ledger reports the unfit targets that the walks meet. -/
theorem notComposable_mem_ledger_iff {value : Json} {document : Document}
    (hread : Document.ofJson value = .ok document) (name reference : String)
    (found : Json.Kind) :
    .reference name reference (.notComposable found)
        ∈ (Ledger.empty.enterAll (Compilation.found document)).1.diagnostics.toList ↔
      ∃ start ∈ document.definitions, name = start.name ∧ Meets document start reference ∧
        ∃ part, document.Unfit reference part ∧ part.kind = found := by
  rw [reference_mem_ledger_iff]
  refine exists_congr fun start => and_congr_right fun hstart => ?_
  exact notComposable_mem_diagnostics_iff hread hstart

/-- **Only unfit targets are refused as not composable.** In every state of every walk through a
document that was read, no target is stranded, what passes for a body is an object that can be
expanded, and a reference is refused as not composable exactly if its target is unfit. A walk
reports just those unfit targets that it meets, and so do finished runs and surveys for all walks
together. -/
theorem refuses_only_unfit {value : Json} {document : Document}
    (hread : Document.ofJson value = .ok document) :
    (∀ start ∈ document.definitions, ∀ stack, Passes document start stack →
      DecidesTargets document start.name stack) ∧
    (∀ start ∈ document.definitions, ∀ name reference found,
      .reference name reference (.notComposable found) ∈ (resolve document start).diagnostics ↔
        name = start.name ∧ Meets document start reference ∧
          ∃ part, document.Unfit reference part ∧ part.kind = found) ∧
    (∀ layout sink report, (compile document layout sink).report = some report →
      ∀ name reference found,
        .reference name reference (.notComposable found) ∈ report.diagnostics ↔
          ∃ start ∈ document.definitions, name = start.name ∧ Meets document start reference ∧
            ∃ part, document.Unfit reference part ∧ part.kind = found) ∧
    (∀ name reference found,
      .reference name reference (.notComposable found)
          ∈ (resolveAll document).ledger.diagnostics.toList ↔
        ∃ start ∈ document.definitions, name = start.name ∧ Meets document start reference ∧
          ∃ part, document.Unfit reference part ∧ part.kind = found) := by
  have hledger := notComposable_mem_ledger_iff hread
  refine ⟨fun start hstart stack hstack => hstack.decidesTargets hread hstart,
    fun start hstart name reference found => notComposable_mem_diagnostics_iff hread hstart,
    fun layout sink report hreport => ?_, ?_⟩
  · rw [diagnostics_of_compile hreport]
    exact hledger
  · rw [ledger_resolveAll]
    exact hledger

/-! ## A definition with an empty body -/

/-- The fields of `a/b`, which has a note and an empty body, and of `A`, which refers to its own
list, to the note and to `a/b`. -/
def noteFields : Json.Fields :=
  [("a/b", .object [("note", .object [])]),
    ("A", .object [("allof", .array [
      .object [("$ref", .string "#/A/allof")], .object [("$ref", .string "#/a~1b/note")],
      .object [("$ref", .string "#/a~1b")]])])]

/-- The definition of `A`. -/
def noteStart : Definition where
  name := "A"
  pointer := "/A"
  body := ⟨[.reference "#/A/allof", .reference "#/a~1b/note", .reference "#/a~1b"]⟩

/-- The document of both definitions. -/
def noteDocument : Document where
  fields := noteFields
  definitions := [⟨"a/b", "/a~1b", ⟨[]⟩⟩, noteStart]

theorem ofJson_noteFields : Document.ofJson (.object noteFields) = .ok noteDocument := by
  have hpointer : "/a~1b" = Pointer.ofField "a/b" := by decide
  rw [noteDocument, hpointer]
  rfl

/-- The body of `a/b` is expanded although it is not composable, as it is that of a definition; the
note in it and the list of `A` are refused. -/
theorem refuses_only_unfit_noteDocument :
    Document.ofJson (.object noteFields) = .ok noteDocument ∧
      noteStart ∈ noteDocument.definitions ∧
      Passes noteDocument noteStart [⟨"/A", noteStart.body.members⟩] ∧
      Composition.isComposable (.object [("note", .object [])]) = false ∧
      follow noteDocument "A" ["/A"] "#/a~1b" = .ok ⟨"/a~1b", []⟩ ∧
      follow noteDocument "A" ["/A"] "#/a~1b/note"
        = .error (.reference "A" "#/a~1b/note" (.notComposable .object)) ∧
      .reference "A" "#/A/allof" (.notComposable .array)
        ∈ (resolve noteDocument noteStart).diagnostics := by
  have hstart : noteStart ∈ noteDocument.definitions := List.mem_cons_of_mem _ List.mem_cons_self
  obtain ⟨hstates, hwalks, _⟩ := refuses_only_unfit ofJson_noteFields
  have hdecides := hstates noteStart hstart _ .start
  refine ⟨ofJson_noteFields, hstart, .start, rfl, ?_, ?_, ?_⟩
  · obtain ⟨fields, heq, hexpands⟩ := hdecides.expands "#/a~1b" (.object [("note", .object [])])
      (by decide) (Or.inl (by decide))
    cases heq
    exact hexpands (by decide)
  · have hunfit : noteDocument.Unfit "#/a~1b/note" (.object []) := by
      refine ⟨by decide, by decide, ?_⟩
      rintro fields ⟨⟩ key _ hkey
      cases hkey
    exact (hdecides.refuses "#/a~1b/note" .object).mpr ⟨_, hunfit, rfl⟩
  · have hunfit : noteDocument.Unfit "#/A/allof" (.array [
        .object [("$ref", .string "#/A/allof")], .object [("$ref", .string "#/a~1b/note")],
        .object [("$ref", .string "#/a~1b")]]) := by
      refine ⟨by decide, by decide, ?_⟩
      rintro fields ⟨⟩
    exact (hwalks noteStart hstart "A" "#/A/allof" .array).mpr
      ⟨rfl, ⟨_, _, _, .start⟩, _, hunfit, rfl⟩

end Compilation

end SchemaHeader

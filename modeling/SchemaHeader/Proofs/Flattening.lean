import SchemaHeader.Proofs.DefinitionPointers
import SchemaHeader.Resolution
import Mathlib.Data.List.Nodup

set_option autoImplicit false

/-! # Flattening by recursion

`Flattens` says what the members of a body come to, without a stack: they are taken in order, and
a reference that can be followed stands for the members of its target, flattened in turn one level
deeper. The path of the bodies being expanded is part of the statement, **the outermost first**,
and the rules say what becomes of a member without a word of how a walk keeps its books.

* `Flattens.functional`: the members of a body come to at most one result.
* `exists_flattens_run`: working off the innermost frame of a walk gives what flattening its
  pending members gives. The invariant is the stack itself: its pointers, read from the outside,
  are the path.
* `flattens_iff_eq_resolve`: **a definition flattens to what its walk finds, and to nothing
  else.**
-/

namespace SchemaHeader

/-! ## Results -/

/-- What some members come to: properties and problems, each in order. -/
structure Flattened where
  properties : List ResolvedProperty
  diagnostics : List Diagnostic
  deriving DecidableEq

namespace Flattened

/-- Nothing at all. -/
def empty : Flattened := ⟨[], []⟩

/-- A single problem. -/
def problem (diagnostic : Diagnostic) : Flattened := ⟨[], [diagnostic]⟩

/-- One result after the other. -/
def append (first second : Flattened) : Flattened :=
  ⟨first.properties ++ second.properties, first.diagnostics ++ second.diagnostics⟩

instance : Append Flattened := ⟨append⟩

@[simp] theorem properties_append (first second : Flattened) :
    (first ++ second).properties = first.properties ++ second.properties := rfl

@[simp] theorem diagnostics_append (first second : Flattened) :
    (first ++ second).diagnostics = first.diagnostics ++ second.diagnostics := rfl

end Flattened

/-! ## Rules -/

/-- The properties that a set declares in the body of `pointer`: one is required if the set lists
its name, it stands where the set stands, and it is owned by the first token of the pointer. -/
def declared (pointer : String) (schema : InlineSchema) : List ResolvedProperty :=
  schema.properties.map fun property =>
    { property
      isRequired := decide (property.name ∈ schema.required)
      owner := ((Pointer.tokens? pointer).getD []).headD ""
      origin := pointer ++ schema.location }

/-- Why a reference cannot be expanded: nothing is there, or what is there is neither a definition
nor composable. -/
inductive Refused (document : Document) (reference : String) : ReferenceFailure → Prop where
  | notFound (hnone : document.lookup? reference = none) : Refused document reference .notFound
  | notComposable {part : Json} (hpart : document.lookup? reference = some part)
      (hdefinition : document.isDefinition (Pointer.canonical reference) = false)
      (hcomposable : Composition.isComposable part = false) :
      Refused document reference (.notComposable part.kind)

/-- A reference can be expanded, and this is the body that it stands for. -/
def Includes (document : Document) (reference : String) (body : Composition) : Prop :=
  ∃ part, document.lookup? reference = some part ∧
    (document.isDefinition (Pointer.canonical reference) = true
      ∨ Composition.isComposable part = true) ∧
    Composition.ofJson? part = some body

/-- The part of a path from a pointer inwards, closed by the pointer. -/
def cycleFrom (path : List String) (pointer : String) : List String :=
  (path.dropWhile (· != pointer) ++ [pointer]).map ("#" ++ ·)

/-- The cut of a list at a text that does not stand before it. -/
theorem span_append_cons {before : List String} {text : String} (h : text ∉ before)
    (after : List String) :
    (before ++ text :: after).dropWhile (· != text) = text :: after ∧
      (before ++ text :: after).takeWhile (· != text) = before := by
  have hbefore : ∀ other ∈ before, (other != text) = true := by
    intro other hother
    exact bne_iff_ne.mpr fun heq => h (heq ▸ hother)
  rw [List.dropWhile_append_of_pos hbefore, List.takeWhile_append_of_pos hbefore]
  simp

/-- **A member that is settled where it stands**, and what it comes to. `path` holds the pointers of
the bodies being expanded, the outermost first, and `pointer` is the last of them. -/
inductive Settles (document : Document) (definition : String) (path : List String)
    (pointer : String) : Member → Flattened → Prop where
  | inline {schema : InlineSchema} :
      Settles document definition path pointer (.inline schema) ⟨declared pointer schema, []⟩
  | malformed {fault : MemberFault} :
      Settles document definition path pointer (.malformed fault)
        (.problem (.reference definition ("#" ++ pointer) (.malformed fault)))
  | cycle {reference : String} (hon : Pointer.canonical reference ∈ path) :
      Settles document definition path pointer (.reference reference)
        (.problem (.cyclicReference definition (cycleFrom path (Pointer.canonical reference))))
  | refused {reference : String} {failure : ReferenceFailure}
      (hoff : Pointer.canonical reference ∉ path) (hrefused : Refused document reference failure) :
      Settles document definition path pointer (.reference reference)
        (.problem (.reference definition reference failure))

/-- **What the members of a body come to**, one after the other. A reference that is neither a cycle
nor refused stands for the members of its target, with the path one pointer longer. -/
inductive Flattens (document : Document) (definition : String) :
    List String → String → List Member → Flattened → Prop where
  | done {path : List String} {pointer : String} :
      Flattens document definition path pointer [] .empty
  | settle {path : List String} {pointer : String} {member : Member} {rest : List Member}
      {part result : Flattened} (hmember : Settles document definition path pointer member part)
      (hrest : Flattens document definition path pointer rest result) :
      Flattens document definition path pointer (member :: rest) (part ++ result)
  | expand {path : List String} {pointer reference : String} {body : Composition}
      {rest : List Member} {inner result : Flattened} (hoff : Pointer.canonical reference ∉ path)
      (hincludes : Includes document reference body)
      (hinner : Flattens document definition (path ++ [Pointer.canonical reference])
        (Pointer.canonical reference) body.members inner)
      (hrest : Flattens document definition path pointer rest result) :
      Flattens document definition path pointer (.reference reference :: rest) (inner ++ result)

/-! ## One result -/

theorem Refused.functional {document : Document} {reference : String}
    {first second : ReferenceFailure} (h₁ : Refused document reference first)
    (h₂ : Refused document reference second) : first = second := by
  cases h₁ with
  | notFound hnone =>
      cases h₂ with
      | notFound => rfl
      | notComposable hpart => rw [hnone] at hpart; cases hpart
  | notComposable hpart =>
      cases h₂ with
      | notFound hnone => rw [hnone] at hpart; cases hpart
      | notComposable hpart' => rw [hpart] at hpart'; cases hpart'; rfl

theorem Includes.functional {document : Document} {reference : String}
    {first second : Composition} (h₁ : Includes document reference first)
    (h₂ : Includes document reference second) : first = second := by
  obtain ⟨part, hpart, _, hbody⟩ := h₁
  obtain ⟨part', hpart', _, hbody'⟩ := h₂
  rw [hpart] at hpart'
  cases hpart'
  rw [hbody] at hbody'
  exact Option.some.inj hbody'

/-- A reference that is refused cannot be expanded. -/
theorem Refused.not_includes {document : Document} {reference : String}
    {failure : ReferenceFailure} {body : Composition} (h : Refused document reference failure) :
    ¬ Includes document reference body := by
  rintro ⟨part, hpart, hok, _⟩
  cases h with
  | notFound hnone => rw [hnone] at hpart; cases hpart
  | notComposable hpart' hdefinition hcomposable =>
      rw [hpart] at hpart'
      cases hpart'
      rcases hok with hok | hok
      · rw [hdefinition] at hok; cases hok
      · rw [hcomposable] at hok; cases hok

section Functional

variable {document : Document} {definition : String} {path : List String} {pointer : String}

theorem Settles.functional {member : Member} {first second : Flattened}
    (h₁ : Settles document definition path pointer member first)
    (h₂ : Settles document definition path pointer member second) : first = second := by
  cases h₁ with
  | inline => cases h₂; rfl
  | malformed => cases h₂; rfl
  | cycle hon =>
      cases h₂ with
      | cycle => rfl
      | refused hoff => exact absurd hon hoff
  | refused hoff hrefused =>
      cases h₂ with
      | cycle hon => exact absurd hon hoff
      | refused _ hrefused' => rw [hrefused.functional hrefused']

/-- A reference that is settled where it stands is not expanded. -/
theorem Settles.not_includes {reference : String} {part : Flattened} {body : Composition}
    (h : Settles document definition path pointer (.reference reference) part)
    (hoff : Pointer.canonical reference ∉ path) : ¬ Includes document reference body := by
  cases h with
  | cycle hon => exact absurd hon hoff
  | refused _ hrefused => exact hrefused.not_includes

/-- **The members of a body come to one result.** -/
theorem Flattens.functional {members : List Member} {first second : Flattened}
    (h₁ : Flattens document definition path pointer members first)
    (h₂ : Flattens document definition path pointer members second) : first = second := by
  induction h₁ generalizing second with
  | done => cases h₂; rfl
  | settle hmember _ ih =>
      cases h₂ with
      | settle hmember' hrest => rw [hmember.functional hmember', ih hrest]
      | expand hoff hincludes => exact absurd hincludes (hmember.not_includes hoff)
  | expand hoff hincludes _ _ ihinner ihrest =>
      cases h₂ with
      | settle hmember => exact absurd hincludes (hmember.not_includes hoff)
      | expand _ hincludes' hinner hrest =>
          cases hincludes.functional hincludes'
          rw [ihinner hinner, ihrest hrest]

end Functional

/-! ## References of a walk

A walk asks `target` what a reference stands for and `follow` whether to go there. -/

namespace Resolution

theorem includes_of_target {document : Document} {reference : String} {body : Composition}
    (h : target document reference = .ok body) : Includes document reference body := by
  unfold target at h
  split at h
  · cases h
  · rename_i part hpart
    split at h
    · rename_i hok
      split at h
      · rename_i body' hbody
        cases h
        exact ⟨part, hpart, by simpa using hok, hbody⟩
      · cases h
    · cases h

/-- A target that is no body although it passes for one does not occur in a document that was
read. -/
theorem refused_of_target {value : Json} {document : Document}
    (hread : Document.ofJson value = .ok document) {reference : String}
    {failure : ReferenceFailure} (h : target document reference = .error failure) :
    Refused document reference failure := by
  unfold target at h
  split at h
  · rename_i hnone
    cases h
    exact .notFound hnone
  · rename_i part hpart
    split at h
    · rename_i hok
      obtain ⟨body, hbody⟩ :=
        Document.exists_body_of_accepted hread hpart (Bool.or_eq_true_iff.mp hok)
      rw [hbody] at h
      cases h
    · rename_i hok
      cases h
      rw [Bool.or_eq_true, not_or, Bool.not_eq_true, Bool.not_eq_true] at hok
      exact .notComposable hpart hok.1 hok.2

/-- The cycle that a walk closes, with the path read from the outside. -/
theorem closeCycle_reverse {path : List String} {pointer : String} (hpath : path.Nodup)
    (h : pointer ∈ path) : closeCycle path.reverse pointer = cycleFrom path pointer := by
  obtain ⟨outside, inside, rfl, houtside⟩ := List.eq_append_cons_of_mem h
  -- The pointer stands once on the path, so both cuts are made at the same place.
  have hinside : pointer ∉ inside.reverse := by
    rw [List.mem_reverse]
    exact (List.nodup_cons.mp (List.nodup_append.mp hpath).2.1).1
  have hreverse : (outside ++ pointer :: inside).reverse
      = inside.reverse ++ pointer :: outside.reverse := by simp
  rw [closeCycle, cycleFrom, hreverse, (span_append_cons hinside outside.reverse).2,
    (span_append_cons houtside inside).1, List.reverse_reverse]

/-- The properties that a walk takes from a set are those that the set declares. -/
theorem inlineProperties_eq_declared {pointer : String} {tokens : List String}
    (h : Pointer.tokens? pointer = some tokens) (schema : InlineSchema) :
    inlineProperties pointer schema = declared pointer schema := by
  unfold inlineProperties declared
  rw [Pointer.owner_eq_of_tokens? h, h, Option.getD_some]
  refine List.map_congr_left fun property _ => ?_
  simp [InlineSchema.isRequired, List.contains_eq_mem]

/-! ## Findings -/

/-- The properties and the problems among findings. -/
def flattenedOf (found : List Finding) : Flattened :=
  ⟨found.filterMap Finding.property?, found.filterMap Finding.diagnostic?⟩

theorem flattenedOf_append (first second : List Finding) :
    flattenedOf (first ++ second) = flattenedOf first ++ flattenedOf second := by
  simp only [flattenedOf, List.filterMap_append]
  rfl

theorem flattenedOf_properties (properties : List ResolvedProperty) :
    flattenedOf (properties.map .property) = ⟨properties, []⟩ := by
  induction properties with
  | nil => rfl
  | cons property rest ih =>
      have hcons : flattenedOf ((property :: rest).map .property)
          = flattenedOf [.property property] ++ flattenedOf (rest.map .property) :=
        flattenedOf_append [.property property] (rest.map .property)
      rw [hcons, ih]
      rfl

theorem flattenedOf_included_cons (depth : Nat) (pointer : String) (found : List Finding) :
    flattenedOf (.included depth pointer :: found) = flattenedOf found := rfl

/-! ## Working off a frame -/

section Walk

variable {value : Json} {document : Document} {definition : String} {supply : Supply}
  (hread : Document.ofJson value = .ok document) (hc : supply.Covers document)

/-- A reference that a walk does not follow is a cycle or is refused. -/
theorem follow_error {path : List String} {reference : String} {diagnostic : Diagnostic}
    (h : follow document definition path reference = .error diagnostic) :
    (Pointer.canonical reference ∈ path ∧ diagnostic = .cyclicReference definition
        (closeCycle path (Pointer.canonical reference))) ∨
      (Pointer.canonical reference ∉ path ∧ ∃ failure,
        target document reference = .error failure ∧
        diagnostic = .reference definition reference failure) := by
  unfold follow at h
  simp only at h
  split at h
  · rename_i hon
    cases h
    exact Or.inl ⟨hon, rfl⟩
  · rename_i hoff
    split at h
    · cases h
    · rename_i failure hfailure
      cases h
      exact Or.inr ⟨hoff, failure, hfailure, rfl⟩

include hread in
/-- A reference that a walk does not follow is settled by the diagnostic that the walk records. -/
theorem settles_of_follow_error {path : List String} {pointer reference : String}
    {diagnostic : Diagnostic} (hpath : path.Nodup)
    (h : follow document definition path.reverse reference = .error diagnostic) :
    Settles document definition path pointer (.reference reference) (.problem diagnostic) := by
  rcases follow_error h with ⟨hon, rfl⟩ | ⟨hoff, failure, hfailure, rfl⟩
  · rw [List.mem_reverse] at hon
    rw [closeCycle_reverse hpath hon]
    exact .cycle hon
  · rw [List.mem_reverse] at hoff
    exact .refused hoff (refused_of_target hread hfailure)

theorem trail_append (trail : Array Finding) (first second : List Finding) :
    trail ++ first ++ second = trail ++ (first ++ second) := by
  apply Array.toList_inj.mp
  simp

/-- A run goes on with the stack that a step leaves. -/
theorem run_eq_of_step {frame : Frame} {outer stack : Stack} {found : List Finding}
    (h : Admissible supply (frame :: outer)) (hstack : Admissible supply stack)
    (hstep : step document definition frame outer = (stack, found)) (trail : Array Finding) :
    run document definition hc (frame :: outer) h trail
      = run document definition hc stack hstack (trail ++ found) := by
  obtain ⟨rfl, rfl⟩ := Prod.ext_iff.mp hstep
  rw [run]

/-- A stack whose frames have pointers that can be read. -/
def Readable (stack : Stack) : Prop :=
  ∀ pointer ∈ stack.path, ∃ tokens, Pointer.tokens? pointer = some tokens

/-- What a reference leads to has a pointer that can be read. -/
theorem exists_tokens_of_includes {reference : String} {body : Composition}
    (h : Includes document reference body) :
    ∃ tokens, Pointer.tokens? (Pointer.canonical reference) = some tokens := by
  obtain ⟨part, hpart, _⟩ := h
  rw [Document.lookup?, Json.resolve?, Option.bind_eq_some_iff] at hpart
  obtain ⟨tokens, htokens, _⟩ := hpart
  exact ⟨tokens, htokens⟩

include hread in
/-- **A step over a member** either stays in its frame and finds what the member comes to, or
enters the body that a reference stands for. -/
theorem step_member (member : Member) {pointer : String} {pending : List Member} {outer : Stack}
    (hpath : (Stack.path (⟨pointer, pending⟩ :: outer)).Nodup) {tokens : List String}
    (htokens : Pointer.tokens? pointer = some tokens) :
    (∃ found : List Finding,
      step document definition ⟨pointer, member :: pending⟩ outer
        = (⟨pointer, pending⟩ :: outer, found) ∧
      Settles document definition (Stack.path (⟨pointer, pending⟩ :: outer)).reverse pointer
        member (flattenedOf found)) ∨
    (∃ (reference : String) (body : Composition) (depth : Nat),
      member = .reference reference ∧
      Pointer.canonical reference ∉ Stack.path (⟨pointer, pending⟩ :: outer) ∧
      Includes document reference body ∧
      step document definition ⟨pointer, member :: pending⟩ outer
        = (⟨Pointer.canonical reference, body.members⟩ :: ⟨pointer, pending⟩ :: outer,
          [.included depth reference])) := by
  cases member with
  | inline schema =>
      refine Or.inl ⟨(inlineProperties pointer schema).map .property, rfl, ?_⟩
      rw [flattenedOf_properties, inlineProperties_eq_declared htokens]
      exact .inline
  | malformed fault => exact Or.inl ⟨_, rfl, .malformed⟩
  | reference reference =>
      cases hfollow : follow document definition (Stack.path (⟨pointer, pending⟩ :: outer))
          reference with
      | error diagnostic =>
          refine Or.inl ⟨[.skipped (outer.length + 1) diagnostic], ?_, ?_⟩
          · simp only [step, hfollow, List.length_cons]
          · refine settles_of_follow_error hread (List.nodup_reverse.mpr hpath) ?_
            rw [List.reverse_reverse]
            exact hfollow
      | ok inner =>
          obtain ⟨hpointer, hoff, body, hbody, hinner⟩ := follow_ok hfollow
          refine Or.inr ⟨reference, body, outer.length + 1, rfl, hpointer ▸ hoff,
            includes_of_target hbody, ?_⟩
          rw [hpointer] at hinner
          simp only [step, hfollow, hinner, List.length_cons]

include hread in
/-- **Working off the innermost frame gives what its pending members flatten to**, and leaves the
frames around it as they are. -/
theorem exists_flattens_run (n : Nat) :
    ∀ (frame : Frame) (outer : Stack) (h : Admissible supply (frame :: outer)),
      weight supply (frame :: outer) = n → Readable (frame :: outer) →
      ∃ found : List Finding,
        (∀ trail, run document definition hc (frame :: outer) h trail
          = run document definition hc outer h.pop (trail ++ found)) ∧
        Flattens document definition (Stack.path (frame :: outer)).reverse frame.pointer
          frame.pending (flattenedOf found) := by
  -- A body that is entered is worked off first, and then the frame that it was entered from: both
  -- stacks weigh less than the one at hand.
  induction n using Nat.strongRecOn with
  | ind n ih =>
      intro frame outer h hn hreadable
      obtain ⟨pointer, pending⟩ := frame
      cases pending with
      | nil =>
          refine ⟨[], fun trail => ?_, Flattens.done⟩
          rw [run_eq_of_step hc h h.pop rfl]
      | cons member pending =>
          have hhere : Admissible supply (⟨pointer, pending⟩ :: outer) := h.visit rfl
          have hless : weight supply (⟨pointer, pending⟩ :: outer) < n :=
            hn ▸ weight_visit_lt rfl
          obtain ⟨found, hfound, hrest⟩ := ih _ hless ⟨pointer, pending⟩ outer hhere rfl hreadable
          obtain ⟨tokens, htokens⟩ := hreadable pointer List.mem_cons_self
          rcases step_member hread member hhere.distinct htokens with
            ⟨found₀, hstep, hmember⟩ | ⟨reference, body, depth, rfl, hoff, hincludes, hstep⟩
          · refine ⟨found₀ ++ found, fun trail => ?_, ?_⟩
            · rw [run_eq_of_step hc h hhere hstep, hfound, trail_append]
            · rw [flattenedOf_append]
              exact .settle hmember hrest
          · have hkeep : Admissible supply
                (step document definition ⟨pointer, .reference reference :: pending⟩ outer).1 :=
              admissible_step hc h
            have hinnerLess : weight supply
                (step document definition ⟨pointer, .reference reference :: pending⟩ outer).1 < n :=
              hn ▸ weight_step_lt hc h
            rw [hstep] at hkeep hinnerLess
            have hinnerReadable : Readable
                (⟨Pointer.canonical reference, body.members⟩ :: ⟨pointer, pending⟩ :: outer) := by
              intro other hother
              rcases List.mem_cons.mp hother with rfl | hother
              · exact exists_tokens_of_includes hincludes
              · exact hreadable other hother
            obtain ⟨foundInner, hfoundInner, hinner⟩ := ih _ hinnerLess _ _ hkeep rfl hinnerReadable
            refine ⟨.included depth reference :: (foundInner ++ found), fun trail => ?_, ?_⟩
            · rw [run_eq_of_step hc h hkeep hstep, hfoundInner, hfound, trail_append, trail_append]
              rfl
            · rw [flattenedOf_included_cons, flattenedOf_append]
              refine .expand ?_ hincludes ?_ hrest
              · rwa [List.mem_reverse]
              · simpa [Stack.path] using hinner

include hread in
/-- A walk finds what the members of its definition flatten to. -/
theorem flattens_walk {start : Definition} (hstart : start ∈ document.definitions) :
    Flattens document start.name [start.pointer] start.pointer start.body.members
      (flattenedOf (walk document start)) := by
  have hreadable : Readable [⟨start.pointer, start.body.members⟩] := by
    intro pointer hpointer
    rw [List.mem_singleton.mp hpointer]
    exact ⟨_, Document.tokens?_pointer hread hstart⟩
  obtain ⟨found, hrun, hflattens⟩ := exists_flattens_run hread
    (Supply.covers_of document start.body) _ _ []
    (admissible_start document start.pointer start.body) rfl hreadable
  have hwalk : walk document start = found := by
    rw [walk, hrun, run]
    simp
  rw [hwalk]
  exact hflattens

end Walk

/-- **A definition flattens to the properties and the diagnostics of its walk, in the order of the
walk, and to nothing else.** -/
theorem flattens_iff_eq_resolve {value : Json} {document : Document}
    (hread : Document.ofJson value = .ok document) {start : Definition}
    (hstart : start ∈ document.definitions) (result : Flattened) :
    Flattens document start.name [start.pointer] start.pointer start.body.members result
      ↔ result = ⟨(resolve document start).properties, (resolve document start).diagnostics⟩ := by
  have hwalk : Flattens document start.name [start.pointer] start.pointer start.body.members
      ⟨(resolve document start).properties, (resolve document start).diagnostics⟩ :=
    flattens_walk hread hstart
  constructor
  · intro h
    exact h.functional hwalk
  · rintro rfl
    exact hwalk

/-! ## Two bodies that refer to each other -/

/-- A body of `A` that includes `B`, refers to a missing `C` and requires `x`, and a body of `B`
that includes `A` and declares `y`. -/
def mutualFields : Json.Fields :=
  [("A", .object [("allof", .array [
      .object [("$ref", .string "#/B")],
      .object [("$ref", .string "#/C")],
      .object [("properties", .object [("x", .object [])]),
        ("required", .array [.string "x"])]])]),
    ("B", .object [("allof", .array [
      .object [("$ref", .string "#/A")],
      .object [("properties", .object [("y", .object [])])]])])]

/-- The definition of `A`. -/
def mutualStart : Definition where
  name := "A"
  pointer := "/A"
  body := ⟨[.reference "#/B", .reference "#/C",
    .inline ⟨"/allof/2", [⟨"x", .object [], none⟩], ["x"]⟩]⟩

/-- The document of both definitions. -/
def mutualDocument : Document where
  fields := mutualFields
  definitions := [mutualStart,
    ⟨"B", "/B", ⟨[.reference "#/A", .inline ⟨"/allof/1", [⟨"y", .object [], none⟩], []⟩]⟩⟩]

theorem ofJson_mutualFields : Document.ofJson (.object mutualFields) = .ok mutualDocument :=
  rfl

theorem mutualStart_mem : mutualStart ∈ mutualDocument.definitions := List.mem_cons_self

/-- The body of `B` is expanded inside that of `A` up to the reference back, and the failure of the
missing reference comes after it. -/
theorem flattens_mutualStart :
    Document.ofJson (.object mutualFields) = .ok mutualDocument ∧
      mutualStart ∈ mutualDocument.definitions ∧
      Flattens mutualDocument "A" ["/A"] "/A" mutualStart.body.members
        ⟨[⟨⟨"y", .object [], none⟩, false, "B", "/B/allof/1"⟩,
          ⟨⟨"x", .object [], none⟩, true, "A", "/A/allof/2"⟩],
        [.cyclicReference "A" ["#/A", "#/B", "#/A"], .reference "A" "#/C" .notFound]⟩ :=
  ⟨ofJson_mutualFields, mutualStart_mem,
    (flattens_iff_eq_resolve ofJson_mutualFields mutualStart_mem _).mpr (by decide +kernel)⟩

end Resolution

end SchemaHeader

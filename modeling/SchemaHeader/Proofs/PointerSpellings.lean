import SchemaHeader.Proofs.PointerPaths
import SchemaHeader.Proofs.Flattening

set_option autoImplicit false

/-! # Spellings of a pointer

A walk knows a body by the text of its pointer, while looking it up goes by the tokens that the text
is read as. A tilde that starts no escape is read as itself, so `/a~b` and `/a~0b` lead to the same
field, and **a walk takes two spellings of one pointer for two bodies**.

* `Pointer.eq_ofPath_of_tokens?`: a pointer in which every tilde starts an escape is the only such
  spelling of its path.
* `Resolution.Passes`: the stacks that a walk comes through; `Resolution.Passes.sound` says what
  their frames have in common.
* `Resolution.JudgedByPosition`: what becomes of a reference depends on the position that it
  addresses alone. It does if the pointers of the document are well spelled
  (`Resolution.judgedByPosition_of_wellSpelled`), and it does not in general
  (`Resolution.not_judgedByPosition`).
-/

namespace SchemaHeader

/-! ## Well-spelled pointers -/

namespace Pointer

/-- Whether every tilde of a text starts an escape. -/
def wellEscaped : List Char → Bool
  | [] => true
  | '~' :: '0' :: rest => wellEscaped rest
  | '~' :: '1' :: rest => wellEscaped rest
  | '~' :: _ => false
  | _ :: rest => wellEscaped rest

/-- **A pointer without tildes of its own**: each of them is written as an escape. -/
def WellSpelled (pointer : String) : Prop :=
  wellEscaped pointer.toList = true

instance (pointer : String) : Decidable (WellSpelled pointer) :=
  inferInstanceAs (Decidable (wellEscaped pointer.toList = true))

/-- The pointer that writes a path, token by token. -/
def ofPath (path : List String) : String :=
  String.join (path.map ofField)

theorem wellEscaped_cons {c : Char} (hc : c ≠ '~') (rest : List Char) :
    wellEscaped (c :: rest) = wellEscaped rest := by
  rw [wellEscaped]
  · rintro _ rfl
    exact absurd rfl hc
  · rintro _ rfl
    exact absurd rfl hc
  · exact hc

theorem unescapeChars_cons {c : Char} (hc : c ≠ '~') (rest : List Char) :
    unescapeChars (c :: rest) = c :: unescapeChars rest := by
  rw [unescapeChars]
  · rintro _ rfl
    exact absurd rfl hc
  · rintro _ rfl
    exact absurd rfl hc

/-- A written token is well spelled. -/
theorem wellEscaped_escapeChars (s : List Char) : wellEscaped (escapeChars s) = true := by
  induction s with
  | nil => rfl
  | cons c rest ih =>
      by_cases htilde : c = '~'
      · rw [escapeChars, if_pos htilde]
        exact ih
      · by_cases hslash : c = '/'
        · rw [escapeChars, if_neg htilde, if_pos hslash]
          exact ih
        · rw [escapeChars, if_neg htilde, if_neg hslash, wellEscaped_cons htilde]
          exact ih

/-- The pointer of a name is well spelled. -/
theorem wellSpelled_ofField (name : String) : WellSpelled (ofField name) := by
  rw [WellSpelled, toList_ofField, wellEscaped_cons (by decide)]
  exact wellEscaped_escapeChars name.toList

/-- Dropping the fragment mark keeps a pointer well spelled. -/
theorem WellSpelled.canonical {pointer : String} (h : WellSpelled pointer) :
    WellSpelled (Pointer.canonical pointer) := by
  unfold Pointer.canonical
  split
  · rename_i rest hmark
    rw [WellSpelled, hmark, wellEscaped_cons (by decide)] at h
    rw [WellSpelled, String.toList_ofList]
    exact h
  · exact h

/-! ## One spelling for each path -/

/-- A character that is no slash belongs to the first piece. -/
theorem splitSlash_cons {c : Char} (hc : c ≠ '/') (rest : List Char) :
    ∃ piece pieces, Text.splitSlash rest = piece :: pieces ∧
      Text.splitSlash (c :: rest) = (c :: piece) :: pieces := by
  cases hsplit : Text.splitSlash rest with
  | nil => exact absurd hsplit (Text.splitSlash_ne_nil rest)
  | cons piece pieces =>
      refine ⟨piece, pieces, rfl, ?_⟩
      rw [Text.splitSlash, if_neg hc, hsplit]

theorem splitSlash_cons_cons {c d : Char} (hc : c ≠ '/') (hd : d ≠ '/') (rest : List Char) :
    ∃ piece pieces, Text.splitSlash rest = piece :: pieces ∧
      Text.splitSlash (c :: d :: rest) = (c :: d :: piece) :: pieces := by
  obtain ⟨piece, pieces, hrest, hinner⟩ := splitSlash_cons hd rest
  obtain ⟨piece', pieces', hinner', houter⟩ := splitSlash_cons hc (d :: rest)
  rw [hinner] at hinner'
  cases hinner'
  exact ⟨piece, pieces, hrest, houter⟩

/-- **Reading the tokens of a well-spelled text and writing them again gives the text back.** -/
theorem respell_splitSlash {s : List Char} (h : wellEscaped s = true) :
    (Text.splitSlash s).flatMap (fun token => '/' :: escapeChars (unescapeChars token))
      = '/' :: s := by
  -- An escape is two characters of one piece, so the induction takes it as a whole.
  induction s using wellEscaped.induct with
  | case1 => rfl
  | case2 rest ih =>
      obtain ⟨piece, pieces, hrest, hescape⟩ :=
        splitSlash_cons_cons (c := '~') (d := '0') (by decide) (by decide) rest
      have hih := ih h
      rw [hrest] at hih
      simp only [List.flatMap_cons, List.cons_append, List.cons.injEq, true_and] at hih
      rw [hescape]
      simp [unescapeChars, escapeChars, hih]
  | case3 rest ih =>
      obtain ⟨piece, pieces, hrest, hescape⟩ :=
        splitSlash_cons_cons (c := '~') (d := '1') (by decide) (by decide) rest
      have hih := ih h
      rw [hrest] at hih
      simp only [List.flatMap_cons, List.cons_append, List.cons.injEq, true_and] at hih
      rw [hescape]
      simp [unescapeChars, escapeChars, hih]
  | case4 rest hzero hone =>
      rw [wellEscaped] at h
      · cases h
      · exact hzero
      · exact hone
  | case5 c rest hzero hone htilde ih =>
      have hc : c ≠ '~' := htilde
      rw [wellEscaped_cons hc] at h
      have hih := ih h
      by_cases hslash : c = '/'
      · subst hslash
        rw [Text.splitSlash, if_pos rfl, List.flatMap_cons, hih]
        rfl
      · obtain ⟨piece, pieces, hrest, hcons⟩ := splitSlash_cons hslash rest
        rw [hrest] at hih
        simp only [List.flatMap_cons, List.cons_append, List.cons.injEq, true_and] at hih
        rw [hcons, List.flatMap_cons, unescapeChars_cons hc, escapeChars, if_neg hc, if_neg hslash,
          ← hih]
        rfl

theorem toList_ofPath (path : List String) :
    (ofPath path).toList = path.flatMap fun token => '/' :: escapeChars token.toList := by
  induction path with
  | nil => rfl
  | cons token rest ih =>
      have hcons : ofPath (token :: rest) = ofField token ++ ofPath rest := String.join_cons
      rw [hcons, String.toList_append, toList_ofField, ih, List.flatMap_cons]

/-- **A well-spelled pointer is the pointer that writes its path**, so no other well-spelled one is
read as the same path. -/
theorem eq_ofPath_of_tokens? {pointer : String} {path : List String}
    (hspelled : WellSpelled pointer) (h : tokens? pointer = some path) :
    pointer = ofPath path := by
  rcases tokens?_cases h with ⟨rfl, rfl⟩ | ⟨rest, hrest, rfl⟩
  · rfl
  · rw [WellSpelled, hrest, wellEscaped_cons (by decide)] at hspelled
    apply String.toList_inj.mp
    rw [hrest, toList_ofPath, List.flatMap_map, ← respell_splitSlash hspelled]
    simp only [String.toList_ofList]

end Pointer

namespace Resolution

/-! ## The states of a walk -/

/-- **The states of a walk**: the stack that it starts with, and those that its steps lead to. -/
inductive Passes (document : Document) (start : Definition) : Stack → Prop where
  | start : Passes document start [⟨start.pointer, start.body.members⟩]
  | step {frame : Frame} {outer : Stack} (h : Passes document start (frame :: outer)) :
      Passes document start (step document start.name frame outer).1

/-- **What a step does to the stack**: it leaves the innermost frame, or visits one of its members,
and enters the body of that member if it is a reference to expand. -/
theorem step_stack_cases (document : Document) (definition : String) (frame : Frame)
    (outer : Stack) :
    (step document definition frame outer).1 = outer ∨
    ∃ member pending, frame.pending = member :: pending ∧
      ((step document definition frame outer).1 = { frame with pending } :: outer ∨
      ∃ reference body, member = .reference reference ∧ Includes document reference body ∧
        (step document definition frame outer).1
          = ⟨Pointer.canonical reference, body.members⟩ :: { frame with pending } :: outer) := by
  unfold step
  split
  · exact Or.inl rfl
  · rename_i member pending hpending
    refine Or.inr ⟨member, pending, hpending, ?_⟩
    cases member with
    | inline schema => exact Or.inl rfl
    | malformed fault => exact Or.inl rfl
    | reference reference =>
        simp only
        split
        · rename_i inner hfollow
          obtain ⟨hpointer, _, body, hbody, hinner⟩ := follow_ok hfollow
          rw [hpointer] at hinner
          exact Or.inr ⟨reference, body, rfl, includes_of_target hbody, by rw [hinner]⟩
        · exact Or.inl rfl

/-- **The invariant of a frame**: its pointer is that of the definition or comes from a reference of
the document, it leads somewhere, and its pending references stand in the document. -/
structure Frame.Sound (document : Document) (start : Definition) (frame : Frame) : Prop where
  pointer : frame.pointer = start.pointer ∨
    ∃ reference ∈ document.root.references, frame.pointer = Pointer.canonical reference
  resolves : ∃ part, document.root.resolve? frame.pointer = some part
  pending : ∀ reference, .reference reference ∈ frame.pending →
    reference ∈ document.root.references

section States

variable {value : Json} {document : Document} {start : Definition} {stack : Stack}
  (hkeys : value.UniqueKeys) (hread : Document.ofJson value = .ok document)
  (hstart : start ∈ document.definitions)

/-- The references of a body that a pointer addresses stand in the document. -/
theorem reference_mem_of_bodyAt? {pointer reference : String} {body : Composition}
    (hbody : document.bodyAt? pointer = some body) (h : .reference reference ∈ body.members) :
    reference ∈ document.root.references := by
  obtain ⟨part, hpart, hcomposition⟩ := Option.bind_eq_some_iff.mp hbody
  obtain ⟨path, _, hdescend⟩ := Option.bind_eq_some_iff.mp hpart
  exact Json.references_of_descend? hdescend reference
    (Composition.reference_mem_references hcomposition h)

/-- The frame of a body that is expanded is sound. -/
theorem sound_of_includes {reference : String} {body : Composition}
    (hreference : reference ∈ document.root.references)
    (hincludes : Includes document reference body) :
    Frame.Sound document start ⟨Pointer.canonical reference, body.members⟩ := by
  obtain ⟨part, hpart, _, hbody⟩ := hincludes
  have haddressed : document.bodyAt? (Pointer.canonical reference) = some body :=
    Option.bind_eq_some_iff.mpr ⟨part, hpart, hbody⟩
  exact ⟨Or.inr ⟨reference, hreference, rfl⟩, ⟨part, hpart⟩,
    fun other hother => reference_mem_of_bodyAt? haddressed hother⟩

/-- A frame stays sound when one of its members has been visited. -/
theorem Frame.Sound.visit {frame : Frame} {member : Member} {pending : List Member}
    (h : frame.Sound document start) (hpending : frame.pending = member :: pending) :
    Frame.Sound document start { frame with pending } where
  pointer := h.pointer
  resolves := h.resolves
  pending := fun reference hreference =>
    h.pending reference (by rw [hpending]; exact List.mem_cons_of_mem _ hreference)

/-- Every step keeps the frames of a stack sound. -/
theorem sound_step {frame : Frame} {outer : Stack}
    (h : ∀ other ∈ frame :: outer, other.Sound document start) :
    ∀ other ∈ (step document start.name frame outer).1, other.Sound document start := by
  have hframe : frame.Sound document start := h frame List.mem_cons_self
  have houter : ∀ other ∈ outer, other.Sound document start := fun other hother =>
    h other (List.mem_cons_of_mem _ hother)
  rcases step_stack_cases document start.name frame outer with
    hstep | ⟨member, pending, hpending, hstep | ⟨reference, body, rfl, hincludes, hstep⟩⟩
  · rw [hstep]
    exact houter
  · rw [hstep]
    exact List.forall_mem_cons.mpr ⟨hframe.visit hpending, houter⟩
  · have hreference : reference ∈ document.root.references :=
      hframe.pending reference (by rw [hpending]; exact List.mem_cons_self)
    rw [hstep]
    exact List.forall_mem_cons.mpr ⟨sound_of_includes hreference hincludes,
      List.forall_mem_cons.mpr ⟨hframe.visit hpending, houter⟩⟩

include hkeys hread hstart in
/-- **The frames of every state of a walk are sound.** -/
theorem Passes.sound (h : Passes document start stack) :
    ∀ frame ∈ stack, frame.Sound document start := by
  induction h with
  | start =>
      have hbody := Document.bodyAt?_pointer hread hkeys hstart
      obtain ⟨part, hpart, _⟩ := Option.bind_eq_some_iff.mp hbody
      intro frame hframe
      rw [List.mem_singleton.mp hframe]
      exact ⟨Or.inl rfl, ⟨part, hpart⟩, fun reference => reference_mem_of_bodyAt? hbody⟩
  | step _ ih => exact sound_step ih

/-- The pointers of every state of a walk are distinct texts. -/
theorem Passes.nodup_path (h : Passes document start stack) : stack.path.Nodup := by
  have hadmissible : Admissible (Supply.of document start.body) stack := by
    induction h with
    | start => exact admissible_start document start.pointer start.body
    | step _ ih => exact admissible_step (Supply.covers_of document start.body) ih
  exact hadmissible.distinct

/-! ## References by position -/

/-- **What becomes of a reference depends on the position that it addresses**, by whatever text: it
is a cycle exactly if a body on the stack stands at that position, and otherwise a definition at
that position is expanded, be its body empty or not. -/
structure JudgedByPosition (document : Document) (definition : String) (stack : Stack)
    (reference : String) : Prop where
  cycle : (∃ cycle, follow document definition stack.path reference
      = .error (.cyclicReference definition cycle)) ↔
    ∃ frame ∈ stack,
      Pointer.tokens? frame.pointer = Pointer.tokens? (Pointer.canonical reference)
  expands : ∀ named ∈ document.definitions,
    Pointer.tokens? (Pointer.canonical reference) = some [named.name] →
    (∀ frame ∈ stack, Pointer.tokens? frame.pointer ≠ some [named.name]) →
    follow document definition stack.path reference = .ok ⟨named.pointer, named.body.members⟩

/-- A reference is reported as a cycle if its text is on the path. -/
theorem follow_cyclic_iff {definition reference : String} {path : List String} :
    (∃ cycle, follow document definition path reference
      = .error (.cyclicReference definition cycle)) ↔ Pointer.canonical reference ∈ path := by
  constructor
  · rintro ⟨cycle, hcycle⟩
    rcases follow_error hcycle with ⟨hon, _⟩ | ⟨_, _, _, hreference⟩
    · exact hon
    · cases hreference
  · intro hon
    exact ⟨closeCycle path (Pointer.canonical reference), by simp [follow, hon]⟩

include hkeys hread in
/-- The pointer of a definition stands for the body of the definition. -/
theorem target_of_canonical_eq {named : Definition} (hnamed : named ∈ document.definitions)
    {reference : String} (h : Pointer.canonical reference = named.pointer) :
    target document reference = .ok named.body := by
  obtain ⟨part, hpart, hbody⟩ :=
    Option.bind_eq_some_iff.mp (Document.bodyAt?_pointer hread hkeys hnamed)
  have hdefinition : document.isDefinition named.pointer = true :=
    Document.isDefinition_iff.mpr ⟨named, hnamed, rfl⟩
  simp [target, Document.lookup?, h, hpart, hdefinition, hbody]

include hread hstart in
/-- The pointers of sound frames are well spelled if those of the document are. -/
theorem Frame.Sound.wellSpelled {frame : Frame} (h : frame.Sound document start)
    (hspelled : ∀ reference ∈ document.root.references, Pointer.WellSpelled reference) :
    Pointer.WellSpelled frame.pointer := by
  rcases h.pointer with hpointer | ⟨reference, hreference, hpointer⟩
  · obtain ⟨_, _, hfield, _⟩ := Document.exists_field_of_mem hread hstart
    rw [hpointer, hfield]
    exact Pointer.wellSpelled_ofField start.name
  · rw [hpointer]
    exact (hspelled reference hreference).canonical

theorem Frame.Sound.exists_tokens {frame : Frame} (h : frame.Sound document start) :
    ∃ path, Pointer.tokens? frame.pointer = some path := by
  obtain ⟨part, hpart⟩ := h.resolves
  obtain ⟨path, hpath, _⟩ := Option.bind_eq_some_iff.mp hpart
  exact ⟨path, hpath⟩

/-- **Well-spelled references are judged by position.** In every state of every walk through a
document whose references are all well spelled, the bodies on the stack stand at different
positions, and what becomes of a well-spelled reference that leads somewhere depends on its position
alone. -/
theorem judgedByPosition_of_wellSpelled {value : Json} {document : Document} {start : Definition}
    (hkeys : value.UniqueKeys) (hread : Document.ofJson value = .ok document)
    (hstart : start ∈ document.definitions)
    (hspelled : ∀ reference ∈ document.root.references, Pointer.WellSpelled reference)
    {stack : Stack} (hstack : Passes document start stack) :
    (stack.map fun frame => Pointer.tokens? frame.pointer).Nodup ∧
      ∀ reference part, Pointer.WellSpelled reference → document.lookup? reference = some part →
        JudgedByPosition document start.name stack reference := by
  have hsound := hstack.sound hkeys hread hstart
  have hframe : ∀ frame ∈ stack, Pointer.WellSpelled frame.pointer := fun frame hmem =>
    (hsound frame hmem).wellSpelled hread hstart hspelled
  -- Well-spelled pointers of one path are one text, which is what the walk compares.
  have hsame : ∀ frame ∈ stack, ∀ pointer, Pointer.WellSpelled pointer →
      Pointer.tokens? frame.pointer = Pointer.tokens? pointer → frame.pointer = pointer := by
    intro frame hmem pointer hpointer htokens
    obtain ⟨path, hpath⟩ := (hsound frame hmem).exists_tokens
    rw [Pointer.eq_ofPath_of_tokens? (hframe frame hmem) hpath,
      Pointer.eq_ofPath_of_tokens? hpointer (htokens.symm.trans hpath)]
  refine ⟨?_, fun reference part hreference hpart => ⟨?_, ?_⟩⟩
  · have hpath : (stack.map Frame.pointer).Nodup := hstack.nodup_path
    rw [show (fun frame : Frame => Pointer.tokens? frame.pointer)
      = Pointer.tokens? ∘ Frame.pointer from rfl, ← List.map_map]
    refine hpath.map_on ?_
    intro first hfirst second hsecond heq
    obtain ⟨frame, hmem, rfl⟩ := List.mem_map.mp hfirst
    obtain ⟨other, hother, rfl⟩ := List.mem_map.mp hsecond
    exact hsame frame hmem other.pointer (hframe other hother) heq
  · rw [follow_cyclic_iff, Stack.path, List.mem_map]
    constructor
    · rintro ⟨frame, hmem, heq⟩
      exact ⟨frame, hmem, by rw [heq]⟩
    · rintro ⟨frame, hmem, heq⟩
      exact ⟨frame, hmem, hsame frame hmem _ hreference.canonical heq⟩
  · intro named hnamed hposition hoff
    have hcanonical : Pointer.canonical reference = named.pointer := by
      obtain ⟨_, _, hfield, _⟩ := Document.exists_field_of_mem hread hnamed
      rw [hfield, Pointer.eq_ofPath_of_tokens? hreference.canonical hposition,
        Pointer.eq_ofPath_of_tokens? (Pointer.wellSpelled_ofField named.name)
          (Pointer.tokens?_ofField named.name)]
    have hnew : named.pointer ∉ stack.path := by
      intro hmem
      obtain ⟨frame, hframe, heq⟩ := List.mem_map.mp hmem
      exact hoff frame hframe (by rw [heq, Document.tokens?_pointer hread hnamed])
    simp [follow, hcanonical, hnew, target_of_canonical_eq hkeys hread hnamed hcanonical]

end States

/-! ## Two names with a tilde -/

/-- The fields of `a~b`, with an empty body, and of `A~`, whose body has two references. -/
def tildeFields (first second : String) : Json.Fields :=
  [("a~b", .object []),
    ("A~", .object [("allof", .array [
      .object [("$ref", .string first)], .object [("$ref", .string second)]])])]

/-- The definition of `A~`. -/
def tildeStart (first second : String) : Definition :=
  ⟨"A~", "/A~0", ⟨[.reference first, .reference second]⟩⟩

/-- The document of both definitions. -/
def tildeDocument (first second : String) : Document :=
  ⟨tildeFields first second, [⟨"a~b", "/a~0b", ⟨[]⟩⟩, tildeStart first second]⟩

theorem ofJson_tildeFields (first second : String) :
    Document.ofJson (.object (tildeFields first second)) = .ok (tildeDocument first second) := by
  have hlower : "/a~0b" = Pointer.ofField "a~b" := by decide +kernel
  have hupper : "/A~0" = Pointer.ofField "A~" := by decide +kernel
  rw [tildeDocument, tildeStart, hlower, hupper]
  rfl

theorem uniqueKeys_tildeFields (first second : String) :
    (Json.object (tildeFields first second)).UniqueKeys := by
  simp [tildeFields, Json.UniqueKeys, Json.UniqueKeysFields, Json.UniqueKeysItems]

theorem tildeStart_mem (first second : String) :
    tildeStart first second ∈ (tildeDocument first second).definitions :=
  List.mem_cons_of_mem _ List.mem_cons_self

/-- With escapes, the empty body of `a~b` is expanded, and the reference of `A~` to itself is a
cycle. -/
theorem judgedByPosition_tildeDocument :
    (Json.object (tildeFields "#/a~0b" "#/A~0")).UniqueKeys ∧
      Document.ofJson (.object (tildeFields "#/a~0b" "#/A~0"))
        = .ok (tildeDocument "#/a~0b" "#/A~0") ∧
      tildeStart "#/a~0b" "#/A~0" ∈ (tildeDocument "#/a~0b" "#/A~0").definitions ∧
      (∀ reference ∈ (tildeDocument "#/a~0b" "#/A~0").root.references,
        Pointer.WellSpelled reference) ∧
      Passes (tildeDocument "#/a~0b" "#/A~0") (tildeStart "#/a~0b" "#/A~0")
        [⟨"/A~0", [.reference "#/a~0b", .reference "#/A~0"]⟩] ∧
      follow (tildeDocument "#/a~0b" "#/A~0") "A~" ["/A~0"] "#/a~0b" = .ok ⟨"/a~0b", []⟩ ∧
      ∃ cycle, follow (tildeDocument "#/a~0b" "#/A~0") "A~" ["/A~0"] "#/A~0"
        = .error (.cyclicReference "A~" cycle) := by
  have hspelled : ∀ reference ∈ (tildeDocument "#/a~0b" "#/A~0").root.references,
      Pointer.WellSpelled reference := by decide +kernel
  have hkeys := uniqueKeys_tildeFields "#/a~0b" "#/A~0"
  have hread := ofJson_tildeFields "#/a~0b" "#/A~0"
  have hstart := tildeStart_mem "#/a~0b" "#/A~0"
  have hjudged := (judgedByPosition_of_wellSpelled hkeys hread hstart hspelled .start).2
  refine ⟨hkeys, hread, hstart, hspelled, .start, ?_, ?_⟩
  · exact (hjudged "#/a~0b" (.object []) (by decide +kernel) (by decide +kernel)).expands
      ⟨"a~b", "/a~0b", ⟨[]⟩⟩ List.mem_cons_self (by decide +kernel) (by decide +kernel)
  · exact (hjudged "#/A~0" (.object [("allof", .array [.object [("$ref", .string "#/a~0b")],
      .object [("$ref", .string "#/A~0")]])]) (by decide +kernel)
      (by decide +kernel)).cycle.mpr ⟨_, List.mem_cons_self, by decide +kernel⟩

/-- **Without escapes, references are not judged by position**: the definition `a~b` cannot be
referred to as `#/a~b`, although that leads to it, and the reference `#/A~` of `A~` to itself is
expanded, so that one body is on the stack twice. -/
theorem not_judgedByPosition :
    (Json.object (tildeFields "#/a~b" "#/A~")).UniqueKeys ∧
      Document.ofJson (.object (tildeFields "#/a~b" "#/A~"))
        = .ok (tildeDocument "#/a~b" "#/A~") ∧
      tildeStart "#/a~b" "#/A~" ∈ (tildeDocument "#/a~b" "#/A~").definitions ∧
      (tildeDocument "#/a~b" "#/A~").lookup? "#/a~b" = some (.object []) ∧
      ∃ stack, Passes (tildeDocument "#/a~b" "#/A~") (tildeStart "#/a~b" "#/A~") stack ∧
        ¬ JudgedByPosition (tildeDocument "#/a~b" "#/A~") "A~" stack "#/a~b" ∧
        ¬ JudgedByPosition (tildeDocument "#/a~b" "#/A~") "A~" stack "#/A~" ∧
        ∃ later, Passes (tildeDocument "#/a~b" "#/A~") (tildeStart "#/a~b" "#/A~") later ∧
          ¬ (later.map fun frame => Pointer.tokens? frame.pointer).Nodup := by
  refine ⟨uniqueKeys_tildeFields _ _, ofJson_tildeFields _ _, tildeStart_mem _ _,
    by decide +kernel, _, .start, ?_, ?_, _, .step (.step .start), ?_⟩
  · intro h
    have hexpands := h.expands ⟨"a~b", "/a~0b", ⟨[]⟩⟩ List.mem_cons_self (by decide +kernel)
      (by decide +kernel)
    have hrefused : follow (tildeDocument "#/a~b" "#/A~") "A~" ["/A~0"] "#/a~b"
        = .error (.reference "A~" "#/a~b" (.notComposable .object)) := by decide +kernel
    cases hrefused.symm.trans hexpands
  · intro h
    have hcycle := h.cycle.mpr ⟨_, List.mem_cons_self, by decide +kernel⟩
    rw [follow_cyclic_iff] at hcycle
    revert hcycle
    decide +kernel
  · decide +kernel

end Resolution

end SchemaHeader

import Mathlib.Data.Finset.Card
import Mathlib.Logic.Function.Iterate
import SchemaHeader.Proofs.PointerSpellings

set_option autoImplicit false

/-! # The rounds of a walk

A walk goes round by round: it steps as long as there is a frame. No counter of the document bounds
the rounds directly, since one body may be entered many times, but **each frame beyond the first one
takes a pointer out of a finite stock** and gives it back only when it is left.

* `Json.mem_references_iff`: the references of a value are the texts under `$ref` keys, at any path.
* `Resolution.exists_rounds_run`: the rounds come to an end, with what `run` gives.
* `Resolution.mem_walk_iff`: a walk finds what the steps of its states find.
* `Resolution.walk_ends_within_stock`: every walk ends, and its stack never holds more frames than
  the document has pointers in its references, and one.
-/

namespace SchemaHeader

/-! ## References at any depth -/

namespace Json

theorem mem_referencesItems_iff (items : List Json) (text : String) :
    text ∈ referencesItems items ↔ ∃ item ∈ items, text ∈ item.references := by
  induction items with
  | nil => simp [referencesItems]
  | cons item rest ih => simp [referencesItems, ih]

theorem mem_referencesFields_iff (fields : Fields) (text : String) :
    text ∈ referencesFields fields ↔ ∃ field ∈ fields, text ∈ field.2.references := by
  induction fields with
  | nil => simp [referencesFields]
  | cons field rest ih =>
      obtain ⟨key, value⟩ := field
      simp [referencesFields, ih]

theorem reference?_eq_some_iff {fields : Fields} {text : String} :
    fields.reference? = some text ↔ fields.get? "$ref" = some (.string text) := by
  rw [Fields.reference?, Option.bind_eq_some_iff]
  constructor
  · rintro ⟨found, hfound, htext⟩
    cases found with
    | string other =>
        cases htext
        exact hfound
    | null => cases htext
    | bool => cases htext
    | number => cases htext
    | array => cases htext
    | object => cases htext
  · intro hfound
    exact ⟨.string text, hfound, rfl⟩

/-- A step of a path leads on to what it leads to. -/
theorem descend?_cons_of_child? {value part : Json} {token : String}
    (h : value.child? token = some part) (path : List String) :
    value.descend? (token :: path) = part.descend? path := by
  rw [descend?, h, Option.bind_some]

/-- **A path leads to every reference.** -/
theorem exists_path_of_mem_references {text : String} :
    ∀ value : Json, value.UniqueKeys → text ∈ value.references →
      ∃ (path : List String) (fields : Fields), value.descend? path = some (.object fields) ∧
        fields.get? "$ref" = some (.string text)
  | .array items, hkeys, h => by
      obtain ⟨item, hitem, htext⟩ := (mem_referencesItems_iff items text).mp h
      obtain ⟨i, hi⟩ := List.mem_iff_getElem?.mp hitem
      have hunique : item.UniqueKeys := (uniqueKeysItems_iff items).mp hkeys item hitem
      have hchild : (Json.array items).child? (toString i) = some item := by
        rw [child?, Pointer.index?_toString, Option.bind_some, hi]
      obtain ⟨path, fields, hpath, hfields⟩ := exists_path_of_mem_references item hunique htext
      exact ⟨toString i :: path, fields, (descend?_cons_of_child? hchild path).trans hpath, hfields⟩
  | .object fields, hkeys, h => by
      rw [references, List.mem_append, Option.mem_toList, reference?_eq_some_iff] at h
      rcases h with hhere | hbelow
      · exact ⟨[], fields, rfl, hhere⟩
      · obtain ⟨field, hfield, htext⟩ := (mem_referencesFields_iff fields text).mp hbelow
        obtain ⟨hnodup, hunique⟩ := (uniqueKeys_object fields).mp hkeys
        have hchild : (Json.object fields).child? field.1 = some field.2 :=
          Fields.get?_of_mem hnodup hfield
        obtain ⟨path, inner, hpath, hinner⟩ :=
          exists_path_of_mem_references field.2 (hunique field hfield) htext
        exact ⟨field.1 :: path, inner, (descend?_cons_of_child? hchild path).trans hpath, hinner⟩
  | .null, _, h => by cases h
  | .bool _, _, h => by cases h
  | .number _, _, h => by cases h
  | .string _, _, h => by cases h
termination_by value => sizeOf value
decreasing_by
  · have hsize := List.sizeOf_lt_of_mem hitem
    simp only [Json.array.sizeOf_spec]
    omega
  · have hsize := List.sizeOf_lt_of_mem hfield
    have hvalue : sizeOf field.2 < sizeOf field := by
      obtain ⟨key, part⟩ := field
      simp only [Prod.mk.sizeOf_spec]
      omega
    simp only [Json.object.sizeOf_spec]
    omega

/-- **The references of a value are the texts under its `$ref` keys**, wherever a path leads. -/
theorem mem_references_iff {value : Json} (hkeys : value.UniqueKeys) {text : String} :
    text ∈ value.references ↔
      ∃ (path : List String) (fields : Fields), value.descend? path = some (.object fields) ∧
        fields.get? "$ref" = some (.string text) := by
  constructor
  · exact exists_path_of_mem_references value hkeys
  · rintro ⟨path, fields, hpath, hfields⟩
    apply references_of_descend? hpath
    rw [references, List.mem_append, Option.mem_toList, reference?_eq_some_iff]
    exact Or.inl hfields

end Json

/-- **The stock of pointers of a document**: those that its references bring up, each of them
once. -/
def Document.stock (document : Document) : Finset String :=
  (document.root.references.map Pointer.canonical).toFinset

theorem Document.mem_stock_iff {document : Document} (hkeys : document.root.UniqueKeys)
    (pointer : String) :
    pointer ∈ document.stock ↔ ∃ (path : List String) (fields : Json.Fields) (reference : String),
      document.root.descend? path = some (.object fields) ∧
      fields.get? "$ref" = some (.string reference) ∧ Pointer.canonical reference = pointer := by
  rw [stock, List.mem_toFinset, List.mem_map]
  constructor
  · rintro ⟨reference, hreference, rfl⟩
    obtain ⟨path, fields, hpath, hfields⟩ := (Json.mem_references_iff hkeys).mp hreference
    exact ⟨path, fields, reference, hpath, hfields, rfl⟩
  · rintro ⟨path, fields, reference, hpath, hfields, rfl⟩
    exact ⟨reference, (Json.mem_references_iff hkeys).mpr ⟨path, fields, hpath, hfields⟩, rfl⟩

namespace Resolution

/-! ## Rounds -/

/-- **One round of a walk**: a step, if there is a frame left, whose findings are kept. -/
def advance (document : Document) (definition : String) (state : Stack × List Finding) :
    Stack × List Finding :=
  match state.1 with
  | [] => state
  | frame :: outer =>
    let next := step document definition frame outer
    (next.1, state.2 ++ next.2)

/-- The stack of a walk and what it has found, after a number of rounds. -/
def after (document : Document) (start : Definition) (rounds : Nat) : Stack × List Finding :=
  (advance document start.name)^[rounds] ([⟨start.pointer, start.body.members⟩], [])

theorem after_succ (document : Document) (start : Definition) (rounds : Nat) :
    after document start (rounds + 1)
      = advance document start.name (after document start rounds) := by
  rw [after, Function.iterate_succ_apply']
  rfl

/-- A round leads from one state of a walk to another one. -/
theorem Passes.advance {document : Document} {start : Definition} {state : Stack × List Finding}
    (h : Passes document start state.1) :
    Passes document start (advance document start.name state).1 := by
  obtain ⟨stack, found⟩ := state
  cases stack with
  | nil => exact h
  | cons frame outer => exact h.step

theorem passes_after (document : Document) (start : Definition) (rounds : Nat) :
    Passes document start (after document start rounds).1 := by
  induction rounds with
  | zero => exact .start
  | succ rounds ih =>
      rw [after_succ]
      exact ih.advance

/-- **The rounds come to an end**, and then all has been found that a run finds. -/
theorem exists_rounds_run {document : Document} {definition : String} {supply : Supply}
    (hc : supply.Covers document) (n : Nat) :
    ∀ (stack : Stack) (h : Admissible supply stack) (trail : Array Finding),
      weight supply stack = n →
      ∃ rounds, (Resolution.advance document definition)^[rounds] (stack, trail.toList)
        = ([], (run document definition hc stack h trail).toList) := by
  -- Every round lowers the weight of the stack.
  induction n using Nat.strongRecOn with
  | ind n ih =>
      intro stack h trail hn
      cases stack with
      | nil =>
          refine ⟨0, ?_⟩
          rw [run]
          rfl
      | cons frame outer =>
          have hless : weight supply (step document definition frame outer).1 < n :=
            hn ▸ weight_step_lt hc h
          obtain ⟨rounds, hrounds⟩ := ih _ hless _ (admissible_step hc h)
            (trail ++ (step document definition frame outer).2) rfl
          refine ⟨rounds + 1, ?_⟩
          have hround : Resolution.advance document definition (frame :: outer, trail.toList)
              = ((step document definition frame outer).1,
                (trail ++ (step document definition frame outer).2).toList) := by
            simp [Resolution.advance]
          rw [Function.iterate_succ_apply, hround, hrounds, run]

/-- A walk ends with an empty stack and its findings. -/
theorem exists_after_eq_walk (document : Document) (start : Definition) :
    ∃ rounds, after document start rounds = ([], walk document start) :=
  exists_rounds_run (Supply.covers_of document start.body) _ _
    (admissible_start document start.pointer start.body) #[] rfl

/-! ## What the rounds find -/

section Findings

variable {document : Document} {start : Definition} {stack : Stack} {finding : Finding}

/-- Every state of a walk is there after some number of rounds. -/
theorem Passes.exists_rounds (h : Passes document start stack) :
    ∃ rounds, (after document start rounds).1 = stack := by
  induction h with
  | start => exact ⟨0, rfl⟩
  | step _ ih =>
      obtain ⟨rounds, hrounds⟩ := ih
      refine ⟨rounds + 1, ?_⟩
      rw [after_succ, Resolution.advance, hrounds]

/-- What a round finds is what the step of its state finds, beside all that was found before. -/
theorem mem_after_succ_iff (rounds : Nat) :
    finding ∈ (after document start (rounds + 1)).2 ↔
      finding ∈ (after document start rounds).2 ∨
        ∃ frame outer, (after document start rounds).1 = frame :: outer ∧
          finding ∈ (step document start.name frame outer).2 := by
  rw [after_succ, Resolution.advance]
  split
  · rename_i hnil
    simp [hnil]
  · rename_i frame outer hcons
    simp [hcons]

/-- All that the rounds find is found in states of the walk. -/
theorem exists_state_of_mem_after {rounds : Nat} (h : finding ∈ (after document start rounds).2) :
    ∃ frame outer, Passes document start (frame :: outer) ∧
      finding ∈ (step document start.name frame outer).2 := by
  induction rounds with
  | zero => exact absurd h List.not_mem_nil
  | succ rounds ih =>
      rcases (mem_after_succ_iff rounds).mp h with hbefore | ⟨frame, outer, hstack, hstep⟩
      · exact ih hbefore
      · exact ⟨frame, outer, hstack ▸ passes_after document start rounds, hstep⟩

/-- Nothing that was found is lost in later rounds. -/
theorem mem_after_of_le {rounds later : Nat} (hle : rounds ≤ later)
    (h : finding ∈ (after document start rounds).2) :
    finding ∈ (after document start later).2 := by
  induction later, hle using Nat.le_induction with
  | base => exact h
  | succ later _ ih => exact (mem_after_succ_iff later).mpr (Or.inl ih)

/-- Rounds after the end change nothing. -/
theorem after_of_ended {rounds later : Nat} (hle : rounds ≤ later)
    (h : (after document start rounds).1 = []) :
    after document start later = after document start rounds := by
  induction later, hle using Nat.le_induction with
  | base => rfl
  | succ later _ ih => rw [after_succ, ih, Resolution.advance, h]

/-- **A walk finds what the steps of its states find.** -/
theorem mem_walk_iff :
    finding ∈ walk document start ↔
      ∃ frame outer, Passes document start (frame :: outer) ∧
        finding ∈ (step document start.name frame outer).2 := by
  obtain ⟨total, htotal⟩ := exists_after_eq_walk document start
  constructor
  · intro h
    have hfound : finding ∈ (after document start total).2 := by rwa [htotal]
    exact exists_state_of_mem_after hfound
  · rintro ⟨frame, outer, hpasses, hstep⟩
    obtain ⟨rounds, hrounds⟩ := hpasses.exists_rounds
    have hfound : finding ∈ (after document start (rounds + 1)).2 :=
      (mem_after_succ_iff rounds).mpr (Or.inr ⟨frame, outer, hrounds, hstep⟩)
    -- The round may not be among the first `total` ones, so both are compared at a later one.
    have hlater := mem_after_of_le (Nat.le_max_right total (rounds + 1)) hfound
    rw [after_of_ended (Nat.le_max_left total (rounds + 1)) (by rw [htotal]), htotal] at hlater
    exact hlater

end Findings

/-! ## The depth of a walk -/

/-- **A stack holds at most one frame more than there are pointers in stock.** -/
theorem Passes.length_le {value : Json} {document : Document} {start : Definition} {stack : Stack}
    (hkeys : value.UniqueKeys) (hread : Document.ofJson value = .ok document)
    (hstart : start ∈ document.definitions) (h : Passes document start stack) :
    stack.length ≤ 1 + document.stock.card := by
  have hsubset : stack.path.toFinset ⊆ insert start.pointer document.stock := by
    intro pointer hpointer
    obtain ⟨frame, hframe, rfl⟩ := List.mem_map.mp (List.mem_toFinset.mp hpointer)
    rw [Finset.mem_insert]
    rcases (h.sound hkeys hread hstart frame hframe).pointer with hown | ⟨reference, href, heq⟩
    · exact Or.inl hown
    · refine Or.inr (List.mem_toFinset.mpr ?_)
      rw [heq]
      exact List.mem_map_of_mem href
  calc stack.length = stack.path.length := (List.length_map Frame.pointer).symm
    _ = stack.path.toFinset.card := (List.toFinset_card_of_nodup h.nodup_path).symm
    _ ≤ (insert start.pointer document.stock).card := Finset.card_le_card hsubset
    _ ≤ document.stock.card + 1 := Finset.card_insert_le _ _
    _ = 1 + document.stock.card := Nat.add_comm _ _

/-- **Every walk ends, and its depth is bounded**: after some number of rounds no frame is left, and
after any number of them the frames have different pointers and are at most one more than the
pointers in stock, which are those under the `$ref` keys of the document. -/
theorem walk_ends_within_stock {value : Json} {document : Document} {start : Definition}
    (hkeys : value.UniqueKeys) (hread : Document.ofJson value = .ok document)
    (hstart : start ∈ document.definitions) :
    (∃ rounds, after document start rounds = ([], walk document start)) ∧
    (∀ rounds, (after document start rounds).1.path.Nodup ∧
      (after document start rounds).1.length ≤ 1 + document.stock.card) ∧
    ∀ pointer, pointer ∈ document.stock ↔
      ∃ (path : List String) (fields : Json.Fields) (reference : String),
        document.root.descend? path = some (.object fields) ∧
        fields.get? "$ref" = some (.string reference) ∧
        Pointer.canonical reference = pointer := by
  refine ⟨exists_after_eq_walk document start, fun rounds => ?_, ?_⟩
  · have hpasses := passes_after document start rounds
    exact ⟨hpasses.nodup_path, hpasses.length_le hkeys hread hstart⟩
  · have hroot : document.root.UniqueKeys := (Document.root_eq_of_ofJson hread).1 ▸ hkeys
    exact Document.mem_stock_iff hroot

/-! ## A walk as deep as it can be -/

/-- The fields of `B`, which refers to `A`; of `A`, which refers to itself and to the reference in
`C`; of `C`, which refers to the whole document; and of a fourth body, which makes the document a
set of properties. -/
def windingFields : Json.Fields :=
  [("B", .object [("allof", .array [.object [("$ref", .string "#/A")]])]),
    ("A", .object [("allof", .array [
      .object [("$ref", .string "#/A")], .object [("$ref", .string "#/C/allof/0")]])]),
    ("C", .object [("allof", .array [.object [("$ref", .string "#")]])]),
    ("properties", .object [("p", .object [])])]

/-- The definition of `B`. -/
def windingStart : Definition := ⟨"B", "/B", ⟨[.reference "#/A"]⟩⟩

/-- The document of all four definitions. -/
def windingDocument : Document where
  fields := windingFields
  definitions := [windingStart,
    ⟨"A", "/A", ⟨[.reference "#/A", .reference "#/C/allof/0"]⟩⟩, ⟨"C", "/C", ⟨[.reference "#"]⟩⟩,
    ⟨"properties", "/properties", ⟨[]⟩⟩]

/-- The references bring up three pointers, and after four rounds there are four frames. -/
theorem walk_ends_windingDocument :
    (Json.object windingFields).UniqueKeys ∧
      Document.ofJson (.object windingFields) = .ok windingDocument ∧
      windingStart ∈ windingDocument.definitions ∧
      (∃ rounds, (after windingDocument windingStart rounds).1 = []) ∧
      (after windingDocument windingStart 4).1.path = ["", "/C/allof/0", "/A", "/B"] ∧
      ∀ rounds, (after windingDocument windingStart rounds).1.length ≤ 4 := by
  have hkeys : (Json.object windingFields).UniqueKeys := by
    simp [windingFields, Json.UniqueKeys, Json.UniqueKeysFields, Json.UniqueKeysItems]
  have hread : Document.ofJson (.object windingFields) = .ok windingDocument := rfl
  have hstart : windingStart ∈ windingDocument.definitions := List.mem_cons_self
  obtain ⟨⟨rounds, hrounds⟩, hdepth, _⟩ := walk_ends_within_stock hkeys hread hstart
  have hstock : windingDocument.stock.card = 3 := by decide +kernel
  refine ⟨hkeys, hread, hstart, ⟨rounds, by rw [hrounds]⟩, by decide +kernel, ?_⟩
  intro rounds
  have hbound := (hdepth rounds).2
  omega

end Resolution

end SchemaHeader

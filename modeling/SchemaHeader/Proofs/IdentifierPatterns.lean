import SchemaHeader.Proofs.HeaderIdentifiers

set_option autoImplicit false

/-! # The patterns of identifiers

The check of a name is a matter of two patterns: one that the whole name has to match, and one that
must not be found in it. Here **a pattern is data**, alternatives of pieces in a row, and a matcher
looks for it in a text. Anchors look at what stands around a match, so a match is a stretch of a
text between what is in front of it and what is behind it.

* `Pieces.Fits`: what it means that pieces match a stretch of a text where it stands.
* `Pattern.isMatch_iff`: **the matcher says yes exactly if some alternative fits some stretch.**
* `Identifier.isMatch_spelling`, `Identifier.isMatch_reservedMark`: the two patterns of names, and
  the predicates that names are checked with.
* `Identifier.fault?_eq_search`: **the check of a name, by its patterns.**
-/

namespace SchemaHeader

/-! ## Patterns and their matcher -/

/-- Characters, by ranges that include both of their ends. -/
structure CharSet where
  ranges : List (Char × Char)
  deriving DecidableEq, Repr

/-- Whether a character is in one of the ranges. -/
def CharSet.has (set : CharSet) (c : Char) : Bool :=
  set.ranges.any fun range => decide (range.1 ≤ c) && decide (c ≤ range.2)

/-- A piece of a pattern. -/
inductive Piece where
  /-- The start of the text. -/
  | start
  /-- The end of the text; a line end in front of it is text like any other. -/
  | finish
  /-- One character of a set. -/
  | one (set : CharSet)
  /-- Any number of characters of a set. -/
  | many (set : CharSet)
  deriving DecidableEq, Repr

/-- A pattern: alternatives, each of them pieces in a row. -/
structure Pattern where
  alternatives : List (List Piece)
  deriving DecidableEq, Repr

/-- Passes over characters that are allowed, none at first and then one by one, until `next` says
yes. What is asked at a place of a text is told whether nothing stands in front of the place, and
all that follows it. -/
def passThen (allowed : Char → Bool) (next : Bool → List Char → Bool) : Bool → List Char → Bool
  | first, [] => next first []
  | first, c :: text =>
    next first (c :: text) || (allowed c && passThen allowed next false text)

/-- Tries a piece at a place of a text, and `next` behind it. -/
def Piece.accepts (next : Bool → List Char → Bool) : Piece → Bool → List Char → Bool
  | .start, first, text => first && next first text
  | .finish, first, text => text.isEmpty && next first text
  | .one _, _, [] => false
  | .one set, _, c :: text => set.has c && next false text
  | .many set, first, text => passThen set.has next first text

/-- Tries pieces in a row at a place of a text. -/
def Pieces.accepts : List Piece → Bool → List Char → Bool
  | [] => fun _ _ => true
  | piece :: rest => piece.accepts (Pieces.accepts rest)

/-- **Whether a pattern is found in a text**, at any place of it. -/
def Pattern.isMatch (pattern : Pattern) (text : List Char) : Bool :=
  pattern.alternatives.any fun pieces =>
    passThen (fun _ => true) (Pieces.accepts pieces) true text

/-! ## Notation of patterns -/

/-- A set in brackets, or a single character as it is. -/
def CharSet.written (set : CharSet) : String :=
  match set.ranges with
  | [(low, high)] => if low = high then low.toString else inBrackets
  | _ => inBrackets
where
  inBrackets : String :=
    "[" ++ String.join (set.ranges.map fun range =>
      if range.1 = range.2 then range.1.toString
      else range.1.toString ++ "-" ++ range.2.toString) ++ "]"

/-- A piece as it is written. -/
def Piece.written : Piece → String
  | .start => "^"
  | .finish => "$"
  | .one set => set.written
  | .many set => set.written ++ "*"

/-- A pattern as it is written, with a bar between alternatives. -/
def Pattern.written (pattern : Pattern) : String :=
  "|".intercalate (pattern.alternatives.map fun pieces => String.join (pieces.map Piece.written))

/-! ## What the matcher finds -/

/-- **Pieces fit a stretch of a text**, given what stands in front of it and what behind. -/
def Pieces.Fits : List Piece → List Char → List Char → List Char → Prop
  | [], _, inside, _ => inside = []
  | .start :: rest, before, inside, after => before = [] ∧ Fits rest before inside after
  | .finish :: rest, before, inside, after =>
    inside = [] ∧ after = [] ∧ Fits rest before inside after
  | .one set :: rest, before, inside, after =>
    ∃ c tail, inside = c :: tail ∧ set.has c = true ∧ Fits rest (before ++ [c]) tail after
  | .many set :: rest, before, inside, after =>
    ∃ run tail, inside = run ++ tail ∧ (∀ c ∈ run, set.has c = true) ∧
      Fits rest (before ++ run) tail after

/-- What is asked after passing over characters is asked behind some run of them. -/
theorem passThen_iff (allowed : Char → Bool) (next : Bool → List Char → Bool)
    (before text : List Char) :
    passThen allowed next before.isEmpty text = true ↔
      ∃ run rest, text = run ++ rest ∧ (∀ c ∈ run, allowed c = true) ∧
        next (before ++ run).isEmpty rest = true := by
  induction text generalizing before with
  | nil =>
      rw [passThen]
      constructor
      · intro h
        exact ⟨[], [], rfl, by simp, by simpa using h⟩
      · rintro ⟨run, rest, htext, _, h⟩
        obtain ⟨rfl, rfl⟩ := List.append_eq_nil_iff.mp htext.symm
        simpa using h
  | cons c text ih =>
      have hplace : (before ++ [c]).isEmpty = false := by simp
      rw [passThen, Bool.or_eq_true, Bool.and_eq_true, ← hplace, ih]
      constructor
      · rintro (h | ⟨hc, run, rest, rfl, hrun, h⟩)
        · exact ⟨[], c :: text, rfl, by simp, by simpa using h⟩
        · refine ⟨c :: run, rest, rfl, ?_, by simpa using h⟩
          exact List.forall_mem_cons.mpr ⟨hc, hrun⟩
      · rintro ⟨run, rest, htext, hrun, h⟩
        -- Either nothing is passed over, or the first character is.
        cases run with
        | nil =>
            rw [List.nil_append] at htext
            subst htext
            exact Or.inl (by simpa using h)
        | cons d run =>
            obtain ⟨rfl, rfl⟩ := List.cons.inj htext
            obtain ⟨hc, hrest⟩ := List.forall_mem_cons.mp hrun
            exact Or.inr ⟨hc, run, rest, rfl, hrest, by simpa using h⟩

namespace Pieces

/-- **Pieces are accepted at a place exactly if they fit a stretch that starts there.** -/
theorem accepts_iff (pieces : List Piece) (before text : List Char) :
    accepts pieces before.isEmpty text = true ↔
      ∃ inside after, text = inside ++ after ∧ Fits pieces before inside after := by
  induction pieces generalizing before text with
  | nil => simp [accepts, Fits]
  | cons piece rest ih =>
      rw [accepts]
      cases piece with
      | start =>
          rw [Piece.accepts, Bool.and_eq_true, List.isEmpty_iff, ih]
          constructor
          · rintro ⟨hfirst, inside, after, htext, hfits⟩
            exact ⟨inside, after, htext, hfirst, hfits⟩
          · rintro ⟨inside, after, htext, hfirst, hfits⟩
            exact ⟨hfirst, inside, after, htext, hfits⟩
      | finish =>
          rw [Piece.accepts, Bool.and_eq_true, List.isEmpty_iff, ih]
          constructor
          · rintro ⟨rfl, inside, after, htext, hfits⟩
            obtain ⟨hinside, hafter⟩ := List.append_eq_nil_iff.mp htext.symm
            exact ⟨inside, after, htext, hinside, hafter, hfits⟩
          · rintro ⟨_, _, rfl, rfl, rfl, hfits⟩
            exact ⟨rfl, [], [], rfl, hfits⟩
      | one set =>
          cases text with
          | nil =>
              rw [Piece.accepts]
              constructor
              · intro h
                cases h
              · rintro ⟨_, after, htext, c, tail, rfl, _⟩
                cases htext
          | cons c text =>
              have hplace : (before ++ [c]).isEmpty = false := by simp
              rw [Piece.accepts, Bool.and_eq_true, ← hplace, ih]
              constructor
              · rintro ⟨hc, inside, after, rfl, hfits⟩
                exact ⟨c :: inside, after, rfl, c, inside, rfl, hc, hfits⟩
              · rintro ⟨_, after, htext, d, inside, rfl, hc, hfits⟩
                obtain ⟨rfl, rfl⟩ := List.cons.inj htext
                exact ⟨hc, inside, after, rfl, hfits⟩
      | many set =>
          rw [Piece.accepts, passThen_iff]
          simp only [ih]
          constructor
          · rintro ⟨run, _, rfl, hrun, inside, after, rfl, hfits⟩
            exact ⟨run ++ inside, after, (List.append_assoc ..).symm, run, inside, rfl, hrun, hfits⟩
          · rintro ⟨_, after, rfl, run, inside, rfl, hrun, hfits⟩
            exact ⟨run, inside ++ after, List.append_assoc .., hrun, inside, after, rfl, hfits⟩

end Pieces

/-- **A pattern is found in a text exactly if one of its alternatives fits a stretch of it.** -/
theorem Pattern.isMatch_iff (pattern : Pattern) (text : List Char) :
    pattern.isMatch text = true ↔
      ∃ pieces ∈ pattern.alternatives, ∃ before inside after,
        text = before ++ inside ++ after ∧ Pieces.Fits pieces before inside after := by
  have hsearch : ∀ pieces,
      passThen (fun _ => true) (Pieces.accepts pieces) true text = true ↔
        ∃ before inside after, text = before ++ inside ++ after ∧
          Pieces.Fits pieces before inside after := by
    intro pieces
    -- A search passes over any characters, from the start of the text on.
    refine (passThen_iff (fun _ => true) (Pieces.accepts pieces) [] text).trans ?_
    simp only [List.nil_append, Pieces.accepts_iff]
    constructor
    · rintro ⟨before, _, rfl, _, inside, after, rfl, hfits⟩
      exact ⟨before, inside, after, (List.append_assoc ..).symm, hfits⟩
    · rintro ⟨before, inside, after, rfl, hfits⟩
      exact ⟨before, inside ++ after, List.append_assoc .., fun _ _ => trivial, inside, after, rfl,
        hfits⟩
  rw [isMatch, List.any_eq_true]
  simp only [hsearch]

/-! ## The patterns of names -/

namespace Identifier

/-- Capital letters of ASCII. -/
def capitals : CharSet := ⟨[('A', 'Z')]⟩

/-- What a name may start with. -/
def starts : CharSet := ⟨[('A', 'Z'), ('a', 'z'), ('_', '_')]⟩

/-- What a name may go on with. -/
def continues : CharSet := ⟨[('A', 'Z'), ('a', 'z'), ('0', '9'), ('_', '_')]⟩

/-- The underscore. -/
def underscore : CharSet := ⟨[('_', '_')]⟩

/-- What a whole name has to match. -/
def spelling : Pattern := ⟨[[.start, .one starts, .many continues, .finish]]⟩

/-- What is found in the names that belong to the implementation. -/
def reservedMark : Pattern :=
  ⟨[[.start, .one underscore, .one capitals], [.one underscore, .one underscore]]⟩

/-- The two patterns as they are written. -/
theorem written_patterns :
    spelling.written = "^[A-Za-z_][A-Za-z0-9_]*$" ∧ reservedMark.written = "^_[A-Z]|__" := by
  decide

theorem has_capitals (c : Char) : capitals.has c = isCapital c := by
  simp [CharSet.has, capitals, isCapital]

theorem has_underscore (c : Char) : underscore.has c = true ↔ c = '_' := by
  simp only [CharSet.has, underscore, List.any_cons, List.any_nil, Bool.or_false, Bool.and_eq_true,
    decide_eq_true_eq]
  constructor
  · rintro ⟨hlow, hhigh⟩
    exact Char.le_antisymm hhigh hlow
  · rintro rfl
    exact ⟨Char.le_refl _, Char.le_refl _⟩

theorem has_starts (c : Char) : starts.has c = isStart c := by
  have hlast : (decide ('_' ≤ c) && decide (c ≤ '_')) = (c == '_') := by
    rw [Bool.eq_iff_iff, beq_iff_eq, ← has_underscore]
    simp [CharSet.has, underscore]
  simp [CharSet.has, starts, isStart, isCapital, hlast, Bool.or_assoc]

theorem has_continues (c : Char) : continues.has c = isContinue c := by
  rw [isContinue, ← has_starts]
  simp only [CharSet.has, continues, starts, List.any_cons, List.any_nil, Bool.or_false]
  ac_rfl

/-- **The pattern of spellings is matched by the characters that form an identifier.** -/
theorem isMatch_spelling (text : List Char) : spelling.isMatch text = wellFormed text := by
  rw [Bool.eq_iff_iff, Pattern.isMatch_iff]
  simp only [spelling, List.mem_singleton, exists_eq_left, Pieces.Fits, has_starts, has_continues]
  constructor
  · -- The anchors leave nothing in front of the stretch and nothing behind it.
    rintro ⟨_, _, _, rfl, rfl, c, _, rfl, hc, rest, _, rfl, hrest, rfl, rfl, _⟩
    simpa [wellFormed, hc] using hrest
  · intro h
    cases text with
    | nil => cases h
    | cons c rest =>
        rw [wellFormed, Bool.and_eq_true, List.all_eq_true] at h
        exact ⟨[], c :: rest, [], by simp, rfl, c, rest, rfl, h.1, rest, [], by simp, h.2, rfl, rfl,
          rfl⟩

-- A line end at the end of a text does not pass for the end of the text.
example : spelling.isMatch ['a', '\n'] = false := by decide

/-- **The mark of reserved names is found where a name starts like one, or has two underscores side
by side.** -/
theorem isMatch_reservedMark (text : List Char) :
    reservedMark.isMatch text = (startsReserved text || hasDoubleUnderscore text) := by
  rw [Bool.eq_iff_iff, Bool.or_eq_true, startsReserved_iff, hasDoubleUnderscore_iff,
    Pattern.isMatch_iff]
  simp only [reservedMark, List.mem_cons, List.not_mem_nil, or_false, exists_eq_or_imp,
    exists_eq_left, Pieces.Fits, has_underscore, has_capitals, isCapital_iff]
  constructor
  · rintro (⟨_, _, after, rfl, rfl, _, _, rfl, rfl, c, _, rfl, hc, rfl⟩ |
      ⟨before, _, after, rfl, _, _, rfl, rfl, _, _, rfl, rfl, rfl⟩)
    · exact Or.inl ⟨c, hc, after, rfl⟩
    · exact Or.inr ⟨before, after, rfl⟩
  · rintro (⟨c, hc, after, rfl⟩ | ⟨before, after, rfl⟩)
    · exact Or.inl ⟨[], ['_', c], after, rfl, rfl, '_', [c], rfl, rfl, c, [], rfl, hc, rfl⟩
    · exact Or.inr ⟨before, ['_', '_'], after, rfl, '_', ['_'], rfl, rfl, '_', [], rfl, rfl, rfl⟩

/-- **The check of a name, by its patterns**: a name has to be spelled as an identifier, must not be
a keyword, and must not bear the mark of reserved names. -/
theorem fault?_eq_search (name : String) :
    fault? name
      = if !spelling.isMatch name.toList then some .notAnIdentifier
        else if keywords.contains name then some .keyword
        else if reservedMark.isMatch name.toList then some .reserved
        else none := by
  rw [fault?, isMatch_spelling, isMatch_reservedMark]

end Identifier

end SchemaHeader

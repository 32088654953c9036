import SchemaHeader.Proofs.HeaderText
import Mathlib.Data.List.Infix

set_option autoImplicit false

/-! # Descriptions in comments

The description of a value is copied into a block comment as it is. A compiler ends the comment at
the first closing mark, wherever that comes from, so **a description stays inside its comment
exactly if it holds no closing mark itself**.

* `Text.scan` tells code and block comments apart.
* `Text.Reads`, `Text.Misreads`: what a stretch of text adds to the scan of all that follows it, or
  that it spoils it. Both pass from the parts of a text to the whole.
* `Layout.encloses_iff`: the comments of the enum types are those of the descriptions, and the rest
  is the text without descriptions, if and only if no description holds a closing mark.
-/

namespace SchemaHeader

/-! ## Code and comments -/

namespace Text

/-- A text taken apart into code and block comments. -/
structure Scan where
  /-- What stands outside of comments. -/
  code : List Char
  /-- What stands between the two marks of each comment. -/
  comments : List (List Char)
  /-- Whether the last comment ends. -/
  closed : Bool
  deriving DecidableEq

namespace Scan

/-- Puts code and comments before a scan. -/
def behind (scan : Scan) (code : List Char) (comments : List (List Char)) : Scan :=
  ⟨code ++ scan.code, comments ++ scan.comments, scan.closed⟩

/-- Puts characters at the start of the first comment of a scan. -/
def extend (scan : Scan) (chars : List Char) : Scan :=
  { scan with comments := scan.comments.modifyHead (chars ++ ·) }

theorem behind_nil (scan : Scan) : scan.behind [] [] = scan := rfl

theorem behind_behind (scan : Scan) (code more : List Char) (comments others : List (List Char)) :
    (scan.behind more others).behind code comments
      = scan.behind (code ++ more) (comments ++ others) := by
  simp [behind]

theorem extend_nil (scan : Scan) : scan.extend [] = scan := by
  obtain ⟨code, comments, closed⟩ := scan
  cases comments with
  | nil => rfl
  | cons first rest => rfl

theorem extend_extend (scan : Scan) (chars more : List Char) :
    (scan.extend more).extend chars = scan.extend (chars ++ more) := by
  cases hcomments : scan.comments with
  | nil => simp [extend, hcomments]
  | cons first rest => simp [extend, hcomments]

theorem extend_behind (scan : Scan) (chars comment : List Char) :
    (scan.behind [] [comment]).extend chars = scan.behind [] [chars ++ comment] := rfl

end Scan

/-- Takes a text apart, from outside or inside of a comment on: a comment starts at `/*` and ends at
the first `*/` behind that. -/
def scan : (inside : Bool) → List Char → Scan
  | false, [] => ⟨[], [], true⟩
  | false, '/' :: '*' :: rest => scan true rest
  | false, c :: rest => (scan false rest).behind [c] []
  | true, [] => ⟨[], [[]], false⟩
  | true, '*' :: '/' :: rest => (scan false rest).behind [] [[]]
  | true, c :: rest => (scan true rest).extend [c]

/-- Whether the mark that ends a comment stands somewhere in a text. -/
def HoldsClosingMark (text : List Char) : Prop :=
  ['*', '/'] <:+: text

instance (text : List Char) : Decidable (HoldsClosingMark text) :=
  inferInstanceAs (Decidable (['*', '/'] <:+: text))

theorem scan_open (rest : List Char) : scan false ('/' :: '*' :: rest) = scan true rest := by
  rw [scan]

theorem scan_close (rest : List Char) :
    scan true ('*' :: '/' :: rest) = (scan false rest).behind [] [[]] := by
  rw [scan]

theorem scan_code_cons {c : Char} (hc : c ≠ '/') (rest : List Char) :
    scan false (c :: rest) = (scan false rest).behind [c] [] := by
  rw [scan]
  rintro _ rfl
  exact absurd rfl hc

/-- Inside of a comment a character belongs to it, unless it starts the closing mark. -/
theorem scan_comment_cons {c : Char} {rest : List Char} (hc : c = '*' → rest.head? ≠ some '/') :
    scan true (c :: rest) = (scan true rest).extend [c] := by
  rw [scan]
  rintro tail rfl rfl
  exact absurd rfl (hc rfl)

/-- Text without stars goes into the comment. -/
theorem scan_comment_append {s : List Char} (h : '*' ∉ s) (rest : List Char) :
    scan true (s ++ rest) = (scan true rest).extend s := by
  induction s with
  | nil => exact (Scan.extend_nil _).symm
  | cons c s ih =>
      have hc : c ≠ '*' := fun hc => h (hc ▸ List.mem_cons_self)
      have hs : '*' ∉ s := fun hs => h (List.mem_cons_of_mem _ hs)
      rw [List.cons_append, scan_comment_cons (fun heq => absurd heq hc), ih hs,
        Scan.extend_extend]
      rfl

/-- Text without a closing mark goes into the comment too, if no slash follows it. -/
theorem scan_comment_append_of_not_holds {s : List Char} (h : ¬ HoldsClosingMark s) {c : Char}
    (hc : c ≠ '/') (rest : List Char) :
    scan true (s ++ c :: rest) = (scan true (c :: rest)).extend s := by
  induction s with
  | nil => exact scan_comment_append List.not_mem_nil _
  | cons d s ih =>
      have hs : ¬ HoldsClosingMark s := fun hs => h (List.infix_cons hs)
      have hd : d = '*' → (s ++ c :: rest).head? ≠ some '/' := by
        rintro rfl
        cases s with
        | nil => simpa using hc
        | cons e s =>
            intro he
            cases he
            exact h ⟨[], s, rfl⟩
      rw [List.cons_append, scan_comment_cons hd, ih hs, Scan.extend_extend]
      rfl

/-- Text with a closing mark ends the comment before the text ends. -/
theorem exists_scan_comment_of_holds {s : List Char} (h : HoldsClosingMark s) (rest : List Char) :
    ∃ (short : List Char) (others : List (List Char)), short.length < s.length ∧
      (scan true (s ++ rest)).comments = short :: others := by
  induction s with
  | nil => exact absurd h (by decide)
  | cons d s ih =>
      by_cases hmark : ['*', '/'] <+: d :: s
      · obtain ⟨tail, htail⟩ := hmark
        refine ⟨[], (scan false (tail ++ rest)).comments, by simp, ?_⟩
        rw [← htail]
        show (scan true ('*' :: '/' :: (tail ++ rest))).comments = _
        rw [scan_close]
        rfl
      · have hs : HoldsClosingMark s := (List.infix_cons_iff.mp h).resolve_left hmark
        obtain ⟨short, others, hshort, hcomments⟩ := ih hs
        have hd : d = '*' → (s ++ rest).head? ≠ some '/' := by
          rintro rfl
          cases s with
          | nil => exact absurd hs (by decide)
          | cons e s =>
              intro he
              cases he
              exact hmark ⟨s, rfl⟩
        refine ⟨d :: short, others, by simpa using hshort, ?_⟩
        rw [List.cons_append, scan_comment_cons hd, Scan.extend, hcomments]
        rfl

/-! ## Stretches of text -/

/-- **What a text adds to the scan of whatever follows it.** -/
def Reads (text code : List Char) (comments : List (List Char)) : Prop :=
  ∀ rest, scan false (text ++ rest) = (scan false rest).behind code comments

/-- **The comments of a text are not these**, whatever follows it. -/
def Misreads (text : List Char) (comments : List (List Char)) : Prop :=
  ∀ rest more, (scan false (text ++ rest)).comments ≠ comments ++ more

theorem reads_nil : Reads [] [] [] := fun rest => (Scan.behind_nil (scan false rest)).symm

theorem Reads.append {text text' code code' : List Char} {comments comments' : List (List Char)}
    (h : Reads text code comments) (h' : Reads text' code' comments') :
    Reads (text ++ text') (code ++ code') (comments ++ comments') := by
  intro rest
  rw [List.append_assoc, h, h', Scan.behind_behind]

/-- A text without slashes is code. -/
theorem reads_of_slash_notMem {text : List Char} (h : '/' ∉ text) : Reads text text [] := by
  induction text with
  | nil => exact reads_nil
  | cons c text ih =>
      have hc : c ≠ '/' := fun hc => h (hc ▸ List.mem_cons_self)
      have htext : '/' ∉ text := fun hmem => h (List.mem_cons_of_mem _ hmem)
      intro rest
      rw [List.cons_append, scan_code_cons hc, ih htext, Scan.behind_behind]
      rfl

theorem Misreads.append_right {text : List Char} {comments : List (List Char)}
    (h : Misreads text comments) (text' : List Char) (comments' : List (List Char)) :
    Misreads (text ++ text') (comments ++ comments') := by
  intro rest more
  rw [List.append_assoc, List.append_assoc]
  exact h _ _

theorem Misreads.append_left {text code text' : List Char} {comments comments' : List (List Char)}
    (h : Misreads text' comments') (hreads : Reads text code comments) :
    Misreads (text ++ text') (comments ++ comments') := by
  intro rest more heq
  rw [List.append_assoc, hreads, List.append_assoc] at heq
  exact h rest more (List.append_cancel_left heq)

/-- A list of stretches reads as its members do. -/
theorem reads_flatMap {α : Type} {text code : α → List Char} {comments : α → List (List Char)}
    {items : List α} (h : ∀ item ∈ items, Reads (text item) (code item) (comments item)) :
    Reads (items.flatMap text) (items.flatMap code) (items.flatMap comments) := by
  induction items with
  | nil => exact reads_nil
  | cons item rest ih =>
      obtain ⟨hitem, hrest⟩ := List.forall_mem_cons.mp h
      exact hitem.append (ih hrest)

/-- **One stretch that misreads spoils a list of them**, since all comments before the first such
stretch are in place. -/
theorem misreads_flatMap {α : Type} {text code : α → List Char} {comments : α → List (List Char)}
    {bad : α → Prop} {items : List α}
    (hgood : ∀ item ∈ items, ¬ bad item → Reads (text item) (code item) (comments item))
    (hbad : ∀ item ∈ items, bad item → Misreads (text item) (comments item))
    (h : ∃ item ∈ items, bad item) :
    Misreads (items.flatMap text) (items.flatMap comments) := by
  induction items with
  | nil =>
      obtain ⟨item, hitem, _⟩ := h
      exact absurd hitem List.not_mem_nil
  | cons first rest ih =>
      obtain ⟨hfirst, hgood⟩ := List.forall_mem_cons.mp hgood
      obtain ⟨hspoils, hbad⟩ := List.forall_mem_cons.mp hbad
      by_cases hfirstBad : bad first
      · exact (hspoils hfirstBad).append_right _ _
      · obtain ⟨item, hitem, hitemBad⟩ := h
        have hlater : item ∈ rest := by
          rcases List.mem_cons.mp hitem with rfl | hitem
          · exact absurd hitemBad hfirstBad
          · exact hitem
        exact (ih hgood hbad ⟨item, hlater, hitemBad⟩).append_left (hfirst hfirstBad)

/-! ## Words -/

/-- The words of a text, between its white space. -/
def words (text : List Char) : List (List Char) :=
  (text.splitOnP Char.isWhitespace).filter (· ≠ [])

theorem words_append_cons (first second : List Char) {c : Char} (hc : c.isWhitespace = true) :
    words (first ++ c :: second) = words first ++ words second := by
  rw [words, List.splitOnP_append_cons first second hc, List.filter_append]
  rfl

theorem words_replicate (n : Nat) : words (List.replicate n ' ') = [] := by
  induction n with
  | zero => rfl
  | succ n ih =>
      have hsplit : words ([] ++ ' ' :: List.replicate n ' ') = words [] ++ words _ :=
        words_append_cons [] _ rfl
      rw [List.replicate_succ, ← List.nil_append (' ' :: _), hsplit, ih]
      rfl

/-- Every line has its own words. -/
theorem words_linesText (lines : List String) :
    words (linesText lines).toList = lines.flatMap fun line => words line.toList := by
  induction lines with
  | nil => rfl
  | cons line rest ih =>
      have hline : (linesText (line :: rest)).toList
          = line.toList ++ '\n' :: (linesText rest).toList := by simp
      rw [hline, words_append_cons _ _ rfl, ih, List.flatMap_cons]

end Text

/-! ## Identifiers -/

/-- A name that can be used has no slash. -/
theorem Identifier.slash_notMem {name : String} (h : fault? name = none) : '/' ∉ name.toList := by
  have hformed : wellFormed name.toList = true := by
    by_contra hnot
    rw [Bool.not_eq_true] at hnot
    simp [fault?, hnot] at h
  intro hmem
  cases hname : name.toList with
  | nil =>
      rw [hname] at hmem
      exact absurd hmem List.not_mem_nil
  | cons c rest =>
      rw [hname] at hmem hformed
      obtain ⟨hstart, hrest⟩ := Bool.and_eq_true_iff.mp hformed
      rcases List.mem_cons.mp hmem with rfl | hmem
      · revert hstart
        decide
      · have hslash := List.all_eq_true.mp hrest _ hmem
        revert hslash
        decide

/-! ## Enum types -/

namespace Layout

/-- What the comment of a description holds between its marks. -/
def commentBody (layout : Layout) (depth : Nat) (description : String) : List Char :=
  '\n' :: (layout.tab depth).toList ++ description.toList ++ '\n' :: (layout.tab depth).toList

/-- The comments of a value: one if it is described. -/
def valueComments (layout : Layout) (depth : Nat) (value : EnumValue) : List (List Char) :=
  value.description.toList.map (layout.commentBody depth)

/-- The comments of enum types, value by value. -/
def typeComments (layout : Layout) (depth : Nat) (types : List EnumType) : List (List Char) :=
  types.flatMap fun type => type.values.flatMap (layout.valueComments (depth + 1))

end Layout

/-- The value has a description that ends the comment it is put in. -/
def EnumValue.BreaksComment (value : EnumValue) : Prop :=
  ∃ description ∈ value.description, Text.HoldsClosingMark description.toList

/-- A value of the type has such a description. -/
def EnumType.BreaksComment (type : EnumType) : Prop :=
  ∃ value ∈ type.values, value.BreaksComment

/-- The type without the descriptions of its values. -/
def EnumType.undescribed (type : EnumType) : EnumType :=
  { type with values := type.values.map fun value => { value with description := none } }

/-- **The descriptions stay inside their comments**: of a text for enum types, the comments are one
for each described value, with the description as it is between the line of the opening mark and
that of the closing mark, and all else is the text for the types without descriptions, up to white
space. -/
structure Layout.Encloses (layout : Layout) (depth : Nat) (types : List EnumType)
    (text : String) : Prop where
  closed : (Text.scan false text.toList).closed = true
  comments : (Text.scan false text.toList).comments = layout.typeComments depth types
  code : Text.words (Text.scan false text.toList).code
    = Text.words (linesText (layout.enumTypes depth (types.map EnumType.undescribed))).toList

namespace Layout

open Text

variable (layout : Layout)

/-- What is left of the lines of a value without its comment: the indentation of the opening
mark. -/
def codeValue (depth : Nat) (value : EnumValue) : List String :=
  value.description.toList.map (fun _ => layout.tab depth)
    ++ [layout.tab depth ++ value.label ++ ","]

/-- What is left of the lines of an enum type without its comments. -/
def codeType (depth : Nat) (type : EnumType) : List String :=
  [layout.tab depth ++ "enum class " ++ type.name, layout.tab depth ++ "\x7b"]
    ++ type.values.flatMap (layout.codeValue (depth + 1))
    ++ [layout.tab depth ++ "\x7d;"]

theorem char_notMem_tab {c : Char} (hc : c ≠ ' ') (depth : Nat) :
    c ∉ (layout.tab depth).toList := by
  rw [tab, String.toList_ofList]
  intro hmem
  exact hc (List.eq_of_mem_replicate hmem)

theorem words_tab (depth : Nat) : words (layout.tab depth).toList = [] := by
  rw [tab, String.toList_ofList]
  exact words_replicate _

/-- A line without slashes is code. -/
theorem reads_line {line : String} (h : '/' ∉ line.toList) :
    Reads (linesText [line]).toList (linesText [line]).toList [] := by
  refine reads_of_slash_notMem ?_
  simpa using h

/-- The text of a comment, up to the end of its last line. -/
theorem toList_linesText_comment (depth : Nat) (description : String) (rest : List Char) :
    (linesText (layout.comment depth (some description))).toList ++ rest
      = (layout.tab depth).toList ++ '/' :: '*' :: ('\n' :: (layout.tab depth).toList
        ++ (description.toList ++ '\n' :: ((layout.tab depth).toList
          ++ '*' :: '/' :: '\n' :: rest))) := by
  simp [comment]

/-- **The comment of a description without a closing mark is read as that comment.** -/
theorem reads_comment {description : String} (h : ¬ HoldsClosingMark description.toList)
    (depth : Nat) :
    Reads (linesText (layout.comment depth (some description))).toList
      (linesText [layout.tab depth]).toList [layout.commentBody depth description] := by
  have htab : '*' ∉ (layout.tab depth).toList := layout.char_notMem_tab (by decide) depth
  have hindent : '*' ∉ '\n' :: (layout.tab depth).toList := by
    simpa using htab
  intro rest
  -- The comment is read in three parts: up to the description, the description, and the line of
  -- the closing mark.
  have hinside : scan true ('\n' :: (layout.tab depth).toList ++ (description.toList
        ++ '\n' :: ((layout.tab depth).toList ++ '*' :: '/' :: '\n' :: rest)))
      = (scan false ('\n' :: rest)).behind [] [layout.commentBody depth description] := by
    have hlast : scan true ('\n' :: ((layout.tab depth).toList ++ '*' :: '/' :: '\n' :: rest))
        = (scan false ('\n' :: rest)).behind [] ['\n' :: (layout.tab depth).toList] := by
      rw [← List.cons_append, scan_comment_append hindent, scan_close, Scan.extend_behind,
        List.append_nil]
    rw [scan_comment_append hindent, scan_comment_append_of_not_holds h (by decide), hlast,
      Scan.extend_behind, Scan.extend_behind, commentBody, List.append_assoc]
  rw [toList_linesText_comment, reads_of_slash_notMem (layout.char_notMem_tab (by decide) depth),
    scan_open, hinside, scan_code_cons (by decide), Scan.behind_behind, Scan.behind_behind]
  simp

/-- **A description with a closing mark ends its comment too early.** -/
theorem misreads_comment {description : String} (h : HoldsClosingMark description.toList)
    (depth : Nat) :
    Misreads (linesText (layout.comment depth (some description))).toList
      [layout.commentBody depth description] := by
  have hindent : '*' ∉ '\n' :: (layout.tab depth).toList := by
    simpa using layout.char_notMem_tab (c := '*') (by decide) depth
  intro rest more heq
  rw [toList_linesText_comment, reads_of_slash_notMem (layout.char_notMem_tab (by decide) depth),
    scan_open, scan_comment_append hindent] at heq
  obtain ⟨short, others, hshort, hcomments⟩ := exists_scan_comment_of_holds h
    ('\n' :: ((layout.tab depth).toList ++ '*' :: '/' :: '\n' :: rest))
  -- The comment that is read is shorter than the one that was meant.
  simp only [Scan.behind, Scan.extend, hcomments, List.modifyHead_cons, List.nil_append,
    List.cons_append, List.cons.injEq] at heq
  have hlength := congrArg List.length heq.1
  simp only [commentBody, List.length_append, List.length_cons] at hlength
  omega

/-- The lines of a described value are those of its comment and that of its label. -/
theorem linesText_enumValue_some {value : EnumValue} {description : String}
    (h : value.description = some description) (depth : Nat) :
    (linesText (layout.enumValue depth value)).toList
      = (linesText (layout.comment depth (some description))).toList
        ++ (linesText [layout.tab depth ++ value.label ++ ","]).toList := by
  rw [enumValue, h, linesText_append, String.toList_append]

theorem reads_label {value : EnumValue} (hlabel : Identifier.fault? value.label = none)
    (depth : Nat) :
    Reads (linesText [layout.tab depth ++ value.label ++ ","]).toList
      (linesText [layout.tab depth ++ value.label ++ ","]).toList [] := by
  apply reads_line
  simp [layout.char_notMem_tab (c := '/') (by decide) depth, Identifier.slash_notMem hlabel]

/-- The lines of a value read as its label and its comment, if its description can stand there. -/
theorem reads_value {value : EnumValue} (hlabel : Identifier.fault? value.label = none)
    (h : ¬ value.BreaksComment) (depth : Nat) :
    Reads (linesText (layout.enumValue depth value)).toList
      (linesText (layout.codeValue depth value)).toList (layout.valueComments depth value) := by
  cases hdescription : value.description with
  | none =>
      simpa [enumValue, codeValue, valueComments, comment, hdescription]
        using layout.reads_label hlabel depth
  | some description =>
      have hholds : ¬ HoldsClosingMark description.toList := fun hholds =>
        h ⟨description, hdescription, hholds⟩
      have hcode : (linesText (layout.codeValue depth value)).toList
          = (linesText [layout.tab depth]).toList
            ++ (linesText [layout.tab depth ++ value.label ++ ","]).toList := by
        rw [codeValue, hdescription, ← String.toList_append, ← linesText_append]
        rfl
      rw [layout.linesText_enumValue_some hdescription, hcode, valueComments, hdescription]
      exact (layout.reads_comment hholds depth).append (layout.reads_label hlabel depth)

/-- A description with a closing mark spoils the lines of its value. -/
theorem misreads_value {value : EnumValue} (h : value.BreaksComment) (depth : Nat) :
    Misreads (linesText (layout.enumValue depth value)).toList
      (layout.valueComments depth value) := by
  obtain ⟨description, hdescription, hholds⟩ := h
  rw [layout.linesText_enumValue_some hdescription, valueComments, hdescription]
  exact (layout.misreads_comment hholds depth).append_right _ []

theorem toList_linesText_flatMap {α : Type} (lines : α → List String) (items : List α) :
    (linesText (items.flatMap lines)).toList
      = items.flatMap fun item => (linesText (lines item)).toList := by
  rw [linesText_flatMap, String.toList_join, List.flatMap_map]

section Types

variable {type : EnumType}
  (hnames : ∀ name ∈ type.identifiers, Identifier.fault? name = none)

include hnames

theorem fault?_label {value : EnumValue} (h : value ∈ type.values) :
    Identifier.fault? value.label = none :=
  hnames value.label (List.mem_cons_of_mem _ (List.mem_map_of_mem h))

/-- The lines up to the opening brace of a type are code. -/
theorem reads_head (depth : Nat) :
    Reads (linesText [layout.tab depth ++ "enum class " ++ type.name,
        layout.tab depth ++ "\x7b"]).toList
      (linesText [layout.tab depth ++ "enum class " ++ type.name,
        layout.tab depth ++ "\x7b"]).toList [] := by
  have hname := Identifier.slash_notMem (hnames type.name List.mem_cons_self)
  apply reads_of_slash_notMem
  simp [layout.char_notMem_tab (c := '/') (by decide) depth, hname]

theorem reads_type (h : ¬ type.BreaksComment) (depth : Nat) :
    Reads (linesText (layout.enumType depth type)).toList
      (linesText (layout.codeType depth type)).toList
      (type.values.flatMap (layout.valueComments (depth + 1))) := by
  have hvalues : Reads (linesText (type.values.flatMap (layout.enumValue (depth + 1)))).toList
      (linesText (type.values.flatMap (layout.codeValue (depth + 1)))).toList
      (type.values.flatMap (layout.valueComments (depth + 1))) := by
    rw [toList_linesText_flatMap, toList_linesText_flatMap]
    refine reads_flatMap fun value hvalue => ?_
    exact layout.reads_value (fault?_label hnames hvalue) (fun hbad => h ⟨value, hvalue, hbad⟩) _
  have hlast : Reads (linesText [layout.tab depth ++ "\x7d;"]).toList
      (linesText [layout.tab depth ++ "\x7d;"]).toList [] := by
    apply reads_line
    simp [layout.char_notMem_tab (c := '/') (by decide) depth]
  have hall := ((layout.reads_head hnames depth).append hvalues).append hlast
  rw [List.nil_append, List.append_nil] at hall
  simpa only [enumType, codeType, linesText_append, String.toList_append] using hall

theorem misreads_type (h : type.BreaksComment) (depth : Nat) :
    Misreads (linesText (layout.enumType depth type)).toList
      (type.values.flatMap (layout.valueComments (depth + 1))) := by
  have hvalues : Misreads (linesText (type.values.flatMap (layout.enumValue (depth + 1)))).toList
      (type.values.flatMap (layout.valueComments (depth + 1))) := by
    have hgood : ∀ value ∈ type.values, ¬ value.BreaksComment →
        Reads (linesText (layout.enumValue (depth + 1) value)).toList
          (linesText (layout.codeValue (depth + 1) value)).toList
          (layout.valueComments (depth + 1) value) := fun value hvalue hvalueGood =>
      layout.reads_value (fault?_label hnames hvalue) hvalueGood _
    rw [toList_linesText_flatMap]
    exact misreads_flatMap hgood (fun value _ hbad => layout.misreads_value hbad _) h
  have hall := (hvalues.append_left (layout.reads_head hnames depth)).append_right
    (linesText [layout.tab depth ++ "\x7d;"]).toList []
  rw [List.nil_append, List.append_nil] at hall
  simpa only [enumType, linesText_append, String.toList_append] using hall

end Types

/-- Without its comments, a type has the words that it has without descriptions. -/
theorem words_codeType (depth : Nat) (type : EnumType) :
    words (linesText (layout.codeType depth type)).toList
      = words (linesText (layout.enumType depth type.undescribed)).toList := by
  have hvalue : ∀ value : EnumValue,
      (layout.codeValue (depth + 1) value).flatMap (fun line => words line.toList)
        = words (layout.tab (depth + 1) ++ value.label ++ ",").toList := by
    intro value
    cases h : value.description with
    | none => simp [codeValue, h]
    | some description => simp [codeValue, h, layout.words_tab]
  simp only [words_linesText, codeType, enumType, EnumType.undescribed, List.flatMap_append,
    List.flatMap_assoc, hvalue, List.flatMap_map]
  simp [enumValue, comment]

/-- **Descriptions cannot change the code, unless they hold a closing mark.** Of the text that is
written for enum types whose names can be used, the comments are those of the descriptions and the
rest is the text without descriptions, if and only if no description holds the mark that ends a
comment. -/
theorem encloses_iff {types : List EnumType}
    (hnames : ∀ type ∈ types, ∀ name ∈ type.identifiers, Identifier.fault? name = none)
    (layout : Layout) (depth : Nat) :
    ∃ text : String,
      (Sink.empty none).writeLines (layout.enumTypes depth types)
        = ((Sink.empty none).after text, true) ∧
      (layout.Encloses depth types text ↔
        ∀ type ∈ types, ∀ value ∈ type.values, ∀ description ∈ value.description,
          ¬ HoldsClosingMark description.toList) := by
  refine ⟨linesText (layout.enumTypes depth types), Sink.writeLines_of_unbounded _ rfl _, ?_⟩
  constructor
  · intro h type htype value hvalue description hdescription hholds
    have hbad : ∃ type ∈ types, type.BreaksComment :=
      ⟨type, htype, value, hvalue, description, hdescription, hholds⟩
    have hmisreads : Misreads (linesText (layout.enumTypes depth types)).toList
        (layout.typeComments depth types) := by
      rw [enumTypes, toList_linesText_flatMap]
      exact misreads_flatMap
        (fun type htype hgood => layout.reads_type (hnames type htype) hgood depth)
        (fun type htype hbad => layout.misreads_type (hnames type htype) hbad depth) hbad
    refine hmisreads [] [] ?_
    rw [List.append_nil, List.append_nil]
    exact h.comments
  · intro h
    have hreads : Reads (linesText (layout.enumTypes depth types)).toList
        (linesText (types.flatMap (layout.codeType depth))).toList
        (layout.typeComments depth types) := by
      rw [enumTypes, toList_linesText_flatMap, toList_linesText_flatMap]
      refine reads_flatMap fun type htype => layout.reads_type (hnames type htype) ?_ depth
      rintro ⟨value, hvalue, description, hdescription, hholds⟩
      exact h type htype value hvalue description hdescription hholds
    have hscan := hreads []
    rw [List.append_nil] at hscan
    constructor
    case closed => rw [hscan]; rfl
    case comments => rw [hscan]; exact List.append_nil _
    case code =>
      rw [hscan]
      show words ((linesText (types.flatMap (layout.codeType depth))).toList ++ []) = _
      simp only [List.append_nil, enumTypes, words_linesText, List.flatMap_assoc, List.flatMap_map]
      simp only [← words_linesText, layout.words_codeType]

/-! ## Described fuels -/

/-- A type with one described value. -/
def fuelType (description : String) : EnumType :=
  ⟨"Car_fuel_kind", "fuel", [⟨"gas", some description⟩, ⟨"oil", none⟩]⟩

theorem fault?_fuelType (description : String) :
    ∀ type ∈ [fuelType description], ∀ name ∈ type.identifiers,
      Identifier.fault? name = none := by
  intro type htype
  rw [List.mem_singleton.mp htype]
  show ∀ name ∈ ["Car_fuel_kind", "gas", "oil"], _
  decide +kernel

/-- Opening marks, line ends and a star alone stay inside the comment. -/
theorem encloses_fuelType :
    (∀ type ∈ [fuelType "/* light *\n/"], ∀ name ∈ type.identifiers,
      Identifier.fault? name = none) ∧
    ∃ text : String,
      (Sink.empty none).writeLines (Layout.enumTypes { } 0 [fuelType "/* light *\n/"])
        = ((Sink.empty none).after text, true) ∧
      Layout.Encloses { } 0 [fuelType "/* light *\n/"] text := by
  obtain ⟨text, hwritten, hiff⟩ := encloses_iff (fault?_fuelType "/* light *\n/") { } 0
  exact ⟨fault?_fuelType _, text, hwritten, hiff.mpr (by decide +kernel)⟩

/-- **A description with a closing mark puts its own text into the code**: it declares a value that
no schema lists. -/
theorem not_encloses_fuelType :
    (∀ type ∈ [fuelType "*/ air, /*"], ∀ name ∈ type.identifiers,
      Identifier.fault? name = none) ∧
    ∃ text : String,
      (Sink.empty none).writeLines (Layout.enumTypes { } 0 [fuelType "*/ air, /*"])
        = ((Sink.empty none).after text, true) ∧
      ¬ Layout.Encloses { } 0 [fuelType "*/ air, /*"] text ∧
      words (scan false text.toList).code
        = ["enum", "class", "Car_fuel_kind", "\x7b", "air,", "gas,", "oil,", "\x7d;"].map
          String.toList := by
  refine ⟨fault?_fuelType _, _, Sink.writeLines_of_unbounded _ rfl _, fun h => ?_, ?_⟩
  · have hcode := h.code
    revert hcode
    decide +kernel
  · decide +kernel

end Layout

end SchemaHeader

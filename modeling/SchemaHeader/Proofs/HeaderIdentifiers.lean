import SchemaHeader.Proofs.HeaderText
import SchemaHeader.Proofs.RepeatedCycles

set_option autoImplicit false

/-! # The identifiers of a header

A run checks names and writes names in separate passes. `Layout.stretches` cuts the text of a header
at its names, so that the names it brings in can be read off in the order in which they are written.

* `Identifier.fault?_eq_none_iff`: **which names can be used**, as a grammar.
* `Ledger.filterMap_enterAll`: what is no cycle goes through a ledger as it is.
* `Compilation.report_matches_header`: **the names that a run reports are those of the header that
  cannot be used**, in the order of the header.
-/

namespace SchemaHeader

/-! ## Usable names -/

namespace Identifier

/-- **A name that C++ takes**: ASCII letters, digits and underscores, no digit in front, no keyword,
and none of the names that are reserved for the implementation. -/
structure Usable (name : String) : Prop where
  spelling : ∃ c rest, name.toList = c :: rest ∧ (c.isAlpha = true ∨ c = '_') ∧
    ∀ d ∈ rest, d.isAlphanum = true ∨ d = '_'
  not_keyword : name ∉ keywords
  no_double_underscore : ¬ ['_', '_'] <:+: name.toList
  no_capital : ∀ c : Char, c.isUpper = true → ¬ ['_', c] <+: name.toList

theorem isCapital_iff (c : Char) : isCapital c = true ↔ c.isUpper = true := by
  have hupper : c.isUpper = decide (c.val ≥ 'A'.val ∧ c.val ≤ 'Z'.val) := rfl
  simp [isCapital, hupper, Char.le_def]

theorem isStart_iff (c : Char) : isStart c = true ↔ c.isAlpha = true ∨ c = '_' := by
  have halpha : c.isAlpha = (c.isUpper || c.isLower) := rfl
  have hlower : c.isLower = (decide (c.val ≥ 'a'.val) && decide (c.val ≤ 'z'.val)) := rfl
  rw [halpha, Bool.or_eq_true, ← isCapital_iff, hlower]
  simp [isStart, Char.le_def]

theorem isContinue_iff (c : Char) : isContinue c = true ↔ c.isAlphanum = true ∨ c = '_' := by
  have hdigit : (decide ('0' ≤ c) && decide (c ≤ '9')) = true ↔ c.isDigit = true := by
    simp [Char.isDigit, Char.le_def]
  rw [isContinue, Bool.or_eq_true, isStart_iff, hdigit, Char.isAlphanum, Bool.or_eq_true,
    or_right_comm]

theorem wellFormed_iff (s : List Char) :
    wellFormed s = true ↔ ∃ c rest, s = c :: rest ∧ (c.isAlpha = true ∨ c = '_') ∧
      ∀ d ∈ rest, d.isAlphanum = true ∨ d = '_' := by
  cases s with
  | nil => simp [wellFormed]
  | cons c rest =>
      rw [wellFormed, Bool.and_eq_true, isStart_iff, List.all_eq_true]
      simp only [isContinue_iff]
      constructor
      · rintro ⟨hc, hrest⟩
        exact ⟨c, rest, rfl, hc, hrest⟩
      · rintro ⟨_, _, heq, hc, hrest⟩
        cases heq
        exact ⟨hc, hrest⟩

theorem hasDoubleUnderscore_iff (s : List Char) :
    hasDoubleUnderscore s = true ↔ ['_', '_'] <:+: s := by
  induction s with
  | nil => simp [hasDoubleUnderscore]
  | cons c rest ih =>
      rw [List.infix_cons_iff, ← ih]
      by_cases hmark : ['_', '_'] <+: c :: rest
      · obtain ⟨tail, htail⟩ := hmark
        rw [← htail]
        simp [hasDoubleUnderscore]
      · rw [hasDoubleUnderscore]
        · exact (or_iff_right hmark).symm
        · rintro tail rfl rfl
          exact hmark ⟨tail, rfl⟩

theorem startsReserved_iff (s : List Char) :
    startsReserved s = true ↔ ∃ c : Char, c.isUpper = true ∧ ['_', c] <+: s := by
  constructor
  · intro h
    unfold startsReserved at h
    split at h
    · rename_i c rest
      exact ⟨c, (isCapital_iff c).mp h, rest, rfl⟩
    · cases h
  · rintro ⟨c, hc, rest, rfl⟩
    exact (isCapital_iff c).mpr hc

/-- **Which names pass the check.** -/
theorem fault?_eq_none_iff (name : String) : fault? name = none ↔ Usable name := by
  have hcheck : fault? name = none ↔ wellFormed name.toList = true ∧ name ∉ keywords ∧
      ¬ startsReserved name.toList = true ∧ ¬ hasDoubleUnderscore name.toList = true := by
    by_cases hformed : wellFormed name.toList = true
    · by_cases hkeyword : name ∈ keywords
      · simp [fault?, hformed, hkeyword]
      · by_cases hcapital : startsReserved name.toList = true
        · simp [fault?, hformed, hkeyword, hcapital]
        · by_cases hdouble : hasDoubleUnderscore name.toList = true
          · simp [fault?, hformed, hkeyword, hcapital, hdouble]
          · simp [fault?, hformed, hkeyword, hcapital, hdouble]
    · simp [fault?, hformed]
  rw [hcheck, wellFormed_iff, startsReserved_iff, hasDoubleUnderscore_iff]
  constructor
  · rintro ⟨hspelling, hkeyword, hcapital, hdouble⟩
    exact ⟨hspelling, hkeyword, hdouble, fun c hc hstart => hcapital ⟨c, hc, hstart⟩⟩
  · rintro ⟨hspelling, hkeyword, hdouble, hcapital⟩
    exact ⟨hspelling, hkeyword, fun ⟨c, hc, hstart⟩ => hcapital c hc hstart, hdouble⟩

end Identifier

/-! ## A header cut at its names -/

/-- A stretch of a header: fixed text, or a name that a definition brings in. -/
inductive Stretch where
  | plain (text : String)
  | name (definition identifier : String)

namespace Stretch

/-- The text of a stretch. -/
def text : Stretch → String
  | .plain text => text
  | .name _ identifier => identifier

/-- The name in a stretch, behind its definition. -/
def name? : Stretch → Option (String × String)
  | .plain _ => none
  | .name definition identifier => some (definition, identifier)

/-- The text of stretches in a row. -/
def textOf (stretches : List Stretch) : String :=
  String.join (stretches.map text)

/-- The names in stretches, in order. -/
def namesOf (stretches : List Stretch) : List (String × String) :=
  stretches.filterMap name?

theorem textOf_append (first second : List Stretch) :
    textOf (first ++ second) = textOf first ++ textOf second := by
  rw [textOf, List.map_append, String.join_append, textOf, textOf]

theorem textOf_flatMap {α : Type} (stretches : α → List Stretch) (items : List α) :
    textOf (items.flatMap stretches)
      = String.join (items.map fun item => textOf (stretches item)) := by
  induction items with
  | nil => rfl
  | cons item rest ih =>
      rw [List.flatMap_cons, textOf_append, ih, List.map_cons, String.join_cons]

theorem namesOf_append (first second : List Stretch) :
    namesOf (first ++ second) = namesOf first ++ namesOf second :=
  List.filterMap_append

theorem namesOf_flatMap {α : Type} (stretches : α → List Stretch) (items : List α) :
    namesOf (items.flatMap stretches) = items.flatMap fun item => namesOf (stretches item) :=
  List.filterMap_flatMap

end Stretch

namespace Layout

open Stretch

variable (layout : Layout)

/-- The forward declaration of a name. -/
def declarationStretches (depth : Nat) (name : String) : List Stretch :=
  [.plain (layout.tab depth ++ "class "), .name name name, .plain ";\n"]

/-- A value of an enum type, behind its comment. -/
def valueStretches (depth : Nat) (definition : String) (value : EnumValue) : List Stretch :=
  [.plain (linesText (layout.comment depth value.description) ++ layout.tab depth),
    .name definition value.label, .plain ",\n"]

/-- An enum type of a definition. -/
def enumStretches (depth : Nat) (definition : String) (type : EnumType) : List Stretch :=
  [.plain (layout.tab depth ++ "enum class "), .name definition type.name,
    .plain ("\n" ++ layout.tab depth ++ "\x7b\n")]
    ++ type.values.flatMap (layout.valueStretches (depth + 1) definition)
    ++ [.plain (layout.tab depth ++ "\x7d;\n")]

/-- **A header cut at its names**: those of the definitions where they are declared, and then those
of the enum types and of their values. -/
def stretches (definitions : List (String × List EnumType)) : List Stretch :=
  [.plain layout.openingText]
    ++ definitions.flatMap (fun definition => layout.declarationStretches 1 definition.1)
    ++ definitions.flatMap (fun definition =>
      definition.2.flatMap (layout.enumStretches 1 definition.1))
    ++ [.plain "\x7d\n"]

theorem textOf_valueStretches (depth : Nat) (definition : String) (value : EnumValue) :
    textOf (layout.valueStretches depth definition value) = layout.valueText depth value := by
  rw [← layout.linesText_enumValue]
  apply String.toList_inj.mp
  simp [valueStretches, textOf, Stretch.text, enumValue]

theorem textOf_enumStretches (depth : Nat) (definition : String) (type : EnumType) :
    textOf (layout.enumStretches depth definition type) = layout.enumText depth type := by
  have hvalues : textOf (type.values.flatMap (layout.valueStretches (depth + 1) definition))
      = String.join (type.values.map (layout.valueText (depth + 1))) := by
    simp only [textOf_flatMap, textOf_valueStretches]
  rw [enumStretches, textOf_append, textOf_append, hvalues]
  apply String.toList_inj.mp
  simp [textOf, Stretch.text, enumText]

/-- **The stretches of a header make up its text.** -/
theorem textOf_stretches (definitions : List (String × List EnumType)) :
    textOf (layout.stretches definitions)
      = layout.headerText (definitions.map Prod.fst) (definitions.map Prod.snd) := by
  have hdeclaration : ∀ name,
      textOf (layout.declarationStretches 1 name) = layout.declarationText 1 name := by
    intro name
    apply String.toList_inj.mp
    simp [declarationStretches, textOf, Stretch.text, declarationText]
  simp only [stretches, textOf_append, textOf_flatMap, hdeclaration, textOf_enumStretches,
    headerText, List.map_map]
  simp [textOf, Stretch.text, Function.comp_def]

theorem namesOf_enumStretches (depth : Nat) (definition : String) (type : EnumType) :
    namesOf (layout.enumStretches depth definition type)
      = type.identifiers.map (definition, ·) := by
  have hvalue : ∀ value, namesOf (layout.valueStretches (depth + 1) definition value)
      = [(definition, value.label)] := fun _ => rfl
  rw [enumStretches, namesOf_append, namesOf_append, namesOf_flatMap]
  simp only [hvalue, ← List.map_eq_flatMap]
  show (definition, type.name) :: type.values.map (fun value => (definition, value.label)) ++ [] = _
  rw [List.append_nil, EnumType.identifiers, List.map_cons, List.map_map]
  rfl

/-- The names of a header, in the order in which it is written. -/
theorem namesOf_stretches (definitions : List (String × List EnumType)) :
    namesOf (layout.stretches definitions)
      = definitions.map (fun definition => (definition.1, definition.1))
        ++ definitions.flatMap (fun definition =>
          definition.2.flatMap fun type => type.identifiers.map (definition.1, ·)) := by
  have hdeclaration : ∀ name, namesOf (layout.declarationStretches 1 name) = [(name, name)] :=
    fun _ => rfl
  have hplain : ∀ text, namesOf [.plain text] = [] := fun _ => rfl
  simp only [stretches, namesOf_append, namesOf_flatMap, hdeclaration, namesOf_enumStretches,
    hplain, ← List.map_eq_flatMap, List.nil_append, List.append_nil]

end Layout

/-! ## Reports -/

/-- The name that a diagnostic rejects, behind its definition, and why. -/
def Diagnostic.rejected? : Diagnostic → Option (String × String × String)
  | .invalidIdentifier definition identifier fault => some (definition, identifier, fault.reason)
  | _ => none

/-- The name of a definition with the reason for which it is rejected, if it is. -/
def Identifier.rejection? (name : String × String) : Option (String × String × String) :=
  (fault? name.2).map fun fault => (name.1, name.2, fault.reason)

theorem Diagnostic.rejected?_of_isError {diagnostic : Diagnostic} (h : diagnostic.isError = true) :
    diagnostic.rejected? = none := by
  cases diagnostic with
  | invalidIdentifier => cases h
  | reference => rfl
  | cyclicReference => rfl
  | malformedEnum => rfl

theorem filterMap_rejected?_of_isError {diagnostics : List Diagnostic}
    (h : ∀ diagnostic ∈ diagnostics, diagnostic.isError = true) :
    diagnostics.filterMap Diagnostic.rejected? = [] := by
  rw [List.filterMap_eq_nil_iff]
  exact fun diagnostic hdiagnostic => Diagnostic.rejected?_of_isError (h diagnostic hdiagnostic)

/-- The check of names rejects what cannot be used, in order. -/
theorem filterMap_rejected?_identifierDiagnostics (definition : String) (names : List String) :
    (identifierDiagnostics definition names).filterMap Diagnostic.rejected?
      = (names.map (definition, ·)).filterMap Identifier.rejection? := by
  rw [identifierDiagnostics, List.filterMap_filterMap, List.filterMap_map]
  refine List.filterMap_congr fun name _ => ?_
  show ((Identifier.fault? name).map _).bind Diagnostic.rejected? = (Identifier.fault? name).map _
  cases Identifier.fault? name with
  | none => rfl
  | some fault => rfl

/-- **What is no cycle goes through a ledger as it is**, in order. -/
theorem Ledger.filterMap_enterAll {β : Type} {view : Diagnostic → Option β}
    (hview : ∀ diagnostic, diagnostic.cycle? ≠ none → view diagnostic = none) (ledger : Ledger)
    (found : List Diagnostic) :
    (ledger.enterAll found).1.diagnostics.toList.filterMap view
      = ledger.diagnostics.toList.filterMap view ++ found.filterMap view := by
  induction found generalizing ledger with
  | nil => exact (List.append_nil _).symm
  | cons diagnostic rest ih =>
      have hentry : (ledger.enter diagnostic).1.diagnostics.toList.filterMap view
          = ledger.diagnostics.toList.filterMap view ++ [diagnostic].filterMap view := by
        rcases ledger.enter_cases diagnostic with
          ⟨_, heq⟩ | ⟨_, _, _, heq⟩ | ⟨cycle, hcycle, _, heq⟩
        · rw [heq, report, Array.toList_push, List.filterMap_append]
        · rw [heq, Array.toList_push, List.filterMap_append]
        · have hnone : view diagnostic = none := hview diagnostic (by simp [hcycle])
          rw [heq, List.filterMap_cons_none hnone, List.filterMap_nil, List.append_nil]
      show ((ledger.enter diagnostic).1.enterAll rest).1.diagnostics.toList.filterMap view = _
      rw [ih, hentry, List.append_assoc, ← List.filterMap_append, List.singleton_append]

namespace Compilation

/-- The definitions of a document, each with the enum types that are written for it. -/
def sections (document : Document) : List (String × List EnumType) :=
  document.resolutions.map fun resolution => (resolution.name, resolution.enumTypes)

theorem map_fst_sections (document : Document) :
    (sections document).map Prod.fst = document.names := by
  rw [sections, Document.resolutions, List.map_map, List.map_map]
  rfl

theorem map_snd_sections (document : Document) :
    (sections document).map Prod.snd = document.resolutions.map Resolution.enumTypes := by
  rw [sections, List.map_map]
  rfl

/-- The names of the definitions are checked in the order of their declarations. -/
theorem filterMap_rejected?_nameDiagnostics (document : Document) :
    document.nameDiagnostics.filterMap Diagnostic.rejected?
      = ((sections document).map fun definition => (definition.1, definition.1)).filterMap
        Identifier.rejection? := by
  have hnames : (sections document).map (fun definition => (definition.1, definition.1))
      = document.definitions.flatMap fun definition => [(definition.name, definition.name)] := by
    rw [← List.map_eq_flatMap, sections, Document.resolutions, List.map_map, List.map_map]
    rfl
  rw [hnames, Document.nameDiagnostics, List.filterMap_flatMap, List.filterMap_flatMap]
  simp only [filterMap_rejected?_identifierDiagnostics, List.map_cons, List.map_nil]

section Run

variable {value : Json} {document : Document}
  (hkeys : value.UniqueKeys) (hread : Document.ofJson value = .ok document)

include hkeys hread

/-- Of the problems of a definition, the last ones are those of the names of its enum types. -/
theorem filterMap_rejected?_found_resolve {definition : Definition}
    (h : definition ∈ document.definitions) :
    (Resolution.resolve document definition).found.filterMap Diagnostic.rejected?
      = ((Resolution.resolve document definition).enumTypes.flatMap fun type =>
          type.identifiers.map ((Resolution.resolve document definition).name, ·)).filterMap
        Identifier.rejection? := by
  have hwalk : (Resolution.resolve document definition).diagnostics.filterMap
      Diagnostic.rejected? = [] :=
    filterMap_rejected?_of_isError fun _ hmem => isError_of_mem_diagnostics hkeys hread h hmem
  have henums : (Resolution.resolve document definition).enumDiagnostics.filterMap
      Diagnostic.rejected? = [] := by
    refine filterMap_rejected?_of_isError fun diagnostic hmem => ?_
    obtain ⟨resolved, _, hissue⟩ := List.mem_flatMap.mp hmem
    exact isError_of_mem_issueDiagnostics hissue
  rw [Resolution.found, List.filterMap_append, List.filterMap_append, hwalk, henums,
    List.nil_append, List.nil_append, enumTypeDiagnostics, List.filterMap_flatMap,
    List.filterMap_flatMap]
  simp only [filterMap_rejected?_identifierDiagnostics]

/-- **All names of a header are checked, in the order in which it is written.** -/
theorem filterMap_rejected?_found (layout : Layout) :
    (found document).filterMap Diagnostic.rejected?
      = (Stretch.namesOf (layout.stretches (sections document))).filterMap
        Identifier.rejection? := by
  have hresolutions :
      (document.resolutions.flatMap Resolution.found).filterMap Diagnostic.rejected?
      = ((sections document).flatMap fun definition =>
          definition.2.flatMap fun type => type.identifiers.map (definition.1, ·)).filterMap
        Identifier.rejection? := by
    rw [sections, List.flatMap_map, List.filterMap_flatMap, List.filterMap_flatMap,
      Document.resolutions, List.flatMap_map, List.flatMap_map]
    refine List.flatMap_congr fun definition hdefinition => ?_
    exact filterMap_rejected?_found_resolve hkeys hread hdefinition
  rw [found, List.filterMap_append, filterMap_rejected?_nameDiagnostics, hresolutions,
    layout.namesOf_stretches, List.filterMap_append]

end Run

/-- **A run reports the names of its header that cannot be used, and no others**, in the order in
which the header has them and with the definitions that bring them in. So if it reports none, every
class, every enum type and every value of the header has a name that C++ takes. -/
theorem report_matches_header {value : Json} {document : Document} (hkeys : value.UniqueKeys)
    (hread : Document.ofJson value = .ok document) (layout : Layout) (sink : Sink)
    (hsink : sink.capacity = none) :
    (∀ name, Identifier.fault? name = none ↔ Identifier.Usable name) ∧
    (compile document layout sink).session.sink.written
      = sink.written ++ (Stretch.textOf (layout.stretches (sections document))).toUTF8 ∧
    ∃ report, (compile document layout sink).report = some report ∧
      report.diagnostics.filterMap Diagnostic.rejected?
        = (Stretch.namesOf (layout.stretches (sections document))).filterMap
          Identifier.rejection? ∧
      (report.diagnostics.filterMap Diagnostic.rejected? = [] ↔
        ∀ name ∈ Stretch.namesOf (layout.stretches (sections document)),
          Identifier.Usable name.2) := by
  obtain ⟨report, hreport⟩ :=
    Option.isSome_iff_exists.mp (isSome_report_compile document layout hsink)
  have hrejected : report.diagnostics.filterMap Diagnostic.rejected?
      = (Stretch.namesOf (layout.stretches (sections document))).filterMap
        Identifier.rejection? := by
    have hcycles : ∀ diagnostic : Diagnostic, diagnostic.cycle? ≠ none →
        diagnostic.rejected? = none := by
      intro diagnostic hcycle
      cases diagnostic with
      | invalidIdentifier => exact absurd rfl hcycle
      | reference => rfl
      | cyclicReference => rfl
      | malformedEnum => rfl
    rw [diagnostics_of_compile hreport, Ledger.filterMap_enterAll hcycles,
      filterMap_rejected?_found hkeys hread layout]
    rfl
  refine ⟨Identifier.fault?_eq_none_iff, ?_, report, hreport, hrejected, ?_⟩
  · rw [session_compile, (Session.start sink).sink_perform hsink, text_stages,
      layout.textOf_stretches, map_fst_sections, map_snd_sections]
    rfl
  · rw [hrejected, List.filterMap_eq_nil_iff]
    simp only [← Identifier.fault?_eq_none_iff, Identifier.rejection?, Option.map_eq_none_iff]

/-! ## A name with a dash -/

/-- A body with an enum property, of whose two values the first one is a keyword. -/
def dashBody : Json.Fields :=
  [("properties", .object [("mode", .object [
    ("enum", .array [.string "class", .string "fast"])])])]

/-- A document in which that body is included by a second one, under a name that can be used. -/
def dashDocument : Document where
  fields := [("two-part", .object dashBody), ("Part", .object [("$ref", .string "/two-part")])]
  definitions := [⟨"two-part", "/two-part", .ofFields dashBody⟩,
    ⟨"Part", "/Part", ⟨[.reference "/two-part"]⟩⟩]

/-- The name with the dash spoils the name of its enum type too; the keyword is reported for both
definitions. -/
theorem report_matches_dashDocument :
    dashDocument.root.UniqueKeys ∧ Document.ofJson dashDocument.root = .ok dashDocument ∧
      (Sink.empty none).capacity = none ∧
      ∃ report, (compile dashDocument { } (Sink.empty none)).report = some report ∧
        report.diagnostics.filterMap Diagnostic.rejected?
          = [("two-part", "two-part", "not an identifier"),
            ("two-part", "two-part_mode_kind", "not an identifier"),
            ("two-part", "class", "reserved keyword"), ("Part", "class", "reserved keyword")] := by
  have hkeys : dashDocument.root.UniqueKeys := by
    simp [dashDocument, dashBody, Document.root, Json.UniqueKeys, Json.UniqueKeysFields,
      Json.UniqueKeysItems]
  have hread : Document.ofJson dashDocument.root = .ok dashDocument := rfl
  obtain ⟨_, _, report, hreport, hrejected, _⟩ :=
    report_matches_header hkeys hread { } (Sink.empty none) rfl
  refine ⟨hkeys, hread, rfl, report, hreport, ?_⟩
  rw [hrejected]
  decide +kernel

end Compilation

end SchemaHeader

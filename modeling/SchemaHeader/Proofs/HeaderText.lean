import SchemaHeader.Proofs.DefinitionPointers
import SchemaHeader.Proofs.RunReport
import Mathlib.Algebra.Ring.Nat

set_option autoImplicit false

/-! # The text of a header, written and rendered

A run writes a header line by line, between the walks of its definitions. `Layout.headerText` says
what the header is as one text, from the names of the definitions and from their enum types alone,
without a word of when a line is written.

* `Sink.writeLines_of_unbounded`, `Session.sink_perform`: a sink without a capacity takes all the
  lines of all stages, whatever is told and reported in between.
* `Compilation.text_stages`: the lines of the stages of a run make up the text of the header.
* `Compilation.compile_renders_survey`: **a run reports what a survey reports and writes the text of
  what the survey has flattened**, whether the document has problems or not.
-/

namespace SchemaHeader

/-! ## Texts -/

namespace Layout

/-- The text up to the opening of the namespace. -/
def openingText (layout : Layout) : String :=
  String.join ("#pragma once\n"
    :: layout.includes.map (fun header => "#include <" ++ header ++ ">\n")
    ++ ["\nnamespace ", layout.namespaceName, "\n\x7b\n"])

/-- The forward declaration of a name. -/
def declarationText (layout : Layout) (depth : Nat) (name : String) : String :=
  layout.tab depth ++ "class " ++ name ++ ";\n"

/-- A value of an enum type and a comma, behind three lines of comment if it is described. -/
def valueText (layout : Layout) (depth : Nat) (value : EnumValue) : String :=
  match value.description with
  | none => layout.tab depth ++ value.label ++ ",\n"
  | some description =>
    layout.tab depth ++ "/*\n" ++ layout.tab depth ++ description ++ "\n"
      ++ layout.tab depth ++ "*/\n" ++ layout.tab depth ++ value.label ++ ",\n"

/-- An enum type with its values one level deeper. -/
def enumText (layout : Layout) (depth : Nat) (type : EnumType) : String :=
  layout.tab depth ++ "enum class " ++ type.name ++ "\n" ++ layout.tab depth ++ "\x7b\n"
    ++ String.join (type.values.map (layout.valueText (depth + 1)))
    ++ layout.tab depth ++ "\x7d;\n"

/-- **The text of a header** with one forward declaration for each name, and then the enum types of
one definition after the other. -/
def headerText (layout : Layout) (names : List String) (types : List (List EnumType)) : String :=
  layout.openingText
    ++ String.join (names.map (layout.declarationText 1))
    ++ String.join (types.map fun group => String.join (group.map (layout.enumText 1)))
    ++ "\x7d\n"

end Layout

/-! ## Lines -/

/-- Lines as one text, with a line end behind each. -/
def linesText (lines : List String) : String :=
  String.join (lines.map (· ++ "\n"))

@[simp] theorem linesText_nil : linesText [] = "" := rfl

@[simp] theorem linesText_cons (line : String) (rest : List String) :
    linesText (line :: rest) = line ++ "\n" ++ linesText rest := by
  simp [linesText, String.join_cons]

@[simp] theorem linesText_append (first second : List String) :
    linesText (first ++ second) = linesText first ++ linesText second := by
  simp [linesText, String.join_append]

theorem linesText_flatMap {α : Type} (lines : α → List String) (items : List α) :
    linesText (items.flatMap lines)
      = String.join (items.map fun item => linesText (lines item)) := by
  induction items with
  | nil => rfl
  | cons item rest ih =>
      rw [List.flatMap_cons, linesText_append, ih, List.map_cons, String.join_cons]

theorem linesText_map {α : Type} (line : α → String) (items : List α) :
    linesText (items.map line) = String.join (items.map fun item => line item ++ "\n") := by
  rw [linesText, List.map_map]
  rfl

namespace Layout

-- Both sides are compared character by character, since the pieces of a line are cut differently.

theorem linesText_preamble (layout : Layout) : linesText layout.preamble = layout.openingText := by
  apply String.toList_inj.mp
  simp [preamble, openingText, linesText_map, String.append_assoc]

theorem linesText_forwardDeclarations (layout : Layout) (depth : Nat) (names : List String) :
    linesText (layout.forwardDeclarations depth names)
      = String.join (names.map (layout.declarationText depth)) := by
  have hline : ∀ name, layout.tab depth ++ "class " ++ name ++ ";" ++ "\n"
      = layout.declarationText depth name := by
    intro name
    apply String.toList_inj.mp
    simp [declarationText]
  simp only [forwardDeclarations, linesText_map, hline]

theorem linesText_enumValue (layout : Layout) (depth : Nat) (value : EnumValue) :
    linesText (layout.enumValue depth value) = layout.valueText depth value := by
  apply String.toList_inj.mp
  cases h : value.description with
  | none => simp [enumValue, valueText, comment, h]
  | some description => simp [enumValue, valueText, comment, h]

theorem linesText_enumType (layout : Layout) (depth : Nat) (type : EnumType) :
    linesText (layout.enumType depth type) = layout.enumText depth type := by
  have hvalues : linesText (type.values.flatMap (layout.enumValue (depth + 1)))
      = String.join (type.values.map (layout.valueText (depth + 1))) := by
    simp only [linesText_flatMap, linesText_enumValue]
  apply String.toList_inj.mp
  simp [enumType, enumText, hvalues]

theorem linesText_enumTypes (layout : Layout) (depth : Nat) (types : List EnumType) :
    linesText (layout.enumTypes depth types)
      = String.join (types.map (layout.enumText depth)) := by
  simp only [enumTypes, linesText_flatMap, linesText_enumType]

end Layout

/-! ## Runs into a sink without a capacity -/

namespace Sink

/-- The sink after it has taken a whole text. -/
def after (sink : Sink) (text : String) : Sink :=
  ⟨sink.capacity, sink.written ++ text.toUTF8⟩

theorem after_empty (sink : Sink) : sink.after "" = sink := by
  simp [after]

theorem after_after (sink : Sink) (first second : String) :
    (sink.after first).after second = sink.after (first ++ second) := by
  simp [after, String.toByteArray_append, ByteArray.append_assoc]

/-- A sink without a capacity takes lines as one text. -/
theorem writeLines_of_unbounded (sink : Sink) (h : sink.capacity = none) (lines : List String) :
    sink.writeLines lines = (sink.after (linesText lines), true) := by
  induction lines generalizing sink with
  | nil => rw [writeLines, linesText_nil, after_empty]
  | cons line rest ih =>
      have hwrite : sink.write (line ++ "\n").toUTF8 = (sink.after (line ++ "\n"), true) := by
        rw [write, h, after, h]
      calc sink.writeLines (line :: rest)
          = (sink.after (line ++ "\n")).writeLines rest := by rw [writeLines, hwrite]
        _ = ((sink.after (line ++ "\n")).after (linesText rest), true) := ih _ h
        _ = (sink.after (linesText (line :: rest)), true) := by rw [after_after, linesText_cons]

end Sink

/-- The lines that a stage writes. -/
def Stage.lines : Stage → List String
  | .write lines => lines
  | _ => []

/-- **Stages carried out into a sink without a capacity leave their lines in it**, whatever they
tell and report in between. -/
theorem Session.sink_perform (session : Session) (h : session.sink.capacity = none)
    (stages : List Stage) :
    (session.perform stages).1.sink
      = session.sink.after (linesText (stages.flatMap Stage.lines)) := by
  induction stages generalizing session with
  | nil => exact (session.sink.after_empty).symm
  | cons stage rest ih =>
      -- The capacity stays as it is through every stage, which is all the induction needs.
      cases stage with
      | tell events => exact ih _ h
      | report found => exact ih _ h
      | write lines =>
          rw [perform, session.sink.writeLines_of_unbounded h lines, List.flatMap_cons,
            linesText_append, ← Sink.after_after]
          exact ih { session with sink := session.sink.after (linesText lines) } h

namespace Compilation

/-- **The lines of a run make up the text of a header**: the names of the document are declared, and
the enum types of the flattened definitions follow in order. -/
theorem text_stages (document : Document) (resolutions : List Resolution) (layout : Layout) :
    linesText ((stages document resolutions layout).flatMap Stage.lines)
      = layout.headerText document.names (resolutions.map Resolution.enumTypes) := by
  have hdefinitions :
      linesText ((resolutions.flatMap (definitionStages layout)).flatMap Stage.lines)
      = String.join ((resolutions.map Resolution.enumTypes).map fun group =>
          String.join (group.map (layout.enumText 1))) := by
    have hlines : ∀ resolution : Resolution,
        linesText ((definitionStages layout resolution).flatMap Stage.lines)
          = String.join (resolution.enumTypes.map (layout.enumText 1)) := by
      -- Of the three stages of a definition, only the last one writes.
      intro resolution
      rw [← Layout.linesText_enumTypes]
      simp [definitionStages, Stage.lines]
    rw [List.flatMap_assoc, linesText_flatMap, List.map_map]
    simp only [hlines]
    rfl
  simp only [stages, List.flatMap_append, linesText_append, hdefinitions]
  simp [Stage.lines, Layout.headerText, Layout.linesText_preamble,
    Layout.linesText_forwardDeclarations, Layout.closing]

theorem session_compile (document : Document) (layout : Layout) (sink : Sink) :
    (compile document layout sink).session
      = ((Session.start sink).perform (stages document document.resolutions layout)).1 := by
  unfold compile
  simp only
  split
  · rename_i session heq
    rw [heq]
  · rename_i session heq
    rw [heq]

/-- The counts of a finished run. -/
theorem counts_of_compile {document : Document} {layout : Layout} {sink : Sink} {report : Report}
    (h : (compile document layout sink).report = some report) :
    report.definitions = document.size ∧ report.enums = enumCount document.resolutions := by
  unfold compile at h
  simp only at h
  split at h
  · cases h
    exact ⟨rfl, rfl⟩
  · cases h

/-- **A run reports what a survey reports, and writes the text of what the survey has flattened.**
Into a sink without a capacity it comes to its end, and what it has then written is the text of the
header with the keys of the document declared in their order, and the enum types of the surveyed
definitions. -/
theorem compile_renders_survey {value : Json} {document : Document}
    (hread : Document.ofJson value = .ok document) (layout : Layout) (sink : Sink)
    (hsink : sink.capacity = none) :
    ∃ report, (compile document layout sink).report = some report ∧
      report.diagnostics = (resolveAll document).ledger.diagnostics.toList ∧
      report.definitions = (resolveAll document).resolutions.length ∧
      report.definitions = document.fields.keys.length ∧
      report.enums = ((resolveAll document).resolutions.map fun resolution =>
        resolution.enumTypes.length).sum ∧
      (compile document layout sink).session.sink.written
        = sink.written ++ (layout.headerText document.fields.keys
            ((resolveAll document).resolutions.map Resolution.enumTypes)).toUTF8 := by
  obtain ⟨report, hreport⟩ :=
    Option.isSome_iff_exists.mp (isSome_report_compile document layout hsink)
  obtain ⟨hdefinitions, henums⟩ := counts_of_compile hreport
  have hresolutions : (resolveAll document).resolutions = document.resolutions := rfl
  have hkeys : document.names = document.fields.keys := Document.map_name_eq_keys hread
  refine ⟨report, hreport, ?_, ?_, ?_, ?_, ?_⟩
  · rw [diagnostics_of_compile hreport, ledger_resolveAll]
  · rw [hdefinitions, hresolutions, Document.resolutions, List.length_map, Document.size]
  · rw [hdefinitions, ← hkeys, Document.names, List.length_map, Document.size]
  · rw [henums, hresolutions, enumCount, List.length_flatMap]
  · rw [session_compile, (Session.start sink).sink_perform hsink, text_stages, hkeys]
    rfl

/-! ## A car with a described fuel -/

/-- A body that refers to something missing and has an enum property, of whose two values the first
one is described. -/
def carBody : Json.Fields :=
  [("allof", .array [
    .object [("$ref", .string "#/X")],
    .object [("properties", .object [("fuel", .object [
      ("enum", .array [.string "gas", .string "oil"]),
      ("enumDescription", .array [.string "light"])])])]])]

/-- The document of that one body. -/
def carDocument : Document where
  fields := [("Car", .object carBody)]
  definitions := [⟨"Car", "/Car", .ofFields carBody⟩]

/-- The header of the car, with three blanks for each level of indentation. -/
def carHeader : String :=
  "#pragma once\n#include <map>\n\nnamespace data\n\x7b\n   class Car;\n"
    ++ "   enum class Car_fuel_kind\n   \x7b\n"
    ++ "      /*\n      light\n      */\n      gas,\n      oil,\n"
    ++ "   \x7d;\n\x7d\n"

theorem enumTypes_carDocument : carDocument.resolutions.map Resolution.enumTypes
    = [[⟨"Car_fuel_kind", "fuel", [⟨"gas", some "light"⟩, ⟨"oil", none⟩]⟩]] := by
  decide +kernel

theorem headerText_carDocument :
    Layout.headerText ⟨"data", ["map"], 3⟩ carDocument.names
      (carDocument.resolutions.map Resolution.enumTypes) = carHeader := by
  rw [enumTypes_carDocument]
  decide +kernel

/-- The run reports the missing reference, and still writes the whole header. -/
theorem compile_renders_carDocument :
    Document.ofJson carDocument.root = .ok carDocument ∧ (Sink.empty none).capacity = none ∧
      ∃ report, (compile carDocument ⟨"data", ["map"], 3⟩ (Sink.empty none)).report
          = some report ∧
        report.diagnostics = [.reference "Car" "#/X" .notFound] ∧
        report.definitions = 1 ∧ report.enums = 1 ∧
        (compile carDocument ⟨"data", ["map"], 3⟩ (Sink.empty none)).session.sink.written
          = carHeader.toUTF8 := by
  have hread : Document.ofJson carDocument.root = .ok carDocument := rfl
  have hsink : (Sink.empty none).capacity = none := rfl
  have hresolutions : (resolveAll carDocument).resolutions = carDocument.resolutions := rfl
  have hkeys : carDocument.fields.keys = carDocument.names := rfl
  obtain ⟨report, hreport, hdiagnostics, _, hdefinitions, henums, hwritten⟩ :=
    compile_renders_survey hread ⟨"data", ["map"], 3⟩ (Sink.empty none) hsink
  rw [hresolutions] at henums hwritten
  refine ⟨hread, hsink, report, hreport, ?_, hdefinitions, ?_, ?_⟩
  · rw [hdiagnostics]
    decide +kernel
  · have hlengths := congrArg (fun groups => (groups.map List.length).sum) enumTypes_carDocument
    rw [List.map_map] at hlengths
    exact henums.trans hlengths
  · rw [hwritten, hkeys, headerText_carDocument]
    exact ByteArray.empty_append

end Compilation

end SchemaHeader

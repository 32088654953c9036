import SchemaHeader.Proofs.HeaderText

set_option autoImplicit false

/-! # Sinks that fill up

A header goes to its sink in many pieces, and any of them may be the one that does not fit. **Where
one piece ends and the next one begins does not matter**: a sink of some capacity is left with the
first bytes of all that was to be written, up to its capacity, and the writing comes to its end
exactly if all of it fits.

* `Sink.writeLines_of_capacity`: lines written to a sink of some capacity.
* `Session.perform_writes`: of a run, its sink sees the lines only, one stage after the other.
* `Compilation.report_compile`: what a run reports, if its sink takes all lines.
* `Compilation.compile_cut_short`: **a sink that fills up cuts the header short, and does nothing
  else**; the same goes for passages of a header that are written one by one.
-/

namespace SchemaHeader

/-- The first bytes, up to a number that is not reached, are all of them. -/
theorem extract_of_size_le {bytes : ByteArray} {n : Nat} (h : bytes.size ≤ n) :
    bytes.extract 0 n = bytes := by
  rw [← Nat.max_eq_left h]
  exact ByteArray.extract_zero_max_size

/-! ## Bytes and lines -/

namespace Sink

/-- **Bytes that are written to a sink of some capacity** join what it holds, and all of it together
is cut at the capacity. -/
theorem write_of_capacity {sink : Sink} {capacity : Nat} (hcapacity : sink.capacity = some capacity)
    (hroom : sink.written.size ≤ capacity) (bytes : ByteArray) :
    sink.write bytes
      = (⟨some capacity, (sink.written ++ bytes).extract 0 capacity⟩,
        decide ((sink.written ++ bytes).size ≤ capacity)) := by
  rw [write, hcapacity]
  simp only
  by_cases hfits : bytes.size ≤ capacity - sink.written.size
  · have hall : (sink.written ++ bytes).size ≤ capacity := by
      rw [ByteArray.size_append]
      omega
    rw [if_pos hfits, extract_of_size_le hall, decide_eq_true hall]
  · have hnot : ¬ (sink.written ++ bytes).size ≤ capacity := by
      rw [ByteArray.size_append]
      omega
    rw [if_neg hfits, decide_eq_false hnot, ByteArray.extract_append, extract_of_size_le hroom,
      Nat.zero_sub]

/-- Lines are written in two goes, if the first go comes to its end. -/
theorem writeLines_append (sink : Sink) (first second : List String) :
    sink.writeLines (first ++ second)
      = match sink.writeLines first with
        | (next, true) => next.writeLines second
        | (next, false) => (next, false) := by
  induction first generalizing sink with
  | nil => rfl
  | cons line rest ih =>
      rw [List.cons_append, writeLines, writeLines]
      generalize sink.write (line ++ "\n").toUTF8 = written
      obtain ⟨next, fits⟩ := written
      cases fits with
      | true => exact ih next
      | false => rfl

/-- **Lines that are written to a sink of some capacity** are cut as the one text that they make
up. -/
theorem writeLines_of_capacity (lines : List String) {sink : Sink} {capacity : Nat}
    (hcapacity : sink.capacity = some capacity) (hroom : sink.written.size ≤ capacity) :
    sink.writeLines lines
      = (⟨some capacity, (sink.written ++ (linesText lines).toUTF8).extract 0 capacity⟩,
        decide ((sink.written ++ (linesText lines).toUTF8).size ≤ capacity)) := by
  induction lines generalizing sink with
  | nil =>
      have hempty : sink.written ++ (linesText []).toUTF8 = sink.written := by simp
      rw [writeLines, hempty, extract_of_size_le hroom, decide_eq_true hroom, ← hcapacity]
  | cons line rest ih =>
      -- What the first line leaves is a prefix of what all lines leave.
      have hwhole : sink.written ++ (linesText (line :: rest)).toUTF8
          = sink.written ++ (line ++ "\n").toUTF8 ++ (linesText rest).toUTF8 := by
        simp only [linesText_cons, String.toUTF8, String.toByteArray_append,
          ByteArray.append_assoc]
      rw [writeLines, write_of_capacity hcapacity hroom, hwhole]
      generalize sink.written ++ (line ++ "\n").toUTF8 = front
      by_cases hfits : front.size ≤ capacity
      · rw [decide_eq_true hfits, extract_of_size_le hfits]
        exact ih rfl hfits
      · have hnot : ¬ (front ++ (linesText rest).toUTF8).size ≤ capacity := by
          rw [ByteArray.size_append]
          omega
        have hbehind : capacity - front.size = 0 := by omega
        rw [decide_eq_false hfits, decide_eq_false hnot, ByteArray.extract_append, Nat.zero_sub,
          hbehind, ByteArray.extract_same, ByteArray.append_empty]

/-- **What an empty sink is left with**: without a capacity the whole text of the lines, and with
one its first bytes. -/
theorem writeLines_empty (lines : List String) (capacity : Nat) :
    (empty none).writeLines lines = (⟨none, (linesText lines).toUTF8⟩, true) ∧
    (empty (some capacity)).writeLines lines
      = (⟨some capacity, (linesText lines).toUTF8.extract 0 capacity⟩,
        decide ((linesText lines).toUTF8.size ≤ capacity)) := by
  have hnothing : ByteArray.empty ++ (linesText lines).toUTF8 = (linesText lines).toUTF8 :=
    ByteArray.empty_append
  constructor
  · rw [writeLines_of_unbounded (empty none) rfl]
    simp only [after, empty, hnothing]
  · have hcapacity : (empty (some capacity)).capacity = some capacity := rfl
    rw [writeLines_of_capacity lines hcapacity (Nat.zero_le capacity)]
    simp only [empty, hnothing]

end Sink

/-! ## Runs -/

/-- **Of a run, the sink sees the lines only**: what is told and reported in between changes neither
what the sink is left with nor whether all stages are carried out. -/
theorem Session.perform_writes (session : Session) (stages : List Stage) :
    ((session.perform stages).1.sink, (session.perform stages).2)
      = session.sink.writeLines (stages.flatMap Stage.lines) := by
  induction stages generalizing session with
  | nil => rfl
  | cons stage rest ih =>
      cases stage with
      | tell events => exact ih _
      | report found => exact ih _
      | write lines =>
          have hlines : (Stage.write lines :: rest).flatMap Stage.lines
              = lines ++ rest.flatMap Stage.lines := List.flatMap_cons
          rw [hlines, Sink.writeLines_append, perform]
          generalize session.sink.writeLines lines = written
          obtain ⟨sink, fits⟩ := written
          cases fits with
          | true => exact ih _
          | false => rfl

namespace Compilation

/-- The lines of a header, one stage of the run after the other. -/
def headerLines (document : Document) (layout : Layout) : List String :=
  (stages document document.resolutions layout).flatMap Stage.lines

/-- The report of a run that comes to its end. -/
def finishedReport (document : Document) : Report where
  diagnostics := (Ledger.empty.enterAll (found document)).1.diagnostics.toList
  definitions := document.size
  enums := enumCount document.resolutions

/-- The sink of a run is left with the lines of the header. -/
theorem sink_compile (document : Document) (layout : Layout) (sink : Sink) :
    (compile document layout sink).session.sink
      = (sink.writeLines (headerLines document layout)).1 := by
  have hwrites := (Session.start sink).perform_writes
    (stages document document.resolutions layout)
  rw [session_compile]
  exact congrArg Prod.fst hwrites

/-- **A run reports what its document has to report, if the sink takes all lines**, and nothing
otherwise. -/
theorem report_compile (document : Document) (layout : Layout) (sink : Sink) :
    (compile document layout sink).report
      = if (sink.writeLines (headerLines document layout)).2 then some (finishedReport document)
        else none := by
  have hwrites := (Session.start sink).perform_writes
    (stages document document.resolutions layout)
  have hledger := (Session.start sink).ledger_perform
    (stages document document.resolutions layout)
  have hsink : (Session.start sink).sink = sink := rfl
  rw [hsink] at hwrites
  rw [headerLines, ← hwrites, finishedReport, ← reported_stages document layout]
  unfold compile
  simp only
  generalize (Session.start sink).perform (stages document document.resolutions layout) = result
    at hledger
  obtain ⟨session, finished⟩ := result
  cases finished with
  | true =>
      have hdiagnostics := congrArg (fun ledger => ledger.diagnostics.toList) (hledger rfl)
      simp only [Session.start] at hdiagnostics
      simp only [if_true, hdiagnostics]
  | false => rfl

/-- A run into a sink without a capacity always reports. -/
theorem report_compile_empty (document : Document) (layout : Layout) :
    (compile document layout (Sink.empty none)).report = some (finishedReport document) := by
  rw [report_compile, (Sink.writeLines_empty _ 0).1, if_pos rfl]

/-- A run into an empty sink without a capacity leaves its lines in it. -/
theorem written_compile_empty (document : Document) (layout : Layout) :
    (compile document layout (Sink.empty none)).session.sink.written
      = (linesText (headerLines document layout)).toUTF8 := by
  rw [sink_compile, (Sink.writeLines_empty _ 0).1]

end Compilation

/-! ## Passages -/

/-- A passage of a header that can be written by itself. -/
inductive Passage where
  | preamble
  | forwardDeclarations (depth : Nat) (names : List String)
  | enumTypes (depth : Nat) (types : List EnumType)
  | closing

/-- The lines of a passage. -/
def Passage.lines (layout : Layout) : Passage → List String
  | .preamble => layout.preamble
  | .forwardDeclarations depth names => layout.forwardDeclarations depth names
  | .enumTypes depth types => layout.enumTypes depth types
  | .closing => Layout.closing

/-- Writes passages one after the other, up to the first that does not fit. -/
def Sink.writePassages (sink : Sink) (layout : Layout) : List Passage → Sink × Bool
  | [] => (sink, true)
  | passage :: rest =>
    match sink.writeLines (passage.lines layout) with
    | (next, true) => next.writePassages layout rest
    | (next, false) => (next, false)

/-- Passages are written line by line. -/
theorem Sink.writePassages_eq (sink : Sink) (layout : Layout) (passages : List Passage) :
    sink.writePassages layout passages
      = sink.writeLines (passages.flatMap (Passage.lines layout)) := by
  induction passages generalizing sink with
  | nil => rfl
  | cons passage rest ih =>
      rw [List.flatMap_cons, writeLines_append, writePassages]
      generalize sink.writeLines (passage.lines layout) = written
      obtain ⟨next, fits⟩ := written
      cases fits with
      | true => exact ih next
      | false => rfl

namespace Compilation

/-- **A sink that fills up cuts the header short, and does nothing else.** With `full` for the bytes
that a sink without a capacity is left with: if they fit, a run reports and writes the same, and
otherwise it reports nothing and leaves the first bytes, up to the capacity. So do passages that are
written one by one, up to the first that does not fit. -/
theorem compile_cut_short (document : Document) (layout : Layout) (capacity : Nat) :
    (∃ report full,
      (compile document layout (Sink.empty none)).report = some report ∧
      (compile document layout (Sink.empty none)).session.sink.written = full ∧
      (compile document layout (Sink.empty (some capacity))).report
        = (if full.size ≤ capacity then some report else none) ∧
      (compile document layout (Sink.empty (some capacity))).session.sink.written
        = (if full.size ≤ capacity then full else full.extract 0 capacity)) ∧
    ∀ passages, ∃ full,
      (Sink.empty none).writePassages layout passages = (⟨none, full⟩, true) ∧
      (Sink.empty (some capacity)).writePassages layout passages
        = (⟨some capacity, if full.size ≤ capacity then full else full.extract 0 capacity⟩,
          decide (full.size ≤ capacity)) := by
  -- What fits is its own first bytes, so both branches are one cut.
  have hcut : ∀ full : ByteArray,
      (if full.size ≤ capacity then full else full.extract 0 capacity)
        = full.extract 0 capacity := by
    intro full
    split
    · rename_i hfits
      exact (extract_of_size_le hfits).symm
    · rfl
  constructor
  · have hpart := (Sink.writeLines_empty (headerLines document layout) capacity).2
    refine ⟨finishedReport document, (linesText (headerLines document layout)).toUTF8,
      report_compile_empty document layout, written_compile_empty document layout, ?_, ?_⟩
    · rw [report_compile, hpart]
      simp only [decide_eq_true_eq]
    · rw [sink_compile, hpart, hcut]
  · intro passages
    obtain ⟨hwhole, hpart⟩ :=
      Sink.writeLines_empty (passages.flatMap (Passage.lines layout)) capacity
    refine ⟨(linesText (passages.flatMap (Passage.lines layout))).toUTF8, ?_, ?_⟩
    · rw [Sink.writePassages_eq, hwhole]
    · rw [Sink.writePassages_eq, hpart, hcut]

/-- The header of the car has 153 bytes. A sink of 70 bytes is left with its first words, cut in the
middle of one, and nothing is reported; 152 bytes are one too few, and 153 are enough. Of two
passages the first one already fills a sink of 20 bytes. -/
theorem compile_cut_short_carDocument :
    carHeader.toUTF8.size = 153 ∧
      (compile carDocument ⟨"data", ["map"], 3⟩ (Sink.empty (some 70))).report = none ∧
      (compile carDocument ⟨"data", ["map"], 3⟩ (Sink.empty (some 70))).session.sink.written
        = ("#pragma once\n#include <map>\n\nnamespace data\n\x7b\n   class Car;\n"
          ++ "   enum cl").toUTF8 ∧
      (compile carDocument ⟨"data", ["map"], 3⟩ (Sink.empty (some 152))).report = none ∧
      (compile carDocument ⟨"data", ["map"], 3⟩ (Sink.empty (some 153))).report
        = some ⟨[.reference "Car" "#/X" .notFound], 1, 1⟩ ∧
      (compile carDocument ⟨"data", ["map"], 3⟩ (Sink.empty (some 153))).session.sink.written
        = carHeader.toUTF8 ∧
      (Sink.empty (some 20)).writePassages ⟨"data", ["map"], 3⟩ [.preamble, .closing]
        = (⟨some 20, "#pragma once\n#includ".toUTF8⟩, false) := by
  have hsize : carHeader.toUTF8.size = 153 := rfl
  have hreport : finishedReport carDocument = ⟨[.reference "Car" "#/X" .notFound], 1, 1⟩ := by
    decide +kernel
  -- All runs come from one statement about any capacity, with the header and its report put in.
  have hcut : ∀ capacity,
      (compile carDocument ⟨"data", ["map"], 3⟩ (Sink.empty (some capacity))).report
        = (if 153 ≤ capacity then some ⟨[.reference "Car" "#/X" .notFound], 1, 1⟩ else none) ∧
      (compile carDocument ⟨"data", ["map"], 3⟩ (Sink.empty (some capacity))).session.sink.written
        = (if 153 ≤ capacity then carHeader.toUTF8 else carHeader.toUTF8.extract 0 capacity) := by
    intro capacity
    obtain ⟨⟨report, full, hsome, hfull, hpart, hfirst⟩, _⟩ :=
      compile_cut_short carDocument ⟨"data", ["map"], 3⟩ capacity
    rw [report_compile_empty, hreport] at hsome
    rw [written_compile_empty, headerLines, text_stages, headerText_carDocument] at hfull
    rw [hpart, hfirst, ← hsome, ← hfull, hsize]
    exact ⟨rfl, rfl⟩
  refine ⟨hsize, (hcut 70).1, ?_, (hcut 152).1, (hcut 153).1, (hcut 153).2, ?_⟩
  · rw [(hcut 70).2, if_neg (by omega)]
    decide +kernel
  · obtain ⟨full, hfull, hfirst⟩ :=
      (compile_cut_short carDocument ⟨"data", ["map"], 3⟩ 20).2 [.preamble, .closing]
    cases hfull
    exact hfirst

end Compilation

end SchemaHeader

import SchemaHeader.Proofs.CycleReports

set_option autoImplicit false

/-! # What a report leaves out

A ledger compares the keys of cycles. `withoutRepeats` says what is reported without ledger and
keys: all diagnostics in order, less the cycles that an earlier one gives from another entry.

* `Ledger.Knows`: the invariant of a run. The keys of a ledger are those of all cycles that have
  been entered, kept or not.
* `Ledger.Knows.diagnostics_enterAll`: **entering diagnostics reports those that repeat no earlier
  cycle**.
* `Compilation.report_omits_repeats`: what a run and a survey report, and that **a run succeeds
  exactly if no definition has a problem of its own**. A cycle that is left out was reported before,
  so a failing definition cannot hide behind another one.
-/

namespace SchemaHeader

/-! ## Repeated cycles -/

/-- **The diagnostic reports a cycle that an earlier one reports**, entered at the same place or at
another: without the closing pointers, one is a rotation of the other. -/
def Diagnostic.RepeatsCycle (diagnostic : Diagnostic) (earlier : List Diagnostic) : Prop :=
  ∃ cycle ∈ diagnostic.cycle?, ∃ other ∈ cyclesOf earlier,
    cycle.dropLast.IsRotated other.dropLast

instance (diagnostic : Diagnostic) (earlier : List Diagnostic) :
    Decidable (diagnostic.RepeatsCycle earlier) :=
  inferInstanceAs (Decidable (∃ cycle ∈ diagnostic.cycle?, ∃ other ∈ cyclesOf earlier,
    cycle.dropLast.IsRotated other.dropLast))

/-- The diagnostics less the repeated cycles among them; `earlier` are all that come before, those
left out included. -/
def withoutRepeats (earlier : List Diagnostic) : List Diagnostic → List Diagnostic
  | [] => []
  | diagnostic :: rest =>
    if diagnostic.RepeatsCycle earlier then withoutRepeats (earlier ++ [diagnostic]) rest
    else diagnostic :: withoutRepeats (earlier ++ [diagnostic]) rest

theorem Diagnostic.not_repeatsCycle_of_none {diagnostic : Diagnostic}
    (h : diagnostic.cycle? = none) (earlier : List Diagnostic) :
    ¬ diagnostic.RepeatsCycle earlier := by
  rintro ⟨cycle, hcycle, _⟩
  rw [h] at hcycle
  cases hcycle

theorem Diagnostic.not_repeatsCycle_of_nil {earlier : List Diagnostic} (h : cyclesOf earlier = [])
    (diagnostic : Diagnostic) : ¬ diagnostic.RepeatsCycle earlier := by
  rintro ⟨_, _, other, hother, _⟩
  rw [h] at hother
  cases hother

/-! ## Ledgers -/

namespace Ledger

/-- **The invariant of a run**: the ledger knows the keys of the cycles that have been entered, and
no others. -/
def Knows (ledger : Ledger) (entered : List Diagnostic) : Prop :=
  ∀ key, key ∈ ledger.cycles ↔ key ∈ (cyclesOf entered).map cycleKey

theorem knows_empty : empty.Knows [] := by
  intro key
  simp [empty, cyclesOf]

/-- An entry keeps the invariant. -/
theorem Knows.enter {ledger : Ledger} {entered : List Diagnostic} (h : ledger.Knows entered)
    (diagnostic : Diagnostic) : (ledger.enter diagnostic).1.Knows (entered ++ [diagnostic]) := by
  intro key
  rw [cyclesOf_concat, List.map_append, List.mem_append]
  rcases ledger.enter_cases diagnostic with
    ⟨hnone, heq⟩ | ⟨cycle, hcycle, _, heq⟩ | ⟨cycle, hcycle, hknown, heq⟩
  · rw [heq, hnone]
    show key ∈ ledger.cycles ↔ _
    rw [h key]
    simp
  · rw [heq, hcycle]
    show key ∈ cycleKey cycle :: ledger.cycles ↔ _
    rw [List.mem_cons, h key, or_comm]
    simp
  · -- The cycle is left out, but its key is known from an earlier one.
    rw [heq, hcycle, h key]
    constructor
    · exact Or.inl
    · rintro (hold | hnew)
      · exact hold
      · rw [List.mem_singleton.mp hnew]
        exact (h _).mp hknown

/-- Entries keep the invariant. -/
theorem Knows.enterAll {ledger : Ledger} {entered : List Diagnostic} (h : ledger.Knows entered)
    (found : List Diagnostic) : (ledger.enterAll found).1.Knows (entered ++ found) := by
  induction found generalizing ledger entered with
  | nil =>
      rw [List.append_nil]
      exact h
  | cons diagnostic rest ih =>
      have hrest := ih (h.enter diagnostic)
      rw [List.append_assoc, List.singleton_append] at hrest
      exact hrest

/-- **A key is known exactly if the cycle repeats an earlier one.** -/
theorem Knows.mem_cycles_iff {ledger : Ledger} {entered : List Diagnostic}
    (h : ledger.Knows entered) {diagnostic : Diagnostic} {cycle : List String}
    (hcycle : diagnostic.cycle? = some cycle) (hnodup : cycle.dropLast.Nodup) :
    cycleKey cycle ∈ ledger.cycles ↔ diagnostic.RepeatsCycle entered := by
  rw [h, List.mem_map]
  constructor
  · rintro ⟨other, hother, hkey⟩
    exact ⟨cycle, hcycle, other, hother, (cycleKey_eq_iff hnodup).mp hkey.symm⟩
  · rintro ⟨cycle', hcycle', other, hother, hrotated⟩
    rw [hcycle, Option.mem_some_iff] at hcycle'
    subst hcycle'
    exact ⟨other, hother, ((cycleKey_eq_iff hnodup).mpr hrotated).symm⟩

/-- One entry reports its diagnostic, unless that repeats a cycle. -/
theorem Knows.diagnostics_enter {ledger : Ledger} {entered : List Diagnostic}
    (h : ledger.Knows entered) {diagnostic : Diagnostic}
    (hnodup : ∀ cycle ∈ diagnostic.cycle?, cycle.dropLast.Nodup) :
    (ledger.enter diagnostic).1.diagnostics.toList
      = ledger.diagnostics.toList
        ++ if diagnostic.RepeatsCycle entered then [] else [diagnostic] := by
  rcases ledger.enter_cases diagnostic with
    ⟨hnone, heq⟩ | ⟨cycle, hcycle, hnew, heq⟩ | ⟨cycle, hcycle, hknown, heq⟩
  · rw [heq, if_neg (Diagnostic.not_repeatsCycle_of_none hnone entered)]
    exact Array.toList_push
  · rw [h.mem_cycles_iff hcycle (hnodup cycle hcycle)] at hnew
    rw [heq, if_neg hnew]
    exact Array.toList_push
  · rw [h.mem_cycles_iff hcycle (hnodup cycle hcycle)] at hknown
    rw [heq, if_pos hknown, List.append_nil]

/-- **Entering diagnostics reports those that repeat no earlier cycle**, in order, and no others. -/
theorem Knows.diagnostics_enterAll {ledger : Ledger} {entered found : List Diagnostic}
    (h : ledger.Knows entered) (hnodup : ∀ cycle ∈ cyclesOf found, cycle.dropLast.Nodup) :
    (ledger.enterAll found).1.diagnostics.toList
      = ledger.diagnostics.toList ++ withoutRepeats entered found := by
  induction found generalizing ledger entered with
  | nil => exact (List.append_nil _).symm
  | cons diagnostic rest ih =>
      rw [cyclesOf_cons] at hnodup
      have hfirst : ∀ cycle ∈ diagnostic.cycle?, cycle.dropLast.Nodup := by
        intro cycle hcycle
        exact hnodup cycle (List.mem_append_left _ (Option.mem_toList.mpr hcycle))
      have hrest : ∀ cycle ∈ cyclesOf rest, cycle.dropLast.Nodup := by
        intro cycle hcycle
        exact hnodup cycle (List.mem_append_right _ hcycle)
      show ((ledger.enter diagnostic).1.enterAll rest).1.diagnostics.toList = _
      rw [ih (h.enter diagnostic) hrest, h.diagnostics_enter hfirst, withoutRepeats]
      by_cases hrepeats : diagnostic.RepeatsCycle entered
      · rw [if_pos hrepeats, if_pos hrepeats, List.append_nil]
      · rw [if_neg hrepeats, if_neg hrepeats, List.append_assoc, List.singleton_append]

end Ledger

/-! ## Errors -/

/-- Only errors report cycles. -/
theorem Diagnostic.cycle?_eq_none {diagnostic : Diagnostic} (h : diagnostic.isError = false) :
    diagnostic.cycle? = none := by
  cases diagnostic with
  | invalidIdentifier => rfl
  | reference => cases h
  | cyclicReference => cases h
  | malformedEnum => cases h

/-- **Leaving out repeated cycles hides no failure**: what comes before the first error repeats no
cycle, and neither does that error. -/
theorem any_isError_withoutRepeats {earlier : List Diagnostic} (h : cyclesOf earlier = [])
    (found : List Diagnostic) :
    (withoutRepeats earlier found).any Diagnostic.isError = found.any Diagnostic.isError := by
  induction found generalizing earlier with
  | nil => rfl
  | cons diagnostic rest ih =>
      rw [withoutRepeats, if_neg (Diagnostic.not_repeatsCycle_of_nil h diagnostic), List.any_cons,
        List.any_cons]
      -- An error that is kept settles the answer; before the first one there are no cycles.
      cases herror : diagnostic.isError with
      | true => rfl
      | false =>
          have hnext : cyclesOf (earlier ++ [diagnostic]) = [] := by
            rw [cyclesOf_concat, h, Diagnostic.cycle?_eq_none herror]
            rfl
          rw [ih hnext]

theorem isError_of_mem_identifierDiagnostics {definition : String} {names : List String}
    {diagnostic : Diagnostic} (h : diagnostic ∈ identifierDiagnostics definition names) :
    diagnostic.isError = false := by
  obtain ⟨name, fault, rfl⟩ := exists_of_mem_identifierDiagnostics h
  rfl

theorem isError_of_mem_issueDiagnostics {resolution : Resolution} {resolved : ResolvedProperty}
    {diagnostic : Diagnostic} (h : diagnostic ∈ resolution.issueDiagnostics resolved) :
    diagnostic.isError = true := by
  obtain ⟨issue, rfl⟩ := exists_of_mem_issueDiagnostics h
  rfl

namespace Compilation

section Run

variable {value : Json} {document : Document}
  (hkeys : value.UniqueKeys) (hread : Document.ofJson value = .ok document)

include hkeys hread

/-- The cycles of a document meet no pointer twice. -/
theorem nodup_dropLast_of_mem_found {cycle : List String} (h : cycle ∈ cyclesOf (found document)) :
    cycle.dropLast.Nodup := by
  obtain ⟨start, hstart, hwalk⟩ := mem_cyclesOf_found_iff.mp h
  obtain ⟨vertex, rest, rfl, helementary⟩ :=
    Resolution.exists_elementaryCycle hkeys hread hstart hwalk
  exact nodup_dropLast_closed (Cycle.nodup_coe_iff.mp helementary.nodup)

/-- The ledger of a run holds the problems of the document less the repeated cycles. -/
theorem diagnostics_ledger :
    (Ledger.empty.enterAll (found document)).1.diagnostics.toList
      = withoutRepeats [] (found document) := by
  rw [Ledger.knows_empty.diagnostics_enterAll fun cycle hcycle =>
    nodup_dropLast_of_mem_found hkeys hread hcycle]
  rfl

/-- Whatever a walk comes upon is an error. -/
theorem isError_of_mem_diagnostics {start : Definition} (hstart : start ∈ document.definitions)
    {diagnostic : Diagnostic} (h : diagnostic ∈ (Resolution.resolve document start).diagnostics) :
    diagnostic.isError = true := by
  rcases Resolution.exists_of_mem_diagnostics hkeys hread hstart h with
    ⟨pointer, failure, rfl⟩ | ⟨cycle, rfl⟩
  · rfl
  · rfl

/-- **A document has an error exactly if some definition has a problem of its own**, in its walk or
in its enum keys; names alone do not make a run fail. -/
theorem any_isError_found_eq_false_iff :
    (found document).any Diagnostic.isError = false ↔
      ∀ definition ∈ document.definitions,
        (Resolution.resolve document definition).diagnostics = [] ∧
          (Resolution.resolve document definition).enumDiagnostics = [] := by
  rw [List.any_eq_false]
  constructor
  · intro hnone definition hdefinition
    have hmem : ∀ diagnostic ∈ (Resolution.resolve document definition).found,
        diagnostic ∈ found document := by
      intro diagnostic hdiagnostic
      refine List.mem_append_right _ (List.mem_flatMap.mpr ⟨_, ?_, hdiagnostic⟩)
      exact List.mem_map_of_mem hdefinition
    constructor
    · refine List.eq_nil_iff_forall_not_mem.mpr fun diagnostic hdiagnostic => ?_
      refine hnone diagnostic (hmem diagnostic ?_) ?_
      · exact List.mem_append_left _ (List.mem_append_left _ hdiagnostic)
      · exact isError_of_mem_diagnostics hkeys hread hdefinition hdiagnostic
    · refine List.eq_nil_iff_forall_not_mem.mpr fun diagnostic hdiagnostic => ?_
      refine hnone diagnostic (hmem diagnostic ?_) ?_
      · exact List.mem_append_left _ (List.mem_append_right _ hdiagnostic)
      · obtain ⟨resolved, _, hissue⟩ := List.mem_flatMap.mp hdiagnostic
        exact isError_of_mem_issueDiagnostics hissue
  · intro hall diagnostic hdiagnostic
    rw [Bool.not_eq_true]
    rcases List.mem_append.mp hdiagnostic with hname | hfound
    · obtain ⟨definition, _, hname⟩ := List.mem_flatMap.mp hname
      exact isError_of_mem_identifierDiagnostics hname
    · obtain ⟨resolution, hresolution, hfound⟩ := List.mem_flatMap.mp hfound
      obtain ⟨definition, hdefinition, rfl⟩ := List.mem_map.mp hresolution
      obtain ⟨hwalk, henums⟩ := hall definition hdefinition
      rw [Resolution.found, hwalk, henums, List.nil_append, List.nil_append] at hfound
      obtain ⟨type, _, hname⟩ := List.mem_flatMap.mp hfound
      exact isError_of_mem_identifierDiagnostics hname

end Run

/-- **A report leaves out repeated cycles and nothing else.** A run that comes to its end reports
the problems of its document less the cycles that an earlier one gives from another entry, and so
does a survey; the run succeeds exactly if no definition, taken alone, has a problem in its walk or in its
enum keys. -/
theorem report_omits_repeats {value : Json} {document : Document} (hkeys : value.UniqueKeys)
    (hread : Document.ofJson value = .ok document) (layout : Layout) (sink : Sink) :
    (sink.capacity = none → (compile document layout sink).report.isSome) ∧
    (∀ report, (compile document layout sink).report = some report →
      report.diagnostics = withoutRepeats [] (found document) ∧
      (report.isSuccess = true ↔ ∀ definition ∈ document.definitions,
        (Resolution.resolve document definition).diagnostics = [] ∧
          (Resolution.resolve document definition).enumDiagnostics = [])) ∧
    (resolveAll document).ledger.diagnostics.toList = withoutRepeats [] (found document) := by
  have hledger := diagnostics_ledger hkeys hread
  refine ⟨isSome_report_compile document layout, fun report hreport => ?_, ?_⟩
  · have hdiagnostics : report.diagnostics = withoutRepeats [] (found document) := by
      rw [diagnostics_of_compile hreport, hledger]
    refine ⟨hdiagnostics, ?_⟩
    rw [Report.isSuccess, Report.hasErrors, hdiagnostics, any_isError_withoutRepeats rfl,
      Bool.not_eq_true', any_isError_found_eq_false_iff hkeys hread]
  · rw [ledger_resolveAll, hledger]

/-- Two bodies that refer to each other make one cycle with two entries. Their survey reports it for
the first one only, and the missing reference of `A` for both. -/
theorem report_omits_mutualDocument :
    (Json.object Resolution.mutualFields).UniqueKeys ∧
      Document.ofJson (.object Resolution.mutualFields) = .ok Resolution.mutualDocument ∧
      cyclesOf (found Resolution.mutualDocument)
        = [["#/A", "#/B", "#/A"], ["#/B", "#/A", "#/B"]] ∧
      (resolveAll Resolution.mutualDocument).ledger.diagnostics.toList
        = [.cyclicReference "A" ["#/A", "#/B", "#/A"], .reference "A" "#/C" .notFound,
          .reference "B" "#/C" .notFound] := by
  refine ⟨Resolution.uniqueKeys_mutualFields, Resolution.ofJson_mutualFields, ?_, ?_⟩
  · decide +kernel
  · rw [(report_omits_repeats Resolution.uniqueKeys_mutualFields Resolution.ofJson_mutualFields
      ⟨"data", [], 4⟩ (Sink.empty none)).2.2]
    decide +kernel

end Compilation

end SchemaHeader

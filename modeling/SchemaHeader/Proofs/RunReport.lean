import SchemaHeader.Compilation
import Mathlib.Data.List.Nodup

set_option autoImplicit false

/-! # What a run reports

Whether it writes anything or not, a run enters the same diagnostics in the same order into an empty
ledger: those of the names, and then those of each definition in turn (`Compilation.found`).

* `Compilation.diagnostics_of_compile`, `Compilation.ledger_resolveAll`: **a finished run and a
  survey report what that ledger holds**.
* `Ledger.Sound`: the invariant of a ledger. Its keys are those of the cycles that it has reported,
  and none is there twice.
* `Ledger.key_mem_enterAll`, `Ledger.mem_enterAll`: no cycle is lost, and nothing is made up.
-/

namespace SchemaHeader

/-- The cycle that a diagnostic reports, if it reports one. -/
def Diagnostic.cycle? : Diagnostic → Option (List String)
  | .cyclicReference _ cycle => some cycle
  | _ => none

/-- The cycles among diagnostics, in order. -/
def cyclesOf (diagnostics : List Diagnostic) : List (List String) :=
  diagnostics.filterMap Diagnostic.cycle?

theorem mem_cyclesOf {diagnostics : List Diagnostic} {cycle : List String} :
    cycle ∈ cyclesOf diagnostics
      ↔ ∃ definition, .cyclicReference definition cycle ∈ diagnostics := by
  rw [cyclesOf, List.mem_filterMap]
  constructor
  · rintro ⟨diagnostic, hmem, hcycle⟩
    cases diagnostic with
    | cyclicReference definition cycle' =>
        cases hcycle
        exact ⟨definition, hmem⟩
    | reference => cases hcycle
    | malformedEnum => cases hcycle
    | invalidIdentifier => cases hcycle
  · rintro ⟨definition, hmem⟩
    exact ⟨_, hmem, rfl⟩

theorem cyclesOf_cons (diagnostic : Diagnostic) (rest : List Diagnostic) :
    cyclesOf (diagnostic :: rest) = diagnostic.cycle?.toList ++ cyclesOf rest := by
  cases h : diagnostic.cycle? with
  | none => simp [cyclesOf, h]
  | some cycle => simp [cyclesOf, h]

theorem cyclesOf_append (first second : List Diagnostic) :
    cyclesOf (first ++ second) = cyclesOf first ++ cyclesOf second :=
  List.filterMap_append

theorem cyclesOf_concat (diagnostics : List Diagnostic) (diagnostic : Diagnostic) :
    cyclesOf (diagnostics ++ [diagnostic])
      = cyclesOf diagnostics ++ diagnostic.cycle?.toList := by
  rw [cyclesOf_append, cyclesOf_cons]
  exact congrArg (cyclesOf diagnostics ++ ·) (List.append_nil _)

theorem cyclesOf_flatMap {α : Type} (diagnostics : α → List Diagnostic) (items : List α) :
    cyclesOf (items.flatMap diagnostics) = items.flatMap fun item => cyclesOf (diagnostics item) :=
  List.filterMap_flatMap

/-! ## What can be reported -/

/-- What is reported of names are identifiers that cannot be used. -/
theorem exists_of_mem_identifierDiagnostics {definition : String} {names : List String}
    {diagnostic : Diagnostic} (h : diagnostic ∈ identifierDiagnostics definition names) :
    ∃ name fault, diagnostic = .invalidIdentifier definition name fault := by
  obtain ⟨name, _, hname⟩ := List.mem_filterMap.mp h
  obtain ⟨fault, _, rfl⟩ := Option.map_eq_some_iff.mp hname
  exact ⟨name, fault, rfl⟩

/-- What is reported of enum keys are their issues. -/
theorem exists_of_mem_issueDiagnostics {resolution : Resolution} {resolved : ResolvedProperty}
    {diagnostic : Diagnostic} (h : diagnostic ∈ resolution.issueDiagnostics resolved) :
    ∃ issue, diagnostic = .malformedEnum resolution.name resolved.name issue := by
  unfold Resolution.issueDiagnostics at h
  split at h
  · obtain ⟨issue, _, rfl⟩ := List.mem_map.mp h
    exact ⟨issue, rfl⟩
  · cases h

/-! ## Ledgers -/

namespace Ledger

/-- **The invariant of a ledger**: it knows the keys of the cycles that it has reported, the last
one first, and it has reported none of them twice. -/
structure Sound (ledger : Ledger) : Prop where
  keys : (cyclesOf ledger.diagnostics.toList).map cycleKey = ledger.cycles.reverse
  distinct : ledger.cycles.Nodup

theorem sound_empty : Sound empty where
  keys := rfl
  distinct := List.nodup_nil

theorem enterAll_append (ledger : Ledger) (first second : List Diagnostic) :
    (ledger.enterAll (first ++ second)).1
      = ((ledger.enterAll first).1.enterAll second).1 := by
  induction first generalizing ledger with
  | nil => rfl
  | cons diagnostic rest ih => exact ih (ledger.enter diagnostic).1

/-- **What one entry does**: either the diagnostic is reported, with its key if it is a cycle, or it
is a cycle whose key is known and nothing changes. -/
theorem enter_cases (ledger : Ledger) (diagnostic : Diagnostic) :
    (diagnostic.cycle? = none ∧ (ledger.enter diagnostic).1 = ledger.report diagnostic) ∨
    (∃ cycle, diagnostic.cycle? = some cycle ∧ cycleKey cycle ∉ ledger.cycles ∧
      (ledger.enter diagnostic).1
        = ⟨ledger.diagnostics.push diagnostic, cycleKey cycle :: ledger.cycles⟩) ∨
    (∃ cycle, diagnostic.cycle? = some cycle ∧ cycleKey cycle ∈ ledger.cycles ∧
      (ledger.enter diagnostic).1 = ledger) := by
  cases diagnostic with
  | cyclicReference definition cycle =>
      by_cases hknown : cycleKey cycle ∈ ledger.cycles
      · exact Or.inr (Or.inr ⟨cycle, rfl, hknown, by simp [enter, hknown]⟩)
      · exact Or.inr (Or.inl ⟨cycle, rfl, hknown, by simp [enter, hknown, report]⟩)
  | reference => exact Or.inl ⟨rfl, rfl⟩
  | malformedEnum => exact Or.inl ⟨rfl, rfl⟩
  | invalidIdentifier => exact Or.inl ⟨rfl, rfl⟩

/-- An entry keeps a ledger sound. -/
theorem Sound.enter {ledger : Ledger} (h : ledger.Sound) (diagnostic : Diagnostic) :
    (ledger.enter diagnostic).1.Sound := by
  rcases ledger.enter_cases diagnostic with
    ⟨hnone, heq⟩ | ⟨cycle, hcycle, hnew, heq⟩ | ⟨cycle, hcycle, hknown, heq⟩
  · rw [heq]
    refine ⟨?_, h.distinct⟩
    show (cyclesOf (ledger.diagnostics.push diagnostic).toList).map cycleKey
      = ledger.cycles.reverse
    rw [Array.toList_push, cyclesOf_concat, hnone, ← h.keys]
    simp
  · rw [heq]
    refine ⟨?_, List.nodup_cons.mpr ⟨hnew, h.distinct⟩⟩
    rw [Array.toList_push, cyclesOf_concat, hcycle, List.reverse_cons, ← h.keys]
    simp
  · rw [heq]
    exact h

/-- Entries keep a ledger sound. -/
theorem Sound.enterAll {ledger : Ledger} (h : ledger.Sound) (found : List Diagnostic) :
    (ledger.enterAll found).1.Sound := by
  induction found generalizing ledger with
  | nil => exact h
  | cons diagnostic rest ih => exact ih (h.enter diagnostic)

/-- A known key stays known, and the key of a cycle that is entered is known from then on. -/
theorem key_mem_enter {ledger : Ledger} {diagnostic : Diagnostic} {key : List String}
    (h : key ∈ ledger.cycles ∨ ∃ cycle, diagnostic.cycle? = some cycle ∧ cycleKey cycle = key) :
    key ∈ (ledger.enter diagnostic).1.cycles := by
  rcases ledger.enter_cases diagnostic with
    ⟨hnone, heq⟩ | ⟨cycle, hcycle, hnew, heq⟩ | ⟨cycle, hcycle, hknown, heq⟩
  · rw [heq]
    rcases h with h | ⟨other, hother, _⟩
    · exact h
    · rw [hnone] at hother
      cases hother
  · rw [heq]
    rcases h with h | ⟨other, hother, rfl⟩
    · exact List.mem_cons_of_mem _ h
    · rw [hcycle] at hother
      cases hother
      exact List.mem_cons_self
  · rw [heq]
    rcases h with h | ⟨other, hother, rfl⟩
    · exact h
    · rw [hcycle] at hother
      cases hother
      exact hknown

/-- **No cycle is lost**: the key of every cycle that is entered is known in the end. -/
theorem key_mem_enterAll {ledger : Ledger} {found : List Diagnostic} {key : List String}
    (h : key ∈ ledger.cycles ∨ ∃ cycle ∈ cyclesOf found, cycleKey cycle = key) :
    key ∈ (ledger.enterAll found).1.cycles := by
  induction found generalizing ledger with
  | nil =>
      rcases h with h | ⟨cycle, hcycle, _⟩
      · exact h
      · exact absurd hcycle List.not_mem_nil
  | cons diagnostic rest ih =>
      show key ∈ ((ledger.enter diagnostic).1.enterAll rest).1.cycles
      rcases h with h | ⟨cycle, hcycle, hkey⟩
      · exact ih (Or.inl (key_mem_enter (Or.inl h)))
      · obtain ⟨definition, hmem⟩ := mem_cyclesOf.mp hcycle
        rcases List.mem_cons.mp hmem with rfl | hmem
        · exact ih (Or.inl (key_mem_enter (Or.inr ⟨cycle, rfl, hkey⟩)))
        · exact ih (Or.inr ⟨cycle, mem_cyclesOf.mpr ⟨definition, hmem⟩, hkey⟩)

/-- **Nothing is made up**: what is reported in the end was reported before or is entered. -/
theorem mem_enterAll {ledger : Ledger} {found : List Diagnostic} {diagnostic : Diagnostic}
    (h : diagnostic ∈ (ledger.enterAll found).1.diagnostics.toList) :
    diagnostic ∈ ledger.diagnostics.toList ∨ diagnostic ∈ found := by
  induction found generalizing ledger with
  | nil => exact Or.inl h
  | cons first rest ih =>
      have hfirst : diagnostic ∈ (ledger.enter first).1.diagnostics.toList →
          diagnostic ∈ ledger.diagnostics.toList ∨ diagnostic = first := by
        rcases ledger.enter_cases first with ⟨_, heq⟩ | ⟨_, _, _, heq⟩ | ⟨_, _, _, heq⟩
        · rw [heq]
          simp [report]
        · rw [heq]
          simp
        · rw [heq]
          exact Or.inl
      rcases ih h with h | h
      · rcases hfirst h with h | rfl
        · exact Or.inl h
        · exact Or.inr List.mem_cons_self
      · exact Or.inr (List.mem_cons_of_mem _ h)

end Ledger

/-! ## Runs -/

/-- The diagnostics that a stage reports. -/
def Stage.reported : Stage → List Diagnostic
  | .report found => found
  | _ => []

/-- Stages that have been carried out have entered what they report. -/
theorem Session.ledger_perform (session : Session) (stages : List Stage)
    (h : (session.perform stages).2 = true) :
    (session.perform stages).1.ledger
      = (session.ledger.enterAll (stages.flatMap Stage.reported)).1 := by
  induction stages generalizing session with
  | nil => rfl
  | cons stage rest ih =>
      rw [List.flatMap_cons, Ledger.enterAll_append]
      cases stage with
      | tell events => exact ih _ h
      | report found => exact ih _ h
      | write lines =>
          rw [Session.perform] at h ⊢
          generalize session.sink.writeLines lines = written at h ⊢
          obtain ⟨sink, fits⟩ := written
          cases fits with
          | true => exact ih _ h
          | false => cases h

namespace Compilation

/-- All problems of a document, in the order in which a run comes upon them. -/
def found (document : Document) : List Diagnostic :=
  document.nameDiagnostics ++ document.resolutions.flatMap Resolution.found

/-- The stages of a run report the problems of the document. -/
theorem reported_stages (document : Document) (layout : Layout) :
    (stages document document.resolutions layout).flatMap Stage.reported = found document := by
  have hdefinitions : ∀ resolutions : List Resolution,
      (resolutions.flatMap (definitionStages layout)).flatMap Stage.reported
        = resolutions.flatMap Resolution.found := by
    intro resolutions
    induction resolutions with
    | nil => rfl
    | cons resolution rest ih =>
        simp [definitionStages, Stage.reported, ih]
  simp [stages, found, Stage.reported, hdefinitions]

/-- **A finished run reports what its ledger holds.** -/
theorem diagnostics_of_compile {document : Document} {layout : Layout} {sink : Sink}
    {report : Report} (h : (compile document layout sink).report = some report) :
    report.diagnostics = (Ledger.empty.enterAll (found document)).1.diagnostics.toList := by
  have hledger := (Session.start sink).ledger_perform
    (stages document document.resolutions layout)
  unfold compile at h
  simp only at h
  generalize (Session.start sink).perform (stages document document.resolutions layout) = result
    at h hledger
  obtain ⟨session, finished⟩ := result
  cases finished with
  | true =>
      cases h
      rw [← reported_stages document layout]
      exact congrArg (fun ledger => ledger.diagnostics.toList) (hledger rfl)
  | false => cases h

theorem ledger_surveyFrom (ledger : Ledger) (resolutions : List Resolution) :
    (surveyFrom ledger resolutions).1
      = (ledger.enterAll (resolutions.flatMap Resolution.found)).1 := by
  induction resolutions generalizing ledger with
  | nil => rfl
  | cons resolution rest ih =>
      rw [List.flatMap_cons, Ledger.enterAll_append]
      exact ih _

/-- **A survey enters the same diagnostics as a run.** -/
theorem ledger_resolveAll (document : Document) :
    (resolveAll document).ledger = (Ledger.empty.enterAll (found document)).1 := by
  rw [found, Ledger.enterAll_append]
  exact ledger_surveyFrom _ _

end Compilation

end SchemaHeader

import SchemaHeader.Proofs.HeaderText
import SchemaHeader.Proofs.ReferenceGraph
import Mathlib.Algebra.BigOperators.Group.List.Basic
import Mathlib.Data.Finset.Card

set_option autoImplicit false

/-! # The log and the report

A run tells what it does while it does it, and reports what was wrong when it has come to its end.
The two come about in different places: walks tell of the members that they skip, flattened
definitions of the names that they repeat, and the ledger of what becomes of each diagnostic. Here
**a log is read as a reader sees it**, by the level, the message and the fields of its events.

* `Ledger.narrate`: the events of stages, in order, and `Session.log_perform`: the log of a run is
  what its stages narrate.
* `Ledger.messages_enterAll`, `Ledger.countP_enterAll`: what is entered is reported and told, or it
  is a known cycle and told to be one. **Nothing is entered without an event.**
* `Resolution.length_repeats`: repeated names and distinct names together are all names.
* `Compilation.log_matches_report`: the warnings without fields are the report, and the skipped
  members are what was reported and what was known already.
-/

namespace SchemaHeader

/-! ## Events in a log -/

namespace Event

/-- Whether the event is a warning without fields. -/
def isPlainWarning (event : Event) : Bool :=
  decide (event.level = .warn) && event.fields.isEmpty

/-- Whether the event has a message. -/
def hasMessage (text : String) (event : Event) : Bool :=
  decide (event.message = text)

/-- Whether the event is a warning that a property of the definition is declared once more. -/
def warnsOfRepeat (definition : String) (event : Event) : Bool :=
  decide (event.level = .warn) && event.hasMessage "property is declared more than once"
    && decide (("definition", .plain definition) ∈ event.fields)

end Event

namespace Diagnostic

/-- Whether the diagnostic is about a member that was skipped. -/
def skipsMember : Diagnostic → Bool
  | .reference _ _ _ => true
  | .cyclicReference _ _ => true
  | _ => false

/-- The wording of a diagnostic has a colon behind the name of the definition. -/
theorem colon_mem_message (diagnostic : Diagnostic) : ':' ∈ diagnostic.message.toList := by
  cases diagnostic with
  | reference definition pointer failure =>
      simp [message, String.toList_append]
  | cyclicReference definition cycle =>
      simp [message, String.toList_append]
  | malformedEnum definition property issue =>
      simp [message, String.toList_append]
  | invalidIdentifier definition identifier fault =>
      simp [message, String.toList_append]

/-- No diagnostic is worded like an event of another kind. -/
theorem hasMessage_reported (diagnostic : Diagnostic) {text : String} (h : ':' ∉ text.toList) :
    (Event.reported diagnostic).hasMessage text = false := by
  refine decide_eq_false fun heq => h ?_
  rw [← heq]
  exact diagnostic.colon_mem_message

end Diagnostic

/-! ## Entries -/

namespace Ledger

/-- **What one entry tells**: the diagnostic is reported, or it is a cycle that is known already and
nothing changes. -/
theorem enter_tells (ledger : Ledger) (diagnostic : Diagnostic) :
    ((ledger.enter diagnostic).2 = .reported diagnostic ∧
      (ledger.enter diagnostic).1.diagnostics.toList = ledger.diagnostics.toList ++ [diagnostic]) ∨
    ((ledger.enter diagnostic).2 = .cycleAlreadyReported diagnostic ∧
      (ledger.enter diagnostic).1 = ledger ∧ diagnostic.skipsMember = true) := by
  cases diagnostic with
  | cyclicReference definition cycle =>
      by_cases hknown : cycleKey cycle ∈ ledger.cycles
      · exact Or.inr (by simp [enter, hknown, Diagnostic.skipsMember])
      · exact Or.inl (by simp [enter, hknown, report])
  | reference => exact Or.inl (by simp [enter, report])
  | malformedEnum => exact Or.inl (by simp [enter, report])
  | invalidIdentifier => exact Or.inl (by simp [enter, report])

/-- Entries are made in order, each with one event. -/
theorem enterAll_cons (ledger : Ledger) (diagnostic : Diagnostic) (rest : List Diagnostic) :
    ledger.enterAll (diagnostic :: rest)
      = (((ledger.enter diagnostic).1.enterAll rest).1,
        (ledger.enter diagnostic).2 :: ((ledger.enter diagnostic).1.enterAll rest).2) := rfl

theorem events_enterAll_append (ledger : Ledger) (first second : List Diagnostic) :
    (ledger.enterAll (first ++ second)).2
      = (ledger.enterAll first).2 ++ ((ledger.enterAll first).1.enterAll second).2 := by
  induction first generalizing ledger with
  | nil => rfl
  | cons diagnostic rest ih =>
      simp only [List.cons_append, enterAll_cons, ih]

/-- **The plain warnings of entries have the wordings of what they report**, in order. -/
theorem messages_enterAll (ledger : Ledger) (found : List Diagnostic) :
    (ledger.enterAll found).1.diagnostics.toList.map Diagnostic.message
      = ledger.diagnostics.toList.map Diagnostic.message
        ++ ((ledger.enterAll found).2.filter Event.isPlainWarning).map Event.message := by
  induction found generalizing ledger with
  | nil => exact (List.append_nil _).symm
  | cons diagnostic rest ih =>
      simp only [enterAll_cons, ih]
      rcases ledger.enter_tells diagnostic with ⟨htold, hkept⟩ | ⟨htold, hsame, _⟩
      · rw [htold, hkept, List.filter_cons_of_pos rfl, List.map_cons, List.map_append,
          List.append_assoc]
        rfl
      · -- What is known already is told for debugging only, and it is not reported again.
        rw [htold, hsame, List.filter_cons_of_neg (by simp [Event.isPlainWarning, Event.level])]

/-- **Skipped members are conserved by entries**: each is reported, or told to be a cycle that is
known already. -/
theorem countP_enterAll (ledger : Ledger) (found : List Diagnostic) :
    (ledger.enterAll found).1.diagnostics.toList.countP Diagnostic.skipsMember
        + (ledger.enterAll found).2.countP (Event.hasMessage "cycle already reported")
      = ledger.diagnostics.toList.countP Diagnostic.skipsMember
        + found.countP Diagnostic.skipsMember := by
  induction found generalizing ledger with
  | nil => rfl
  | cons diagnostic rest ih =>
      have hrest := ih (ledger.enter diagnostic).1
      simp only [enterAll_cons, List.countP_cons]
      rcases ledger.enter_tells diagnostic with ⟨htold, hkept⟩ | ⟨htold, hsame, hskips⟩
      · have hquiet : (Event.reported diagnostic).hasMessage "cycle already reported" = false :=
          diagnostic.hasMessage_reported (by decide +kernel)
        rw [hkept, List.countP_append, List.countP_singleton] at hrest
        rw [htold, hquiet]
        simp only [Bool.false_eq_true, if_false]
        omega
      · have hknown : (Event.cycleAlreadyReported diagnostic).hasMessage "cycle already reported"
            = true := decide_eq_true rfl
        rw [hsame] at hrest
        rw [htold, hsame, hskips, hknown, if_pos rfl]
        omega

end Ledger

/-! ## Stages -/

/-- The events that a stage tells by itself. -/
def Stage.told : Stage → List Event
  | .tell events => events
  | _ => []

/-- **The events of stages**, in the order of the log: what they tell, and what the ledger tells of
what they report. -/
def Ledger.narrate (ledger : Ledger) : List Stage → List Event
  | [] => []
  | .tell events :: rest => events ++ ledger.narrate rest
  | .report found :: rest =>
    (ledger.enterAll found).2 ++ (ledger.enterAll found).1.narrate rest
  | .write _ :: rest => ledger.narrate rest

/-- **The log of stages that have been carried out is what they narrate.** -/
theorem Session.log_perform (session : Session) (stages : List Stage)
    (h : (session.perform stages).2 = true) :
    (session.perform stages).1.log.toList
      = session.log.toList ++ session.ledger.narrate stages := by
  induction stages generalizing session with
  | nil => exact (List.append_nil _).symm
  | cons stage rest ih =>
      cases stage with
      | tell events =>
          rw [Session.perform] at h ⊢
          rw [ih _ h, Ledger.narrate, Array.toList_appendList, List.append_assoc]
      | report found =>
          rw [Session.perform] at h ⊢
          rw [ih _ h, Ledger.narrate, Array.toList_appendList, List.append_assoc]
      | write lines =>
          rw [Session.perform] at h ⊢
          generalize session.sink.writeLines lines = written at h ⊢
          obtain ⟨sink, fits⟩ := written
          cases fits with
          | true => exact ih _ h
          | false => cases h

namespace Ledger

/-- Events that no stage tells by itself come from the entries. -/
theorem filter_narrate (ledger : Ledger) {kind : Event → Bool} {stages : List Stage}
    (h : ∀ event ∈ stages.flatMap Stage.told, kind event = false) :
    (ledger.narrate stages).filter kind
      = (ledger.enterAll (stages.flatMap Stage.reported)).2.filter kind := by
  induction stages generalizing ledger with
  | nil => rfl
  | cons stage rest ih =>
      have hrest : ∀ event ∈ rest.flatMap Stage.told, kind event = false := by
        intro event hevent
        rw [List.flatMap_cons] at h
        exact h event (List.mem_append_right _ hevent)
      cases stage with
      | tell events =>
          have hnone : events.filter kind = [] := by
            rw [List.filter_eq_nil_iff]
            intro event hevent
            rw [Bool.not_eq_true]
            exact h event (List.mem_append_left _ hevent)
          rw [narrate, List.filter_append, hnone, List.nil_append]
          exact ih ledger hrest
      | report found =>
          rw [narrate, List.filter_append, ih _ hrest, List.flatMap_cons, events_enterAll_append,
            List.filter_append]
          rfl
      | write lines => exact ih ledger hrest

/-- Events of a kind are told by stages or come from entries. -/
theorem countP_narrate (ledger : Ledger) (kind : Event → Bool) (stages : List Stage) :
    (ledger.narrate stages).countP kind
      = (stages.flatMap Stage.told).countP kind
        + (ledger.enterAll (stages.flatMap Stage.reported)).2.countP kind := by
  induction stages generalizing ledger with
  | nil => rfl
  | cons stage rest ih =>
      rw [List.flatMap_cons, List.flatMap_cons, List.countP_append]
      cases stage with
      | tell events =>
          rw [narrate, List.countP_append, ih ledger, Nat.add_assoc]
          rfl
      | report found =>
          rw [narrate, List.countP_append, ih, events_enterAll_append, List.countP_append]
          simp only [Stage.told, Stage.reported, List.countP_nil]
          omega
      | write lines =>
          rw [narrate, ih ledger]
          simp [Stage.told, Stage.reported]

/-- Events of a kind that is neither of the two that entries tell do not come from entries. -/
theorem countP_enterAll_eq_zero (ledger : Ledger) {kind : Event → Bool}
    (hreported : ∀ diagnostic, kind (.reported diagnostic) = false)
    (hknown : ∀ diagnostic, kind (.cycleAlreadyReported diagnostic) = false)
    (found : List Diagnostic) : (ledger.enterAll found).2.countP kind = 0 := by
  induction found generalizing ledger with
  | nil => rfl
  | cons diagnostic rest ih =>
      simp only [enterAll_cons, List.countP_cons, ih]
      rcases ledger.enter_tells diagnostic with ⟨htold, _⟩ | ⟨htold, _, _⟩
      · rw [htold, hreported]
        rfl
      · rw [htold, hknown]
        rfl

end Ledger

/-! ## Flattened definitions -/

namespace Resolution

/-- **Repeated names and distinct names together are all names**; `seen` are those that came
before. -/
theorem length_repeats (seen names : List String) :
    (repeats seen names).length + (names.toFinset \ seen.toFinset).card = names.length := by
  induction names generalizing seen with
  | nil => simp [repeats]
  | cons name rest ih =>
      rw [repeats, List.toFinset_cons, List.length_cons]
      by_cases hseen : name ∈ seen
      · have hmem : name ∈ seen.toFinset := List.mem_toFinset.mpr hseen
        rw [if_pos hseen, Finset.insert_sdiff_of_mem _ hmem, List.length_cons]
        have hrest := ih seen
        omega
      · -- A fresh name is distinct from all that came before, and it is seen from here on.
        have hfresh : name ∉ rest.toFinset \ (name :: seen).toFinset := by simp
        have hsplit : insert name rest.toFinset \ seen.toFinset
            = insert name (rest.toFinset \ (name :: seen).toFinset) := by
          ext other
          simp only [Finset.mem_sdiff, Finset.mem_insert, List.mem_toFinset, List.mem_cons]
          by_cases hother : other = name
          · subst hother
            simp [hseen]
          · simp [hother]
        rw [if_neg hseen, hsplit, Finset.card_insert_of_notMem hfresh]
        have hrest := ih (name :: seen)
        omega

/-- The log of a definition tells of its walk and of its repeated names. All else that it tells is
of other kinds. -/
theorem countP_log (resolution : Resolution) {kind : Event → Bool}
    (hcreating : ∀ name, kind (.creatingDefinition name) = false)
    (hgathered : ∀ count, kind (.gatheredProperties count) = false)
    (hextracted : ∀ name values, kind (.extractedEnum name values) = false)
    (hfound : ∀ count, kind (.foundEnums count) = false) :
    resolution.log.countP kind
      = (resolution.findings.filterMap Finding.event?).countP kind
        + ((repeats [] (resolution.properties.map ResolvedProperty.name)).map
          (Event.repeatedProperty resolution.name)).countP kind := by
  have htypes : (resolution.enumTypes.map
      (fun type => Event.extractedEnum type.name type.values.length)).countP kind = 0 := by
    rw [List.countP_eq_zero]
    intro event hevent
    obtain ⟨type, _, rfl⟩ := List.mem_map.mp hevent
    rw [hextracted]
    exact Bool.false_ne_true
  simp only [log, events, List.countP_append, List.countP_cons, List.countP_nil, hcreating,
    hgathered, hfound, htypes]
  simp

/-- **A walk tells of every member that it skips**, once. -/
theorem countP_skipping_log (resolution : Resolution) :
    resolution.log.countP (Event.hasMessage "skipping composition member")
      = resolution.diagnostics.length := by
  have hrepeats : ((repeats [] (resolution.properties.map ResolvedProperty.name)).map
      (Event.repeatedProperty resolution.name)).countP
        (Event.hasMessage "skipping composition member") = 0 := by
    rw [List.countP_eq_zero]
    intro event hevent
    obtain ⟨name, _, rfl⟩ := List.mem_map.mp hevent
    simp [Event.hasMessage, Event.message]
  rw [countP_log, hrepeats, Nat.add_zero, List.countP_filterMap, diagnostics,
    List.length_filterMap_eq_countP]
  · refine List.countP_congr fun finding _ => ?_
    cases finding with
    | property resolved => simp [Finding.event?, Finding.diagnostic?]
    | included depth pointer =>
        simp [Finding.event?, Finding.diagnostic?, Event.hasMessage, Event.message]
    | skipped depth diagnostic =>
        simp [Finding.event?, Finding.diagnostic?, Event.hasMessage, Event.message]
  all_goals simp [Event.hasMessage, Event.message]

/-- A definition warns of its repeated names, and never of those of another one. -/
theorem countP_warnsOfRepeat_log (resolution : Resolution) (definition : String) :
    resolution.log.countP (Event.warnsOfRepeat definition)
      = if resolution.name = definition then
          (repeats [] (resolution.properties.map ResolvedProperty.name)).length
        else 0 := by
  have hwalk : (resolution.findings.filterMap Finding.event?).countP
      (Event.warnsOfRepeat definition) = 0 := by
    rw [List.countP_eq_zero]
    intro event hevent
    obtain ⟨finding, _, hfinding⟩ := List.mem_filterMap.mp hevent
    cases finding with
    | property resolved => cases hfinding
    | included depth pointer =>
        cases hfinding
        simp [Event.warnsOfRepeat, Event.level]
    | skipped depth diagnostic =>
        cases hfinding
        simp [Event.warnsOfRepeat, Event.level]
  have hname : ∀ property,
      (Event.repeatedProperty resolution.name property).warnsOfRepeat definition
        = decide (resolution.name = definition) := by
    intro property
    simp [Event.warnsOfRepeat, Event.level, Event.hasMessage, Event.message, Event.fields, eq_comm]
  rw [countP_log, hwalk, Nat.zero_add, List.countP_map]
  · by_cases h : resolution.name = definition
    · rw [if_pos h, List.countP_eq_length]
      intro property _
      exact (hname property).trans (decide_eq_true h)
    · rw [if_neg h, List.countP_eq_zero]
      intro property _
      rw [Function.comp_apply, hname property, decide_eq_true_iff]
      exact h
  all_goals simp [Event.warnsOfRepeat, Event.level]

/-- **What the log of a definition tells of**: the definition and its counts, the references and
skipped members of its walk, its repeated names and its enum types. -/
theorem mem_log_cases {resolution : Resolution} {event : Event} (h : event ∈ resolution.log) :
    event = .creatingDefinition resolution.name ∨
    (∃ depth pointer, event = .includingReference depth pointer) ∨
    (∃ depth diagnostic, event = .skippingMember depth diagnostic) ∨
    (∃ name, event = .repeatedProperty resolution.name name) ∨
    (∃ count, event = .gatheredProperties count) ∨
    (∃ name values, event = .extractedEnum name values) ∨
    ∃ count, event = .foundEnums count := by
  simp only [log, events, List.mem_append, List.mem_cons, List.mem_map, List.mem_filterMap,
    List.not_mem_nil, or_false] at h
  rcases h with ((((rfl | ⟨finding, _, hfinding⟩ | ⟨name, _, rfl⟩) | rfl) | ⟨type, _, rfl⟩) | rfl)
  · simp
  · cases finding with
    | property resolved => cases hfinding
    | included depth pointer =>
        cases hfinding
        simp
    | skipped depth diagnostic =>
        cases hfinding
        simp
  · simp
  · simp
  · simp
  · simp

/-- No event of a definition's log is a warning without fields. -/
theorem not_isPlainWarning_of_mem_log {resolution : Resolution} {event : Event}
    (h : event ∈ resolution.log) : event.isPlainWarning = false := by
  rcases mem_log_cases h with
    rfl | ⟨_, _, rfl⟩ | ⟨_, _, rfl⟩ | ⟨_, rfl⟩ | ⟨_, rfl⟩ | ⟨_, _, rfl⟩ | ⟨_, rfl⟩
  all_goals rfl

/-- Walks do not know which cycles the ledger knows, so no log of a definition tells of one. -/
theorem countP_known_log (resolution : Resolution) :
    resolution.log.countP (Event.hasMessage "cycle already reported") = 0 := by
  rw [List.countP_eq_zero]
  intro event hevent
  rcases mem_log_cases hevent with
    rfl | ⟨_, _, rfl⟩ | ⟨_, _, rfl⟩ | ⟨_, rfl⟩ | ⟨_, rfl⟩ | ⟨_, _, rfl⟩ | ⟨_, rfl⟩
  all_goals simp [Event.hasMessage, Event.message]

end Resolution

/-! ## Skipped members -/

theorem skipsMember_of_mem_identifierDiagnostics {definition : String} {names : List String}
    {diagnostic : Diagnostic} (h : diagnostic ∈ identifierDiagnostics definition names) :
    diagnostic.skipsMember = false := by
  obtain ⟨name, fault, rfl⟩ := exists_of_mem_identifierDiagnostics h
  rfl

theorem skipsMember_of_mem_issueDiagnostics {resolution : Resolution} {resolved : ResolvedProperty}
    {diagnostic : Diagnostic} (h : diagnostic ∈ resolution.issueDiagnostics resolved) :
    diagnostic.skipsMember = false := by
  obtain ⟨issue, rfl⟩ := exists_of_mem_issueDiagnostics h
  rfl

/-- Diagnostics that come from lists without skipped members skip none. -/
theorem countP_skipsMember_flatMap {α : Type} {items : List α} {diagnostics : α → List Diagnostic}
    (h : ∀ item, ∀ diagnostic ∈ diagnostics item, diagnostic.skipsMember = false) :
    (items.flatMap diagnostics).countP Diagnostic.skipsMember = 0 := by
  rw [List.countP_eq_zero]
  intro diagnostic hdiagnostic
  obtain ⟨item, _, hitem⟩ := List.mem_flatMap.mp hdiagnostic
  rw [h item diagnostic hitem]
  exact Bool.false_ne_true

/-! ## Runs -/

namespace Compilation

/-- What the stages of a run tell by themselves: the beginning, the definitions in turn, and the
end. -/
theorem told_stages (document : Document) (layout : Layout) :
    (stages document document.resolutions layout).flatMap Stage.told
      = [.writingHeader layout.namespaceName, .writingForwardDeclarations document.size]
        ++ document.resolutions.flatMap Resolution.log ++ [.writingFooter] := by
  have hdefinitions : ∀ resolutions : List Resolution,
      (resolutions.flatMap (definitionStages layout)).flatMap Stage.told
        = resolutions.flatMap Resolution.log := by
    intro resolutions
    induction resolutions with
    | nil => rfl
    | cons resolution rest ih => simp [definitionStages, Stage.told, ih]
  simp [stages, Stage.told, hdefinitions]

/-- **The log of a run into a sink without a capacity is what its stages narrate.** -/
theorem log_compile (document : Document) (layout : Layout) {sink : Sink}
    (hsink : sink.capacity = none) :
    (compile document layout sink).session.log.toList
      = Ledger.empty.narrate (stages document document.resolutions layout) := by
  have hend := (Session.start sink).perform_unbounded hsink
    (stages document document.resolutions layout)
  rw [session_compile, (Session.start sink).log_perform _ hend]
  rfl

/-- Events of a kind that neither the beginning nor the end of a run is of are told by the
definitions or come from entries. -/
theorem countP_log_compile (document : Document) (layout : Layout) {sink : Sink}
    (hsink : sink.capacity = none) {kind : Event → Bool}
    (hheader : ∀ name, kind (.writingHeader name) = false)
    (hdeclarations : ∀ count, kind (.writingForwardDeclarations count) = false)
    (hfooter : kind .writingFooter = false) :
    (compile document layout sink).session.log.toList.countP kind
      = (document.definitions.map fun definition =>
          (Resolution.resolve document definition).log.countP kind).sum
        + (Ledger.empty.enterAll (found document)).2.countP kind := by
  rw [log_compile document layout hsink, Ledger.countP_narrate, told_stages, reported_stages]
  simp only [List.countP_append, List.countP_cons, List.countP_nil, hheader, hdeclarations, hfooter,
    List.countP_flatMap, Document.resolutions, List.map_map]
  simp [Function.comp_def]

/-- **The plain warnings of a run have the wordings of the reported diagnostics**, in order. No
other stage tells one. -/
theorem warnings_compile (document : Document) (layout : Layout) {sink : Sink}
    (hsink : sink.capacity = none) :
    ((compile document layout sink).session.log.toList.filter Event.isPlainWarning).map
        Event.message
      = (Ledger.empty.enterAll (found document)).1.diagnostics.toList.map Diagnostic.message := by
  have htold : ∀ event ∈ (stages document document.resolutions layout).flatMap Stage.told,
      event.isPlainWarning = false := by
    intro event hevent
    rw [told_stages] at hevent
    simp only [List.mem_append, List.mem_cons, List.not_mem_nil, or_false] at hevent
    rcases hevent with ((rfl | rfl) | hevent) | rfl
    · rfl
    · rfl
    · obtain ⟨resolution, _, hlog⟩ := List.mem_flatMap.mp hevent
      exact Resolution.not_isPlainWarning_of_mem_log hlog
    · rfl
  rw [log_compile document layout hsink, Ledger.filter_narrate _ htold, reported_stages,
    Ledger.messages_enterAll]
  rfl

section Run

variable {value : Json} {document : Document}
  (hkeys : value.UniqueKeys) (hread : Document.ofJson value = .ok document)

include hkeys hread

/-- Whatever a walk comes upon is about a member that it skips. -/
theorem skipsMember_of_mem_diagnostics {start : Definition} (hstart : start ∈ document.definitions)
    {diagnostic : Diagnostic} (h : diagnostic ∈ (Resolution.resolve document start).diagnostics) :
    diagnostic.skipsMember = true := by
  rcases Resolution.exists_of_mem_diagnostics hkeys hread hstart h with
    ⟨pointer, failure, rfl⟩ | ⟨cycle, rfl⟩
  · rfl
  · rfl

/-- **Of what is found in a definition, its walk's diagnostics are about skipped members**, and no
others: enum keys and names skip none. -/
theorem countP_skipsMember_found {start : Definition} (hstart : start ∈ document.definitions) :
    (Resolution.resolve document start).found.countP Diagnostic.skipsMember
      = (Resolution.resolve document start).diagnostics.length := by
  have hwalk : (Resolution.resolve document start).diagnostics.countP Diagnostic.skipsMember
      = (Resolution.resolve document start).diagnostics.length :=
    List.countP_eq_length.mpr fun diagnostic hdiagnostic =>
      skipsMember_of_mem_diagnostics hkeys hread hstart hdiagnostic
  have hissues : (Resolution.resolve document start).enumDiagnostics.countP Diagnostic.skipsMember
      = 0 :=
    countP_skipsMember_flatMap fun _ _ hissue => skipsMember_of_mem_issueDiagnostics hissue
  have hnames : (enumTypeDiagnostics (Resolution.resolve document start).name
      (Resolution.resolve document start).enumTypes).countP Diagnostic.skipsMember = 0 :=
    countP_skipsMember_flatMap fun _ _ hname => skipsMember_of_mem_identifierDiagnostics hname
  rw [Resolution.found, List.countP_append, List.countP_append, hwalk, hissues, hnames]
  omega

/-- **The members that walks tell to be skipped are those that diagnostics are about.** -/
theorem sum_countP_skipping_log :
    (document.definitions.map fun definition =>
        (Resolution.resolve document definition).log.countP
          (Event.hasMessage "skipping composition member")).sum
      = (found document).countP Diagnostic.skipsMember := by
  have hnames : document.nameDiagnostics.countP Diagnostic.skipsMember = 0 :=
    countP_skipsMember_flatMap fun _ _ hname => skipsMember_of_mem_identifierDiagnostics hname
  rw [found, List.countP_append, hnames, Nat.zero_add, List.countP_flatMap, Document.resolutions,
    List.map_map]
  refine congrArg List.sum (List.map_congr_left fun definition hdefinition => ?_)
  rw [Resolution.countP_skipping_log]
  exact (countP_skipsMember_found hkeys hread hdefinition).symm

/-- **Of all definitions, only the one of that name warns of its repeated names.** -/
theorem sum_countP_warnsOfRepeat_log {definition : Definition}
    (hdefinition : definition ∈ document.definitions) :
    (document.definitions.map fun other =>
        (Resolution.resolve document other).log.countP
          (Event.warnsOfRepeat definition.name)).sum
      = (Resolution.repeats [] ((Resolution.resolve document definition).properties.map
          ResolvedProperty.name)).length := by
  have hnames := Document.nodup_names hread hkeys
  have hothers : ∀ other, other ≠ definition → other ∈ document.definitions →
      (Resolution.resolve document other).log.countP (Event.warnsOfRepeat definition.name) = 0 := by
    intro other hne hother
    rw [Resolution.countP_warnsOfRepeat_log, if_neg]
    intro hname
    exact hne (List.inj_on_of_nodup_map hnames hother hdefinition hname)
  have honce : document.definitions.count definition = 1 :=
    List.count_eq_one_of_mem hnames.of_map hdefinition
  -- Names are distinct, so one term of the sum is left.
  rw [List.sum_map_eq_nsmul_single definition _ hothers, honce, one_nsmul,
    Resolution.countP_warnsOfRepeat_log]
  exact if_pos rfl

/-- **The warnings of repeated properties and the distinct names make up the flattened
properties.** -/
theorem repeated_compile (layout : Layout) {sink : Sink} (hsink : sink.capacity = none)
    {definition : Definition} (hdefinition : definition ∈ document.definitions) :
    (compile document layout sink).session.log.toList.countP (Event.warnsOfRepeat definition.name)
        + ((Resolution.resolve document definition).properties.map
          ResolvedProperty.name).toFinset.card
      = (Resolution.resolve document definition).properties.length := by
  have hentries : (Ledger.empty.enterAll (found document)).2.countP
      (Event.warnsOfRepeat definition.name) = 0 :=
    Ledger.empty.countP_enterAll_eq_zero (fun _ => by simp [Event.warnsOfRepeat, Event.fields])
      (fun _ => by simp [Event.warnsOfRepeat, Event.level]) _
  have hlength := Resolution.length_repeats []
    ((Resolution.resolve document definition).properties.map ResolvedProperty.name)
  rw [List.toFinset_nil, Finset.sdiff_empty, List.length_map] at hlength
  rw [countP_log_compile document layout hsink, hentries, Nat.add_zero,
    sum_countP_warnsOfRepeat_log hkeys hread hdefinition, hlength]
  all_goals simp [Event.warnsOfRepeat, Event.level]

/-- **Every skipped member that a run tells of is reported or known already.** Walks tell of the
members, the ledger of what becomes of them, and entries keep the count. -/
theorem skipped_compile (layout : Layout) {sink : Sink} (hsink : sink.capacity = none) :
    (compile document layout sink).session.log.toList.countP
        (Event.hasMessage "skipping composition member")
      = (Ledger.empty.enterAll (found document)).1.diagnostics.toList.countP Diagnostic.skipsMember
        + (compile document layout sink).session.log.toList.countP
          (Event.hasMessage "cycle already reported") := by
  -- Entries tell of no skipped member, and walks of no known cycle, so each count has one source.
  have hskipping : (Ledger.empty.enterAll (found document)).2.countP
      (Event.hasMessage "skipping composition member") = 0 :=
    Ledger.empty.countP_enterAll_eq_zero
      (fun diagnostic => diagnostic.hasMessage_reported (by decide +kernel))
      (fun _ => by simp [Event.hasMessage, Event.message]) _
  have hwalks : (document.definitions.map fun definition =>
      (Resolution.resolve document definition).log.countP
        (Event.hasMessage "cycle already reported")).sum = 0 := by
    simp [Resolution.countP_known_log]
  have hconserved := Ledger.empty.countP_enterAll (found document)
  have hempty : Ledger.empty.diagnostics.toList.countP Diagnostic.skipsMember = 0 := rfl
  rw [countP_log_compile document layout hsink, countP_log_compile document layout hsink,
    hskipping, sum_countP_skipping_log hkeys hread, hwalks]
  · omega
  all_goals simp [Event.hasMessage, Event.message]

end Run

/-- **A log tells the same as a report.** Its warnings without fields are, in order, the wordings of
the reported diagnostics. For every definition, its warnings of repeated properties and the distinct
names make up the flattened properties. And each skipped member that it tells of has a reported
diagnostic, or is told to close a cycle that is known already. -/
structure LogMatches (document : Document) (report : Report) (log : List Event) : Prop where
  warnings : (log.filter Event.isPlainWarning).map Event.message
    = report.diagnostics.map Diagnostic.message
  repeated : ∀ definition ∈ document.definitions,
    log.countP (Event.warnsOfRepeat definition.name)
        + ((Resolution.resolve document definition).properties.map
          ResolvedProperty.name).toFinset.card
      = (Resolution.resolve document definition).properties.length
  skipped : log.countP (Event.hasMessage "skipping composition member")
    = report.diagnostics.countP Diagnostic.skipsMember
      + log.countP (Event.hasMessage "cycle already reported")

/-- **A run into a sink without a capacity comes to its end, and its log matches its report.** -/
theorem log_matches_report {value : Json} {document : Document} (hkeys : value.UniqueKeys)
    (hread : Document.ofJson value = .ok document) (layout : Layout) (sink : Sink)
    (hsink : sink.capacity = none) :
    ∃ report, (compile document layout sink).report = some report ∧
      LogMatches document report (compile document layout sink).session.log.toList := by
  obtain ⟨report, hreport⟩ :=
    Option.isSome_iff_exists.mp (isSome_report_compile document layout hsink)
  have hdiagnostics := diagnostics_of_compile hreport
  refine ⟨report, hreport, ?_, fun definition hdefinition => ?_, ?_⟩
  · rw [hdiagnostics]
    exact warnings_compile document layout hsink
  · exact repeated_compile hkeys hread layout hsink hdefinition
  · rw [hdiagnostics]
    exact skipped_compile hkeys hread layout hsink

/-! ## Two bodies that repeat a property -/

/-- The fields of `A`, which refers to `B` and declares `x` twice, and of `B`, which refers to
`A`. -/
def echoFields : Json.Fields :=
  [("A", .object [("allof", .array [
      .object [("$ref", .string "#/B")],
      .object [("properties", .object [("x", .object [])])],
      .object [("properties", .object [("x", .object [])])]])]),
    ("B", .object [("allof", .array [.object [("$ref", .string "#/A")]])])]

/-- The document of both definitions. -/
def echoDocument : Document where
  fields := echoFields
  definitions :=
    [⟨"A", "/A", ⟨[.reference "#/B", .inline ⟨"/allof/1", [⟨"x", .object [], none⟩], []⟩,
        .inline ⟨"/allof/2", [⟨"x", .object [], none⟩], []⟩]⟩⟩,
      ⟨"B", "/B", ⟨[.reference "#/A"]⟩⟩]

/-- Both walks skip a member at the cycle. It is reported for `A` and known for `B`, and both warn
of the repeated property once. -/
theorem log_matches_echoDocument :
    (Json.object echoFields).UniqueKeys ∧
      Document.ofJson (.object echoFields) = .ok echoDocument ∧
      (Sink.empty none).capacity = none ∧
      ∃ log, (compile echoDocument ⟨"data", [], 4⟩ (Sink.empty none)).session.log.toList = log ∧
        (log.filter Event.isPlainWarning).map Event.message
          = ["A: cyclic reference #/A -> #/B -> #/A"] ∧
        log.countP (Event.warnsOfRepeat "A") = 1 ∧ log.countP (Event.warnsOfRepeat "B") = 1 ∧
        log.countP (Event.hasMessage "skipping composition member")
          = 1 + log.countP (Event.hasMessage "cycle already reported") := by
  have hkeys : (Json.object echoFields).UniqueKeys := by
    simp [echoFields, Json.UniqueKeys, Json.UniqueKeysFields, Json.UniqueKeysItems]
  have hread : Document.ofJson (.object echoFields) = .ok echoDocument := rfl
  obtain ⟨report, hreport, hmatches⟩ :=
    log_matches_report hkeys hread ⟨"data", [], 4⟩ (Sink.empty none) rfl
  have hdiagnostics : report.diagnostics = [.cyclicReference "A" ["#/A", "#/B", "#/A"]] := by
    rw [diagnostics_of_compile hreport]
    decide +kernel
  have hnames : ∀ definition ∈ echoDocument.definitions,
      (Resolution.resolve echoDocument definition).properties.map ResolvedProperty.name
        = ["x", "x"] := by decide +kernel
  have hrepeated : ∀ definition ∈ echoDocument.definitions,
      (compile echoDocument ⟨"data", [], 4⟩ (Sink.empty none)).session.log.toList.countP
        (Event.warnsOfRepeat definition.name) = 1 := by
    intro definition hdefinition
    have hall := hmatches.repeated definition hdefinition
    have hlength := congrArg List.length (hnames definition hdefinition)
    have hdistinct : ["x", "x"].toFinset.card = 1 := rfl
    rw [List.length_map, List.length_cons, List.length_singleton] at hlength
    rw [hnames definition hdefinition] at hall
    omega
  have hskipped := hmatches.skipped
  have hwarnings := hmatches.warnings
  rw [hdiagnostics] at hskipped hwarnings
  exact ⟨hkeys, hread, rfl, _, rfl, hwarnings, hrepeated _ List.mem_cons_self,
    hrepeated _ (List.mem_cons_of_mem _ List.mem_cons_self), hskipped⟩

end Compilation

end SchemaHeader

import SchemaHeader.Json.Reader.UniqueKeys
import SchemaHeader.Proofs.FullSinks
import SchemaHeader.Proofs.HeaderIdentifiers
import SchemaHeader.Proofs.LikeDocuments
import SchemaHeader.Proofs.RepeatedCycles

set_option autoImplicit false

/-! # A definition among others

A definition is flattened by looking up what it refers to, and looking something up does not depend
on what stands beside it. The document as a whole is the one value that does: a reference to it sees
the names of all definitions as the keys of one body. But a body is read by a few keys only, and of
the definitions none is a list, so **neither the order of the definitions nor one more definition
shows**, unless a reference was waiting for it.

* `Json.Fields.Keeps`: an object that has all the fields of another one, and no new ones of the kind
  that make a body.
* `Document.answers_of_keeps`, `Document.answers_of_keeps_keeps`: such documents answer references
  alike, one of them or both ways.
* `Report.Agrees`: what reports have in common that list the same problems in different orders.
* `Compilation.resolve_among_others`: **the result of a definition does not depend on the other
  definitions.**
-/

namespace SchemaHeader

/-! ## Fields in another order, and one more field -/

namespace Json.Fields

theorem uniqueKeys_of_perm {fields others : Fields} (hkeys : (Json.object fields).UniqueKeys)
    (h : fields.Perm others) : (Json.object others).UniqueKeys := by
  obtain ⟨hdistinct, hvalues⟩ := (uniqueKeys_object fields).mp hkeys
  refine (uniqueKeys_object others).mpr ⟨(h.map Prod.fst).nodup_iff.mp hdistinct, ?_⟩
  exact fun field hfield => hvalues field (h.mem_iff.mpr hfield)

/-- One more field hides no other. -/
theorem get?_append_cons_of_ne {key name : String} (h : key ≠ name) (before after : Fields)
    (value : Json) :
    get? (before ++ (name, value) :: after) key = get? (before ++ after) key := by
  have hne : (key == name) = false := beq_eq_false_iff_ne.mpr h
  rw [get?, get?, List.lookup_append, List.lookup_append, List.lookup_cons, hne]

/-- The keys by which a body is read. -/
def bodyKeys : List String := ["allof", "allOf", "properties", "$ref"]

/-- **An object that has all the fields of another one**, and of the keys by which a body is read no
new one. -/
structure Keeps (fields others : Fields) : Prop where
  found : ∀ key value, fields.get? key = some value → others.get? key = some value
  bodyKeys : ∀ key ∈ Fields.bodyKeys, others.get? key = fields.get? key

theorem keeps_of_perm {fields others : Fields} (hkeys : fields.keys.Nodup)
    (h : fields.Perm others) : fields.Keeps others where
  found := fun key value hvalue => by rw [get?_of_perm hkeys h, hvalue]
  bodyKeys := fun key _ => get?_of_perm hkeys h key

theorem keeps_append_cons {before after : Fields} {name : String}
    (hfresh : name ∉ Fields.keys (before ++ after)) (hname : name ∉ Fields.bodyKeys)
    (value : Json) : Keeps (before ++ after) (before ++ (name, value) :: after) where
  found := fun key part hpart => by
    have hne : key ≠ name := by
      rintro rfl
      exact hfresh (List.mem_map_of_mem (mem_of_get? hpart))
    rw [get?_append_cons_of_ne hne, hpart]
  bodyKeys := fun key hkey => by
    have hne : key ≠ name := fun heq => hname (heq ▸ hkey)
    exact get?_append_cons_of_ne hne before after value

/-- What is composable stays so. -/
theorem Keeps.isComposable {fields others : Fields} (h : fields.Keeps others) :
    Composition.isComposable (.object others) = Composition.isComposable (.object fields) := by
  have hhas : ∀ key ∈ Fields.bodyKeys, others.has key = fields.has key := fun key hkey => by
    rw [has, has, h.bodyKeys key hkey]
  rw [Composition.isComposable, Composition.isComposable, Bool.eq_iff_iff, List.any_eq_true,
    List.any_eq_true]
  refine exists_congr fun key => and_congr_right fun hkey => ?_
  rw [hhas key hkey]

/-- **What a pointer finds is still found**; only the value as a whole has changed. -/
theorem Keeps.resolve? {fields others : Fields} (h : fields.Keeps others) {pointer : String}
    {part : Json} (hpart : (Json.object fields).resolve? pointer = some part) :
    (Json.object others).resolve? pointer = some part ∨
      (Json.object others).resolve? pointer = some (.object others) ∧ part = .object fields := by
  obtain ⟨path, hpath, hdescend⟩ := Option.bind_eq_some_iff.mp hpart
  rw [Json.resolve?, hpath, Option.bind_some]
  -- Only the empty path stops at the object itself; all others start with one of its keys.
  cases path with
  | nil =>
      cases hdescend
      exact Or.inr ⟨rfl, rfl⟩
  | cons token rest =>
      obtain ⟨child, hchild, hrest⟩ := Option.bind_eq_some_iff.mp hdescend
      exact Or.inl (Option.bind_eq_some_iff.mpr ⟨child, h.found token child hchild, hrest⟩)

end Json.Fields

/-! ## Reading both -/

namespace Document

/-- Fields that are bodies make a document. -/
theorem exists_ofJson (fields : Json.Fields)
    (h : ∀ field ∈ fields, ∃ body, Composition.ofJson? field.2 = some body) :
    ∃ document, Document.ofJson (.object fields) = .ok document ∧ document.fields = fields := by
  have hread : ∃ definitions, readDefinitions fields = .ok definitions := by
    induction fields with
    | nil => exact ⟨[], rfl⟩
    | cons field rest ih =>
        obtain ⟨body, hbody⟩ := h field List.mem_cons_self
        obtain ⟨definitions, hdefinitions⟩ := ih fun other hother =>
          h other (List.mem_cons_of_mem _ hother)
        refine ⟨⟨field.1, Pointer.ofField field.1, body⟩ :: definitions, ?_⟩
        simp only [readDefinitions, readDefinition, hbody, hdefinitions]
  obtain ⟨definitions, hdefinitions⟩ := hread
  exact ⟨⟨fields, definitions⟩, by simp only [ofJson, hdefinitions], rfl⟩

section Read

variable {value : Json} {document : Document} (hread : Document.ofJson value = .ok document)

include hread

/-- The definitions are what the fields are read as. -/
theorem definitions_eq_filterMap :
    document.definitions = document.fields.filterMap fun field =>
      (readDefinition field).toOption := by
  have hall := congrArg (List.filterMap Except.toOption)
    (map_readDefinition_eq (root_eq_of_ofJson hread).2)
  rw [List.filterMap_map, List.filterMap_map] at hall
  have hok : Except.toOption ∘ (Except.ok : Definition → Except DocumentError Definition)
      = some := rfl
  rw [hok, List.filterMap_some] at hall
  exact hall.symm

/-- The definitions have the pointers of the keys. -/
theorem isDefinition_iff_exists_get? {pointer : String} :
    document.isDefinition pointer = true
      ↔ ∃ name part, pointer = Pointer.ofField name ∧ document.fields.get? name = some part := by
  rw [isDefinition_iff]
  constructor
  · rintro ⟨definition, hmem, rfl⟩
    obtain ⟨part, hpart, hpointer, _⟩ := exists_field_of_mem hread hmem
    obtain ⟨found, hfound⟩ := Json.Fields.exists_get?_iff.mpr (List.mem_map_of_mem hpart)
    exact ⟨definition.name, found, hpointer, hfound⟩
  · rintro ⟨name, part, rfl, hpart⟩
    have hname : name ∈ document.definitions.map Definition.name := by
      rw [map_name_eq_keys hread]
      exact Json.Fields.exists_get?_iff.mp ⟨part, hpart⟩
    obtain ⟨definition, hmem, rfl⟩ := List.mem_map.mp hname
    obtain ⟨_, _, hpointer, _⟩ := exists_field_of_mem hread hmem
    exact ⟨definition, hmem, hpointer.symm⟩

/-- A definition is found by its name, if no key is repeated. -/
theorem definition?_eq_some_iff (hkeys : document.fields.keys.Nodup) {name : String}
    {definition : Definition} :
    document.definition? name = some definition
      ↔ definition ∈ document.definitions ∧ definition.name = name := by
  constructor
  · intro h
    exact ⟨List.mem_of_find?_eq_some h, by simpa using List.find?_some h⟩
  · rintro ⟨hmem, rfl⟩
    cases hfind : document.definition? definition.name with
    | none =>
        have hnone := List.find?_eq_none.mp hfind definition hmem
        exact absurd (beq_iff_eq.mpr rfl) hnone
    | some other =>
        have hother := List.mem_of_find?_eq_some hfind
        have hname : other.name = definition.name := by simpa using List.find?_some hfind
        rw [← map_name_eq_keys hread] at hkeys
        rw [List.inj_on_of_nodup_map hkeys hother hmem hname]

/-- The document as a whole lists no required names, because its fields are objects. -/
theorem required_root (location : String) :
    (InlineSchema.ofFields document.fields location).required = [] := by
  unfold InlineSchema.ofFields
  simp only
  split
  · rename_i names hnames
    -- A list under `required` would be a definition, and no list is a body.
    obtain ⟨body, hbody⟩ := exists_body_of_field hread (Json.Fields.mem_of_get? hnames)
    cases hbody
  · rfl

end Read

section Keeps

variable {value other : Json} {first second : Document}
  (hread : Document.ofJson value = .ok first) (hread' : Document.ofJson other = .ok second)
  (hkeeps : first.fields.Keeps second.fields)

include hread hread' hkeeps

/-- **Read as a body, both documents are the same.** -/
theorem ofFields_root_eq :
    Composition.ofFields second.fields = Composition.ofFields first.fields := by
  have hallof := hkeeps.bodyKeys "allof" (by decide)
  have hallOf := hkeeps.bodyKeys "allOf" (by decide)
  have hproperties := hkeeps.bodyKeys "properties" (by decide)
  have hreference := hkeeps.bodyKeys "$ref" (by decide)
  have hrequired := (required_root hread' "").trans (required_root hread "").symm
  have hsets : (InlineSchema.ofFields second.fields "").properties
      = (InlineSchema.ofFields first.fields "").properties := by
    unfold InlineSchema.ofFields
    simp only
    rw [hproperties]
  have hinline : InlineSchema.ofFields second.fields ""
      = InlineSchema.ofFields first.fields "" := by
    calc InlineSchema.ofFields second.fields ""
        = ⟨"", (InlineSchema.ofFields second.fields "").properties,
          (InlineSchema.ofFields second.fields "").required⟩ := rfl
      _ = ⟨"", (InlineSchema.ofFields first.fields "").properties,
          (InlineSchema.ofFields first.fields "").required⟩ := by rw [hsets, hrequired]
      _ = InlineSchema.ofFields first.fields "" := rfl
  have hmember : Member.ofJson (.object second.fields) ""
      = Member.ofJson (.object first.fields) "" := by
    unfold Member.ofJson
    simp only
    rw [hreference, hinline]
  unfold Composition.ofFields Composition.ofKey Json.Fields.has
  rw [hallof, hallOf, hproperties, hreference, hmember]

/-- A reference that finds something in the first document finds the same in the second, as far as
it matters to a walk. -/
theorem lookup?_of_keeps {reference : String} {part : Json}
    (hpart : first.lookup? reference = some part) :
    ∃ part', second.lookup? reference = some part' ∧ part'.kind = part.kind ∧
      Composition.isComposable part' = Composition.isComposable part ∧
      Composition.ofJson? part' = Composition.ofJson? part := by
  rcases hkeeps.resolve? hpart with hsame | ⟨hroot, rfl⟩
  · exact ⟨part, hsame, rfl, rfl, rfl⟩
  · refine ⟨.object second.fields, hroot, rfl, hkeeps.isComposable, ?_⟩
    exact congrArg some (ofFields_root_eq hread hread' hkeeps)

/-- A definition of the first document is one of the second. -/
theorem isDefinition_of_keeps {pointer : String} (h : first.isDefinition pointer = true) :
    second.isDefinition pointer = true := by
  obtain ⟨name, part, hpointer, hpart⟩ := (isDefinition_iff_exists_get? hread).mp h
  exact (isDefinition_iff_exists_get? hread').mpr ⟨name, part, hpointer, hkeeps.found _ _ hpart⟩

/-- **The second document answers references as the first one does**, unless the first one does not
find anything. -/
theorem answers_of_keeps : first.Answers Eq (· ≠ .notFound) second where
  includes := by
    rintro reference body ⟨part, hpart, hok, hbody⟩
    obtain ⟨part', hpart', _, hcomposable, hsame⟩ := lookup?_of_keeps hread hread' hkeeps hpart
    refine ⟨body, ⟨part', hpart', ?_, hsame.trans hbody⟩, body.alike_refl fun _ => rfl⟩
    exact hok.imp (isDefinition_of_keeps hread hread' hkeeps) hcomposable.trans
  refused := by
    intro reference failure hfailure hrefused
    cases hrefused with
    | notFound => exact absurd rfl hfailure
    | notComposable hpart hdefinition hcomposable =>
        obtain ⟨part', hpart', hkind, hcomposable', _⟩ :=
          lookup?_of_keeps hread hread' hkeeps hpart
        -- A definition at that pointer would be found in the first document already.
        have hdefinition' : second.isDefinition (Pointer.canonical reference) = false := by
          refine Bool.eq_false_iff.mpr fun htrue => Bool.eq_false_iff.mp hdefinition ?_
          obtain ⟨name, _, hpointer, _⟩ := (isDefinition_iff_exists_get? hread').mp htrue
          rw [lookup?, hpointer, root, Json.resolve?_ofField] at hpart
          exact (isDefinition_iff_exists_get? hread).mpr ⟨name, _, hpointer, hpart⟩
        rw [← hkind]
        exact .notComposable hpart' hdefinition' (hcomposable'.trans hcomposable)

/-- If each document has the fields of the other one, all references are answered alike. -/
theorem answers_of_keeps_keeps (hkeeps' : second.fields.Keeps first.fields) :
    first.Answers Eq (fun _ => True) second where
  includes := (answers_of_keeps hread hread' hkeeps).includes
  refused := by
    intro reference failure _ hrefused
    by_cases hfailure : failure = .notFound
    · subst hfailure
      cases hrefused with
      | notFound hnone =>
          -- What the second document finds, the first one finds too.
          refine .notFound (Option.eq_none_iff_forall_ne_some.mpr fun part hpart => ?_)
          obtain ⟨part', hpart', _⟩ := lookup?_of_keeps hread' hread hkeeps' hpart
          rw [hnone] at hpart'
          cases hpart'
    · exact (answers_of_keeps hread hread' hkeeps).refused reference failure hfailure hrefused

end Keeps

end Document

/-! ## Results -/

namespace Resolution

/-- **The same flattened definition**, with the same problems and the same enum types. -/
structure SameResult (first second : Resolution) : Prop where
  name : first.name = second.name
  properties : first.properties = second.properties
  diagnostics : first.diagnostics = second.diagnostics
  enumTypes : first.enumTypes = second.enumTypes
  enumDiagnostics : first.enumDiagnostics = second.enumDiagnostics

theorem Alike.sameResult {first second : Resolution} (h : first.Alike Eq second) :
    first.SameResult second where
  name := h.name
  properties := by
    have heq := h.properties.imp fun _ _ => ResolvedProperty.eq_of_alike
    rwa [List.forall₂_eq_eq_eq] at heq
  diagnostics := h.diagnostics
  enumTypes := h.enumTypes_eq
  enumDiagnostics := h.enumDiagnostics_eq

/-- A definition that stands in two documents has the same result in both, if they answer references
alike. -/
theorem sameResult_resolve {failures : ReferenceFailure → Prop} {value other : Json}
    {first second : Document} (hread : Document.ofJson value = .ok first)
    (hread' : Document.ofJson other = .ok second) (hanswers : first.Answers Eq failures second)
    {start : Definition} (hstart : start ∈ first.definitions) (hstart' : start ∈ second.definitions)
    (hfailures : ∀ name reference failure,
      .reference name reference failure ∈ (resolve first start).diagnostics → failures failure) :
    (resolve first start).SameResult (resolve second start) := by
  have hsame : start.Alike Eq start := start.alike_refl fun _ => rfl
  exact (alike_resolve hread hread' hanswers hstart hstart' hsame hfailures).sameResult

end Resolution

/-! ## Reports -/

/-- The cycles among diagnostics, up to rotation. -/
def cyclesUpToRotation (diagnostics : List Diagnostic) : List (Cycle String) :=
  (cyclesOf diagnostics).map fun cycle => (cycle.dropLast : Cycle String)

/-- **Reports that list the same problems in different orders**: a cycle may be entered at another
place, and be reported for another definition. -/
structure Report.Agrees (first second : Report) : Prop where
  isSuccess : first.isSuccess = second.isSuccess
  definitions : first.definitions = second.definitions
  enums : first.enums = second.enums
  diagnostics : (first.diagnostics.filter (·.cycle?.isNone)).Perm
    (second.diagnostics.filter (·.cycle?.isNone))
  cycles : (cyclesUpToRotation first.diagnostics).Perm (cyclesUpToRotation second.diagnostics)

namespace Ledger

/-- What is no cycle comes out of a ledger as it went in. -/
theorem filter_isNone_enterAll (found : List Diagnostic) :
    (empty.enterAll found).1.diagnostics.toList.filter (·.cycle?.isNone)
      = found.filter (·.cycle?.isNone) := by
  have hview : ∀ diagnostic : Diagnostic, diagnostic.cycle? ≠ none →
      Option.guard (·.cycle?.isNone) diagnostic = none := by
    intro diagnostic hcycle
    simp [Option.guard, hcycle]
  have hall := filterMap_enterAll hview empty found
  rwa [List.filterMap_eq_filter] at hall

/-- The cycles that a ledger has reported are, up to rotation, its keys. -/
theorem Sound.cyclesUpToRotation_eq {ledger : Ledger} (h : ledger.Sound) :
    cyclesUpToRotation ledger.diagnostics.toList
      = ledger.cycles.reverse.map fun key : List String => (key : Cycle String) := by
  rw [← h.keys, cyclesUpToRotation, List.map_map]
  refine List.map_congr_left fun cycle _ => ?_
  exact Cycle.coe_eq_coe.mpr (cycleKey_isRotated cycle).symm

/-- **Entering the same problems in another order reports the same cycles**, up to rotation. -/
theorem perm_cyclesUpToRotation_enterAll {found found' : List Diagnostic}
    (h : found.Perm found') :
    (cyclesUpToRotation (empty.enterAll found).1.diagnostics.toList).Perm
      (cyclesUpToRotation (empty.enterAll found').1.diagnostics.toList) := by
  have hsound := sound_empty.enterAll found
  have hsound' := sound_empty.enterAll found'
  rw [hsound.cyclesUpToRotation_eq, hsound'.cyclesUpToRotation_eq]
  -- Both ledgers know the same keys, and each key once.
  refine List.Perm.map _ ?_
  refine (List.reverse_perm _).trans (List.Perm.trans ?_ (List.reverse_perm _).symm)
  rw [List.perm_ext_iff_of_nodup hsound.distinct hsound'.distinct]
  intro key
  rw [knows_empty.enterAll found key, knows_empty.enterAll found' key]
  exact ((h.filterMap _).map _).mem_iff

end Ledger

namespace Compilation

/-- What the resolutions of two documents have in all, if the same definitions give the same in
both. -/
theorem perm_flatMap_resolutions {β : Type} {first second : Document} {view : Resolution → List β}
    (hdefinitions : first.definitions.Perm second.definitions)
    (hview : ∀ start ∈ first.definitions,
      view (Resolution.resolve first start) = view (Resolution.resolve second start)) :
    (first.resolutions.flatMap view).Perm (second.resolutions.flatMap view) := by
  rw [Document.resolutions, Document.resolutions, List.flatMap_map, List.flatMap_map,
    List.flatMap_congr hview]
  exact hdefinitions.flatMap_right _

/-- **The reports of two documents with the same definitions agree**, if each definition has the
same result in both. -/
theorem agrees_finishedReport {value other : Json} {first second : Document}
    (hkeys : value.UniqueKeys) (hkeys' : other.UniqueKeys)
    (hread : Document.ofJson value = .ok first) (hread' : Document.ofJson other = .ok second)
    (hdefinitions : first.definitions.Perm second.definitions)
    (hsame : ∀ start ∈ first.definitions,
      (Resolution.resolve first start).SameResult (Resolution.resolve second start)) :
    (finishedReport first).Agrees (finishedReport second) := by
  have hfound : (found first).Perm (found second) := by
    refine (hdefinitions.flatMap_right _).append (perm_flatMap_resolutions hdefinitions ?_)
    intro start hstart
    have h := hsame start hstart
    rw [Resolution.found, Resolution.found, h.diagnostics, h.enumDiagnostics, h.name, h.enumTypes]
  refine ⟨?_, hdefinitions.length_eq, ?_, ?_, Ledger.perm_cyclesUpToRotation_enterAll hfound⟩
  · rw [Report.isSuccess, Report.isSuccess, Report.hasErrors, Report.hasErrors, finishedReport,
      finishedReport]
    simp only
    -- Leaving out repeated cycles hides no failure, so all problems can be asked instead.
    rw [diagnostics_ledger hkeys hread, diagnostics_ledger hkeys' hread',
      any_isError_withoutRepeats rfl, any_isError_withoutRepeats rfl, hfound.any_eq]
  · exact (perm_flatMap_resolutions hdefinitions fun start hstart =>
      (hsame start hstart).enumTypes).length_eq
  · rw [finishedReport, finishedReport]
    simp only
    rw [Ledger.filter_isNone_enterAll, Ledger.filter_isNone_enterAll]
    exact hfound.filter _

section Others

variable {document other : Document} (hread : Document.ofJson document.root = .ok document)
  (hread' : Document.ofJson other.root = .ok other)

include hread hread'

/-- **The order of the definitions does not matter** to their results, and to reports only as far as
these list problems in order. -/
theorem results_of_perm (hkeys : document.root.UniqueKeys)
    (hperm : document.fields.Perm other.fields) :
    (∀ name, other.definition? name = document.definition? name) ∧
    (∀ start ∈ document.definitions,
      (Resolution.resolve document start).SameResult (Resolution.resolve other start)) ∧
    (finishedReport document).Agrees (finishedReport other) := by
  have hkeys' : other.root.UniqueKeys := Json.Fields.uniqueKeys_of_perm hkeys hperm
  have hdistinct := Document.nodup_keys hread hkeys
  have hdistinct' := Document.nodup_keys hread' hkeys'
  have hdefinitions : document.definitions.Perm other.definitions := by
    rw [Document.definitions_eq_filterMap hread, Document.definitions_eq_filterMap hread']
    exact hperm.filterMap _
  have hanswers := Document.answers_of_keeps_keeps hread hread'
    (Json.Fields.keeps_of_perm hdistinct hperm)
    (Json.Fields.keeps_of_perm hdistinct' hperm.symm)
  have hsame : ∀ start ∈ document.definitions,
      (Resolution.resolve document start).SameResult (Resolution.resolve other start) := by
    intro start hstart
    exact Resolution.sameResult_resolve hread hread' hanswers hstart
      (hdefinitions.mem_iff.mp hstart) fun _ _ _ _ => trivial
  refine ⟨fun name => Option.ext fun definition => ?_, hsame,
    agrees_finishedReport hkeys hkeys' hread hread' hdefinitions hsame⟩
  rw [Document.definition?_eq_some_iff hread' hdistinct',
    Document.definition?_eq_some_iff hread hdistinct, hdefinitions.mem_iff]

/-- **One more definition does not matter** to a definition whose references all lead somewhere. -/
theorem result_of_keeps (hdistinct : other.fields.keys.Nodup)
    (hkeeps : document.fields.Keeps other.fields) (hsub : document.fields ⊆ other.fields)
    {start : Definition} (hstart : start ∈ document.definitions)
    (hfound : ∀ definition reference, .reference definition reference .notFound
      ∉ (Resolution.resolve document start).diagnostics) :
    other.definition? start.name = some start ∧
      (Resolution.resolve document start).SameResult (Resolution.resolve other start) := by
  have hstart' : start ∈ other.definitions := by
    rw [Document.definitions_eq_filterMap hread] at hstart
    rw [Document.definitions_eq_filterMap hread']
    exact List.filterMap_subset _ hsub hstart
  refine ⟨(Document.definition?_eq_some_iff hread' hdistinct).mpr ⟨hstart', rfl⟩, ?_⟩
  refine Resolution.sameResult_resolve hread hread'
    (Document.answers_of_keeps hread hread' hkeeps) hstart hstart' ?_
  rintro definition reference failure hmem rfl
  exact hfound definition reference hmem

end Others

/-- **The result of a definition does not depend on the other definitions.** In another order, all
definitions have the same results and the reports of runs agree. One more definition, under a new
name by which no body is read, leaves the results of those definitions as they are whose references
all lead somewhere. -/
theorem resolve_among_others {fields : Json.Fields} {document : Document}
    (hkeys : (Json.object fields).UniqueKeys)
    (hread : Document.ofJson (.object fields) = .ok document) :
    (∀ others, fields.Perm others →
      ∃ other, Document.ofJson (.object others) = .ok other ∧
        (∀ name, other.definition? name = document.definition? name) ∧
        (∀ start ∈ document.definitions,
          (Resolution.resolve document start).SameResult (Resolution.resolve other start)) ∧
        ∀ layout, ∃ report report',
          (compile document layout (Sink.empty none)).report = some report ∧
          (compile other layout (Sink.empty none)).report = some report' ∧
          report.Agrees report') ∧
    ∀ before after name body, fields = before ++ after → name ∉ fields.keys →
      name ∉ Json.Fields.bodyKeys →
      ∃ other, Document.ofJson (.object (before ++ (name, .object body) :: after)) = .ok other ∧
        ∀ start ∈ document.definitions,
          (∀ definition reference, .reference definition reference .notFound
            ∉ (Resolution.resolve document start).diagnostics) →
          other.definition? start.name = some start ∧
          (Resolution.resolve document start).SameResult (Resolution.resolve other start) := by
  obtain rfl : fields = document.fields := Json.object.inj (Document.root_eq_of_ofJson hread).1
  constructor
  · intro others hperm
    obtain ⟨other, hread', rfl⟩ := Document.exists_ofJson others fun field hfield =>
      Document.exists_body_of_field hread (hperm.mem_iff.mpr hfield)
    obtain ⟨hnames, hsame, hagrees⟩ := results_of_perm hread hread' hkeys hperm
    exact ⟨other, hread', hnames, hsame, fun layout =>
      ⟨_, _, report_compile_empty document layout, report_compile_empty other layout, hagrees⟩⟩
  · intro before after name body hfields hfresh hname
    have hmiddle : (before ++ (name, .object body) :: after).Perm
        ((name, .object body) :: document.fields) := hfields ▸ List.perm_middle
    have hbodies : ∀ field ∈ before ++ (name, .object body) :: after,
        ∃ body, Composition.ofJson? field.2 = some body := by
      intro field hfield
      rcases List.mem_cons.mp (hmiddle.mem_iff.mp hfield) with rfl | hold
      · exact ⟨_, rfl⟩
      · exact Document.exists_body_of_field hread hold
    obtain ⟨other, hread', hother⟩ := Document.exists_ofJson _ hbodies
    have hkeeps : document.fields.Keeps other.fields := by
      rw [hother, hfields]
      exact Json.Fields.keeps_append_cons (hfields ▸ hfresh) hname (.object body)
    refine ⟨other, hread', fun start hstart hfound => ?_⟩
    rw [← hother] at hmiddle hread'
    have hdistinct : other.fields.keys.Nodup := (hmiddle.map Prod.fst).nodup_iff.mpr
      (List.nodup_cons.mpr ⟨hfresh, Document.nodup_keys hread hkeys⟩)
    have hsub : document.fields ⊆ other.fields := fun field hfield =>
      hmiddle.mem_iff.mpr (List.mem_cons_of_mem _ hfield)
    exact result_of_keeps hread hread' hdistinct hkeeps hsub hstart hfound

/-- Two definitions that refer to each other. -/
def ringFields : Json.Fields :=
  [("A", .object [("allof", .array [.object [("$ref", .string "#/B")]])]),
    ("B", .object [("allof", .array [.object [("properties", .object [("x", .object [])])],
      .object [("$ref", .string "#/A")]])])]

/-- The document of the two definitions. -/
def ringDocument : Document where
  fields := ringFields
  definitions := [⟨"A", "/A", ⟨[.reference "#/B"]⟩⟩,
    ⟨"B", "/B", ⟨[.inline ⟨"/allof/0", [⟨"x", .object [], none⟩], []⟩, .reference "#/A"]⟩⟩]

/-- The two definitions make one cycle, which a run reports once. In the other order it is entered
at `B`, and the reports agree; a definition `C` is counted, and changes nothing else. -/
theorem resolve_among_others_ringDocument :
    (Json.object ringFields).UniqueKeys ∧
      Document.ofJson (.object ringFields) = .ok ringDocument ∧
      cyclesOf (finishedReport ringDocument).diagnostics = [["#/A", "#/B", "#/A"]] ∧
      (compile ringDocument ⟨"data", [], 4⟩ (Sink.empty none)).session.sink.written
        = "#pragma once\n\nnamespace data\n\x7b\n    class A;\n    class B;\n\x7d\n".toUTF8 ∧
      (∃ other, Document.ofJson (.object ringFields.reverse) = .ok other ∧
        cyclesOf (finishedReport other).diagnostics = [["#/B", "#/A", "#/B"]] ∧
        (∃ report report',
          (compile ringDocument ⟨"data", [], 4⟩ (Sink.empty none)).report = some report ∧
          (compile other ⟨"data", [], 4⟩ (Sink.empty none)).report = some report' ∧
          report.Agrees report' ∧
          report = ⟨[.cyclicReference "A" ["#/A", "#/B", "#/A"]], 2, 0⟩ ∧
          report' = ⟨[.cyclicReference "B" ["#/B", "#/A", "#/B"]], 2, 0⟩) ∧
        (compile other ⟨"data", [], 4⟩ (Sink.empty none)).session.sink.written
          = "#pragma once\n\nnamespace data\n\x7b\n    class B;\n    class A;\n\x7d\n".toUTF8) ∧
      ∃ other, Document.ofJson (.object (ringFields ++ [("C", .object [])])) = .ok other ∧
        (∀ start ∈ ringDocument.definitions,
          (Resolution.resolve ringDocument start).SameResult (Resolution.resolve other start)) ∧
        (compile other ⟨"data", [], 4⟩ (Sink.empty none)).report
          = some ⟨[.cyclicReference "A" ["#/A", "#/B", "#/A"]], 3, 0⟩ := by
  have hkeys : (Json.object ringFields).UniqueKeys := by
    simp [ringFields, Json.UniqueKeys, Json.UniqueKeysFields, Json.UniqueKeysItems]
  have hread : Document.ofJson (.object ringFields) = .ok ringDocument := rfl
  have hring : finishedReport ringDocument
        = ⟨[.cyclicReference "A" ["#/A", "#/B", "#/A"]], 2, 0⟩ ∧
      linesText (headerLines ringDocument ⟨"data", [], 4⟩)
        = "#pragma once\n\nnamespace data\n\x7b\n    class A;\n    class B;\n\x7d\n" := by
    decide +kernel
  obtain ⟨hreordered, hadded⟩ := resolve_among_others hkeys hread
  refine ⟨hkeys, hread, ?_, ?_, ?_, ?_⟩
  · rw [hring.1]
    rfl
  · rw [written_compile_empty, hring.2]
  · obtain ⟨other, hother, _, _, hreports⟩ :=
      hreordered ringFields.reverse (List.reverse_perm ringFields).symm
    have hback : finishedReport other = ⟨[.cyclicReference "B" ["#/B", "#/A", "#/B"]], 2, 0⟩ ∧
        linesText (headerLines other ⟨"data", [], 4⟩)
          = "#pragma once\n\nnamespace data\n\x7b\n    class B;\n    class A;\n\x7d\n" := by
      cases hother
      decide +kernel
    obtain ⟨report, report', hreport, hreport', hagrees⟩ := hreports ⟨"data", [], 4⟩
    refine ⟨other, hother, ?_, ⟨report, report', hreport, hreport', hagrees, ?_, ?_⟩, ?_⟩
    · rw [hback.1]
      rfl
    · rw [report_compile_empty, hring.1] at hreport
      exact (Option.some.inj hreport).symm
    · rw [report_compile_empty, hback.1] at hreport'
      exact (Option.some.inj hreport').symm
    · rw [written_compile_empty, hback.2]
  · obtain ⟨other, hother, hsame⟩ := hadded ringFields [] "C" [] (List.append_nil _).symm
      (by decide) (by decide)
    have hall : ∀ start ∈ ringDocument.definitions,
        ∀ diagnostic ∈ (Resolution.resolve ringDocument start).diagnostics,
          diagnostic.cycle? ≠ none := by
      decide +kernel
    refine ⟨other, hother, fun start hstart => (hsame start hstart ?_).2, ?_⟩
    · exact fun definition reference hmem => hall start hstart _ hmem rfl
    · cases hother
      rw [report_compile_empty]
      decide +kernel

end Compilation

end SchemaHeader

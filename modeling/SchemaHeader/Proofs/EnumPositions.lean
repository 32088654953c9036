import Mathlib.Data.List.Forall2
import SchemaHeader.Proofs.Provenance

set_option autoImplicit false

/-! # Enum values by position

The values of an enumeration come from two lists and their descriptions from a third one. **Items
that cannot be used are dropped after values and descriptions have been paired**, so a value keeps
the description at its own position in the joined list, and every item is either a value or
reported.

* `Picks`: what is picked from a list, said by positions.
* `EnumSpec.Reads`: what the enum keys of a schema amount to, position by position.
* `EnumSpec.reads_of_ofFields?`: reading the keys gives that, and nothing is lost.
* `Resolution.enumTypes_by_position`: the enum types of a flattened definition are those of its
  schemas with enum keys, in order.
-/

namespace SchemaHeader

/-! ## Picking by position -/

/-- **Results picked from a list**: one for each chosen item, in the order of the positions, where
`entry` says which results a position and its item may give. -/
def Picks {α β : Type} (chosen : α → Prop) (entry : Nat → α → β → Prop) (items : List α)
    (results : List β) : Prop :=
  ∃ positions : List Nat, positions.Pairwise (· < ·) ∧
    (∀ i, i ∈ positions ↔ ∃ item, items[i]? = some item ∧ chosen item) ∧
    List.Forall₂ (fun i result => ∃ item, items[i]? = some item ∧ entry i item result)
      positions results

section Picks

variable {α β : Type} {chosen : α → Prop} {entry : Nat → α → β → Prop} {item : α}
  {rest : List α} {results : List β}

theorem picks_nil : Picks chosen entry [] ([] : List β) :=
  ⟨[], List.Pairwise.nil, by simp, List.Forall₂.nil⟩

/-- An item in front that is not chosen moves all positions by one. -/
theorem Picks.skip (hitem : ¬ chosen item)
    (h : Picks chosen (fun i => entry (i + 1)) rest results) :
    Picks chosen entry (item :: rest) results := by
  obtain ⟨positions, hsorted, hmem, hentries⟩ := h
  refine ⟨positions.map (· + 1), ?_, fun i => ?_, ?_⟩
  · rw [List.pairwise_map]
    exact hsorted.imp fun hlt => Nat.succ_lt_succ hlt
  · cases i with
    | zero => simp [hitem]
    | succ i => simp [hmem]
  · rw [List.forall₂_map_left_iff]
    exact hentries

/-- An item in front that is chosen gives the first result. -/
theorem Picks.take {result : β} (hitem : chosen item) (hresult : entry 0 item result)
    (h : Picks chosen (fun i => entry (i + 1)) rest results) :
    Picks chosen entry (item :: rest) (result :: results) := by
  obtain ⟨positions, hsorted, hmem, hentries⟩ := h
  refine ⟨0 :: positions.map (· + 1), ?_, fun i => ?_, ?_⟩
  · rw [List.pairwise_cons, List.pairwise_map]
    refine ⟨fun i hi => ?_, hsorted.imp fun hlt => Nat.succ_lt_succ hlt⟩
    obtain ⟨j, _, rfl⟩ := List.mem_map.mp hi
    omega
  · cases i with
    | zero => simp [hitem]
    | succ i => simp [hmem]
  · refine List.Forall₂.cons ⟨item, rfl, hresult⟩ ?_
    rw [List.forall₂_map_left_iff]
    exact hentries

end Picks

/-! ## Labels -/

/-- **The text of a string, a number or a boolean.** -/
inductive Json.Spells : Json → String → Prop where
  | string (text : String) : Spells (.string text) text
  | number (value : Number) : Spells (.number value) value.text
  | true : Spells (.bool true) "true"
  | false : Spells (.bool false) "false"

namespace Json

theorem label?_eq_some_iff {item : Json} {text : String} :
    item.label? = some text ↔ item.Spells text := by
  constructor
  · intro h
    cases item with
    | string other =>
        cases h
        exact .string text
    | number value =>
        cases h
        exact .number value
    | bool value =>
        cases value with
        | true =>
            cases h
            exact .true
        | false =>
            cases h
            exact .false
    | null => cases h
    | array => cases h
    | object => cases h
  · rintro (_ | _ | _ | _)
    · rfl
    · rfl
    · rfl
    · rfl

/-- Values that are no labels. -/
def Unusable (item : Json) : Prop :=
  item.kind ∈ [Kind.null, Kind.array, Kind.object]

theorem label?_eq_none_iff {item : Json} : item.label? = none ↔ item.Unusable := by
  unfold Unusable
  cases item with
  | null => simp [label?, kind]
  | bool => simp [label?, kind]
  | number => simp [label?, kind]
  | string => simp [label?, kind]
  | array => simp [label?, kind]
  | object => simp [label?, kind]

/-- Whether a schema is an object that lists enum values. -/
def listsEnum (schema : Json) : Bool :=
  schema.fields?.any fun fields => fields.has "enum" || fields.has "_enum"

end Json

/-- An issue is about an item of a key if it names the key and an index. -/
def EnumIssue.isWithin (issue : EnumIssue) (key : String) : Bool :=
  (key.toList ++ ['[']).isPrefixOf issue.key.toList

/-- Whether an issue is about an item in one of the two lists of values. -/
def EnumIssue.isOfValue (issue : EnumIssue) : Bool :=
  issue.isWithin "enum" || issue.isWithin "_enum"

namespace EnumSpec

/-! ## What enum keys amount to -/

/-- **What of a key cannot be used**: the whole of it if it is no list, and else the items that are
no labels, each under its index in that list. -/
inductive Faulted (fields : Json.Fields) (key : String) : List EnumIssue → Prop where
  | absent (h : fields.get? key = none) : Faulted fields key []
  | whole {other : Json} (h : fields.get? key = some other) (hkind : other.kind ≠ .array) :
      Faulted fields key [⟨key, other.kind⟩]
  | items {list : List Json} {issues : List EnumIssue} (h : fields.get? key = some (.array list))
      (hissues : Picks Json.Unusable
        (fun i item issue => issue = ⟨key ++ "[" ++ toString i ++ "]", item.kind⟩) list issues) :
      Faulted fields key issues

/-- **What the enum keys of a schema amount to.** -/
structure Reads (fields : Json.Fields) (spec : EnumSpec) : Prop where
  /-- The values are the usable items of both lists in a row, and each is described by the item at
  the same position among the descriptions, if that is there and can be used. -/
  values : Picks (fun item => ¬ item.Unusable)
    (fun i item value => item.Spells value.label ∧
      ∀ text, value.description = some text ↔
        ∃ described, (items fields "enumDescription")[i]? = some described ∧ described.Spells text)
    (items fields "enum" ++ items fields "_enum") spec.values
  /-- The issues are those of the two lists of values and of the descriptions, in this order. -/
  issues : ∃ first second third, spec.issues = first ++ second ++ third ∧
    Faulted fields "enum" first ∧ Faulted fields "_enum" second ∧
    Faulted fields "enumDescription" third
  /-- Every item of the two lists is a value or reported. -/
  count : spec.values.length + spec.issues.countP EnumIssue.isOfValue
    = (items fields "enum" ++ items fields "_enum").length

theorem picks_pair (labels descriptions : List Json) :
    Picks (fun item => ¬ item.Unusable)
      (fun i item value => item.Spells value.label ∧
        ∀ text, value.description = some text ↔
          ∃ described, descriptions[i]? = some described ∧ described.Spells text)
      labels (pair (labels.map Json.label?) (descriptions.map Json.label?)) := by
  induction labels generalizing descriptions with
  | nil => exact picks_nil
  | cons item rest ih =>
      have hrest := ih descriptions.tail
      rw [List.map_tail] at hrest
      simp only [List.getElem?_tail] at hrest
      rw [List.map_cons]
      cases hlabel : item.label? with
      | none => exact hrest.skip fun husable => husable (Json.label?_eq_none_iff.mp hlabel)
      | some text =>
          refine Picks.take ?_ ⟨Json.label?_eq_some_iff.mp hlabel, fun other => ?_⟩ hrest
          · rw [← Json.label?_eq_none_iff, hlabel]
            exact Option.some_ne_none text
          · simp only [← Json.label?_eq_some_iff]
            cases descriptions with
            | nil => simp
            | cons described more => simp

theorem picks_itemIssues (key : String) (index : Nat) (items : List Json) :
    Picks Json.Unusable
      (fun i item issue => issue = ⟨key ++ "[" ++ toString (index + i) ++ "]", item.kind⟩)
      items (itemIssues key index items) := by
  induction items generalizing index with
  | nil => exact picks_nil
  | cons item rest ih =>
      have hrest := ih (index + 1)
      simp only [Nat.add_right_comm index 1, Nat.add_assoc] at hrest
      rw [itemIssues]
      cases hlabel : item.label? with
      | none => exact hrest.take (Json.label?_eq_none_iff.mp hlabel) rfl
      | some text =>
          refine hrest.skip ?_
          rw [← Json.label?_eq_none_iff, hlabel]
          exact Option.some_ne_none text

/-- **What a key can hold**, with the items and the issues that are read from it. -/
theorem key_cases (fields : Json.Fields) (key : String) :
    (fields.get? key = none ∧ items fields key = [] ∧ keyIssues fields key = []) ∨
    (∃ list, fields.get? key = some (.array list) ∧ items fields key = list ∧
      keyIssues fields key = itemIssues key 0 list) ∨
    ∃ other, fields.get? key = some other ∧ other.kind ≠ .array ∧ items fields key = [] ∧
      keyIssues fields key = [⟨key, other.kind⟩] := by
  unfold items keyIssues
  cases hget : fields.get? key with
  | none => exact Or.inl ⟨rfl, rfl, rfl⟩
  | some value =>
      cases value with
      | array list => exact Or.inr (Or.inl ⟨list, rfl, rfl, rfl⟩)
      | null => exact Or.inr (Or.inr ⟨_, rfl, nofun, rfl, rfl⟩)
      | bool => exact Or.inr (Or.inr ⟨_, rfl, nofun, rfl, rfl⟩)
      | number => exact Or.inr (Or.inr ⟨_, rfl, nofun, rfl, rfl⟩)
      | string => exact Or.inr (Or.inr ⟨_, rfl, nofun, rfl, rfl⟩)
      | object => exact Or.inr (Or.inr ⟨_, rfl, nofun, rfl, rfl⟩)

theorem faulted_keyIssues (fields : Json.Fields) (key : String) :
    Faulted fields key (keyIssues fields key) := by
  rcases key_cases fields key with
    ⟨hget, _, hissues⟩ | ⟨list, hget, _, hissues⟩ | ⟨other, hget, hkind, _, hissues⟩
  · rw [hissues]
    exact .absent hget
  · have hpicks := picks_itemIssues key 0 list
    simp only [Nat.zero_add] at hpicks
    rw [hissues]
    exact .items hget hpicks
  · rw [hissues]
    exact .whole hget hkind

/-! ## Nothing is lost -/

theorem length_pair (labels descriptions : List (Option String)) :
    (pair labels descriptions).length = labels.countP Option.isSome := by
  induction labels generalizing descriptions with
  | nil => rfl
  | cons label rest ih =>
      cases label with
      | none => simp [pair, ih]
      | some text => simp [pair, ih]

/-- Issues about items carry the key in front of an index. -/
theorem key_of_mem_itemIssues {key : String} {index : Nat} {items : List Json} {issue : EnumIssue}
    (h : issue ∈ itemIssues key index items) :
    ∃ rest, issue.key.toList = key.toList ++ '[' :: rest := by
  induction items generalizing index with
  | nil => cases h
  | cons item rest ih =>
      rw [itemIssues] at h
      split at h
      · exact ih h
      · rcases List.mem_cons.mp h with rfl | h
        · exact ⟨(toString index).toList ++ [']'], by simp⟩
        · exact ih h

theorem length_itemIssues (key : String) (index : Nat) (items : List Json) :
    (itemIssues key index items).length = items.countP fun item => !item.label?.isSome := by
  induction items generalizing index with
  | nil => rfl
  | cons item rest ih =>
      rw [itemIssues]
      cases hlabel : item.label? with
      | none => simp [hlabel, ih]
      | some text => simp [hlabel, ih]

/-- Which issues are about values can be told from their keys. -/
theorem isOfValue_of_key {issue : EnumIssue} {key : String} {rest : List Char}
    (hkey : key ∈ ["enum", "_enum"]) (h : issue.key.toList = key.toList ++ '[' :: rest) :
    issue.isOfValue = true := by
  simp only [List.mem_cons, List.not_mem_nil, or_false] at hkey
  rcases hkey with rfl | rfl
  · simp [EnumIssue.isOfValue, EnumIssue.isWithin, h]
  · simp [EnumIssue.isOfValue, EnumIssue.isWithin, h]

/-- A key as a whole is no value. -/
theorem not_isOfValue_whole :
    ∀ key ∈ ["enum", "_enum", "enumDescription"], ∀ kind : Json.Kind,
      (EnumIssue.mk key kind).isOfValue = false := by
  intro key hkey kind
  have hplain : ∀ key ∈ ["enum", "_enum", "enumDescription"],
      (("enum".toList ++ ['[']).isPrefixOf key.toList
        || ("_enum".toList ++ ['[']).isPrefixOf key.toList) = false := by
    decide +kernel
  exact hplain key hkey

/-- The items of a list of values that are no labels are all reported. -/
theorem countP_isOfValue_keyIssues (fields : Json.Fields) (key : String)
    (hkey : key ∈ ["enum", "_enum"]) :
    (keyIssues fields key).countP EnumIssue.isOfValue
      = (items fields key).countP fun item => !item.label?.isSome := by
  rcases key_cases fields key with
    ⟨_, hitems, hissues⟩ | ⟨list, _, hitems, hissues⟩ | ⟨other, _, _, hitems, hissues⟩
  · rw [hitems, hissues]
    rfl
  · rw [hitems, hissues, ← length_itemIssues key 0, List.countP_eq_length]
    intro issue hissue
    obtain ⟨rest, hrest⟩ := key_of_mem_itemIssues hissue
    exact isOfValue_of_key hkey hrest
  · have hwhole :=
      not_isOfValue_whole key (List.mem_append_left ["enumDescription"] hkey) other.kind
    rw [hitems, hissues, List.countP_cons_of_neg (by simp [hwhole])]
    rfl

/-- Issues of descriptions are not about values. -/
theorem countP_isOfValue_descriptions (fields : Json.Fields) :
    (keyIssues fields "enumDescription").countP EnumIssue.isOfValue = 0 := by
  rw [List.countP_eq_zero]
  intro issue hissue
  rcases key_cases fields "enumDescription" with
    ⟨_, _, hissues⟩ | ⟨list, _, _, hissues⟩ | ⟨other, _, _, _, hissues⟩
  · rw [hissues] at hissue
    cases hissue
  · rw [hissues] at hissue
    obtain ⟨rest, hrest⟩ := key_of_mem_itemIssues hissue
    simp [EnumIssue.isOfValue, EnumIssue.isWithin, hrest]
  · rw [hissues, List.mem_singleton] at hissue
    rw [hissue, not_isOfValue_whole "enumDescription" (by simp)]
    exact Bool.false_ne_true

/-- **Every item of the two lists is a value or reported.** -/
theorem length_pair_add_countP_issues (fields : Json.Fields) (descriptions : List (Option String)) :
    (pair ((items fields "enum" ++ items fields "_enum").map Json.label?) descriptions).length
      + (keyIssues fields "enum" ++ keyIssues fields "_enum"
        ++ keyIssues fields "enumDescription").countP EnumIssue.isOfValue
      = (items fields "enum" ++ items fields "_enum").length := by
  have hvalues : (pair ((items fields "enum" ++ items fields "_enum").map Json.label?)
        descriptions).length
      = (items fields "enum" ++ items fields "_enum").countP fun item => item.label?.isSome := by
    rw [length_pair, List.countP_map]
    rfl
  have hissues : (keyIssues fields "enum" ++ keyIssues fields "_enum"
        ++ keyIssues fields "enumDescription").countP EnumIssue.isOfValue
      = (items fields "enum" ++ items fields "_enum").countP fun item => !item.label?.isSome := by
    rw [List.countP_append, List.countP_append, List.countP_append,
      countP_isOfValue_keyIssues fields "enum" (by simp),
      countP_isOfValue_keyIssues fields "_enum" (by simp), countP_isOfValue_descriptions,
      Nat.add_zero]
  rw [hvalues, hissues, List.length_eq_countP_add_countP fun item : Json => item.label?.isSome]
  simp only [Bool.not_eq_true, Bool.decide_eq_false]

/-- **Reading the enum keys of a schema pairs values and descriptions by position, and loses
nothing.** -/
theorem reads_of_ofFields? {fields : Json.Fields} {spec : EnumSpec}
    (h : ofFields? fields = some spec) : spec.Reads fields := by
  unfold ofFields? at h
  split at h
  · cases h
    exact ⟨picks_pair _ _, ⟨_, _, _, rfl, faulted_keyIssues _ _, faulted_keyIssues _ _,
      faulted_keyIssues _ _⟩, length_pair_add_countP_issues _ _⟩
  · cases h

theorem exists_ofFields? {fields : Json.Fields}
    (h : fields.has "enum" = true ∨ fields.has "_enum" = true) :
    ∃ spec, ofFields? fields = some spec := by
  rw [← Bool.or_eq_true] at h
  exact ⟨_, if_pos h⟩

end EnumSpec

/-! ## Enum types of a flattened definition -/

/-- A schema has a specification of enum values exactly if it is an object with an enum key, and
then it is the one that its keys amount to. -/
theorem Json.enumSpec_cases (schema : Json) :
    (schema.listsEnum = true ∧ ∃ fields spec, schema = .object fields ∧
      EnumSpec.ofJson? schema = some spec ∧ spec.Reads fields) ∨
    (schema.listsEnum = false ∧ EnumSpec.ofJson? schema = none) := by
  unfold listsEnum EnumSpec.ofJson?
  cases hfields : schema.fields? with
  | none => exact Or.inr ⟨rfl, rfl⟩
  | some fields =>
      have hschema : schema = .object fields := by
        cases schema with
        | object inner =>
            cases hfields
            rfl
        | null => cases hfields
        | bool => cases hfields
        | number => cases hfields
        | string => cases hfields
        | array => cases hfields
      rw [Option.any_some, Option.bind_some]
      by_cases hkey : (fields.has "enum" || fields.has "_enum") = true
      · obtain ⟨spec, hspec⟩ := EnumSpec.exists_ofFields? (Bool.or_eq_true_iff.mp hkey)
        exact Or.inl ⟨hkey, fields, spec, hschema, hspec, EnumSpec.reads_of_ofFields? hspec⟩
      · exact Or.inr ⟨Bool.eq_false_iff.mpr hkey, if_neg hkey⟩

namespace Resolution

/-- The properties whose schemas have an enum key. -/
def withEnums (properties : List ResolvedProperty) : List ResolvedProperty :=
  properties.filter fun resolved => resolved.property.schema.listsEnum

/-- **The enum types and issues of properties, read off their schemas.** Every property whose schema
has an enum key gets one type, named for the definition and for the property, with the values that
its keys amount to, and every issue of its keys is reported, all in the order of the properties. -/
def ExtractsEnums (definition : String) (properties : List ResolvedProperty)
    (types : List EnumType) (diagnostics : List Diagnostic) : Prop :=
  ∃ specs : List EnumSpec,
    List.Forall₂ (fun resolved spec =>
        ∃ fields, resolved.property.schema = .object fields ∧ spec.Reads fields)
      (withEnums properties) specs ∧
    types = List.zipWith (fun resolved spec =>
        ⟨Naming.enumType definition resolved.name, resolved.name, spec.values⟩)
      (withEnums properties) specs ∧
    diagnostics = (List.zipWith (fun resolved spec =>
        spec.issues.map (.malformedEnum definition resolved.name))
      (withEnums properties) specs).flatten

theorem extractsEnums_of_enumSpec (resolution : Resolution) {properties : List ResolvedProperty}
    (h : ∀ resolved ∈ properties,
      resolved.property.enumSpec = EnumSpec.ofJson? resolved.property.schema) :
    ExtractsEnums resolution.name properties (properties.filterMap resolution.enumType?)
      (properties.flatMap resolution.issueDiagnostics) := by
  induction properties with
  | nil => exact ⟨[], List.Forall₂.nil, rfl, rfl⟩
  | cons resolved rest ih =>
      obtain ⟨hresolved, hrest⟩ := List.forall_mem_cons.mp h
      obtain ⟨specs, hspecs, htypes, hdiagnostics⟩ := ih hrest
      unfold ExtractsEnums
      rcases resolved.property.schema.enumSpec_cases with
        ⟨hlists, fields, spec, hschema, hspec, hreads⟩ | ⟨hlists, hspec⟩
      · rw [hspec] at hresolved
        have htake : withEnums (resolved :: rest) = resolved :: withEnums rest := by
          simp [withEnums, hlists]
        rw [htake]
        refine ⟨spec :: specs, List.Forall₂.cons ⟨fields, hschema, hreads⟩ hspecs, ?_, ?_⟩
        · rw [List.zipWith_cons_cons, ← htypes]
          simp [enumType?, hresolved]
        · rw [List.zipWith_cons_cons, List.flatten_cons, ← hdiagnostics]
          simp [issueDiagnostics, hresolved]
      · rw [hspec] at hresolved
        have hskip : withEnums (resolved :: rest) = withEnums rest := by
          simp [withEnums, hlists]
        rw [hskip]
        refine ⟨specs, hspecs, ?_, ?_⟩
        · rw [← htypes]
          simp [enumType?, hresolved]
        · rw [← hdiagnostics]
          simp [issueDiagnostics, hresolved]

/-- **Enum values are paired with their descriptions by position, and nothing is lost**, from the
keys of a schema to the enum types of a flattened definition. -/
theorem enumTypes_by_position :
    (∀ fields : Json.Fields, fields.has "enum" = true ∨ fields.has "_enum" = true →
      ∃ spec, EnumSpec.ofFields? fields = some spec ∧ spec.Reads fields) ∧
    ∀ (value : Json) (document : Document) (start : Definition), value.UniqueKeys →
      Document.ofJson value = .ok document → start ∈ document.definitions →
      ExtractsEnums start.name (resolve document start).properties
        (resolve document start).enumTypes (resolve document start).enumDiagnostics := by
  constructor
  · intro fields hkey
    obtain ⟨spec, hspec⟩ := EnumSpec.exists_ofFields? hkey
    exact ⟨spec, hspec, EnumSpec.reads_of_ofFields? hspec⟩
  · intro value document start hkeys hread hstart
    refine extractsEnums_of_enumSpec (resolve document start) fun resolved hresolved => ?_
    obtain ⟨_, _, _, _, _, hbody, hmem, hdeclared⟩ :=
      (mem_properties_resolve_iff hkeys hread hstart resolved).mp hresolved
    exact (faithful_of_mem_declared hkeys hread hbody hmem hdeclared).enumSpec

/-! ## Values past a gap -/

/-- The enum keys of a schema, with an item in each list that cannot be used. -/
def seasonFields : Json.Fields :=
  [("enum", .array [.string "spring", .null, .number (.integer 3)]),
    ("_enum", .array [.bool true, .array []]),
    ("enumDescription", .array [.string "warm", .string "lost", .object [],
      .number (.integer 4)])]

/-- A definition with that schema for its one property. -/
def seasonDocument : Document where
  fields := [("A", .object [("properties", .object [("season", .object seasonFields)])])]
  definitions := [⟨"A", "/A",
    .ofFields [("properties", .object [("season", .object seasonFields)])]⟩]

/-- The gap in the first list shifts no description, and the last value has that of its position in
both lists together. -/
theorem enumTypes_by_position_seasonDocument :
    Json.Fields.has seasonFields "enum" = true ∧ seasonDocument.root.UniqueKeys ∧
      Document.ofJson seasonDocument.root = .ok seasonDocument ∧
      (∃ spec, EnumSpec.ofFields? seasonFields = some spec ∧ spec.Reads seasonFields ∧
        spec.values = [⟨"spring", some "warm"⟩, ⟨"3", none⟩, ⟨"true", some "4"⟩] ∧
        spec.issues = [⟨"enum[1]", .null⟩, ⟨"_enum[1]", .array⟩,
          ⟨"enumDescription[2]", .object⟩]) ∧
      ∀ start ∈ seasonDocument.definitions,
        ExtractsEnums start.name (resolve seasonDocument start).properties
          (resolve seasonDocument start).enumTypes
          (resolve seasonDocument start).enumDiagnostics := by
  have hkey : Json.Fields.has seasonFields "enum" = true := by decide +kernel
  have hkeys : seasonDocument.root.UniqueKeys := by
    simp [seasonDocument, seasonFields, Document.root, Json.UniqueKeys, Json.UniqueKeysFields,
      Json.UniqueKeysItems]
  have hread : Document.ofJson seasonDocument.root = .ok seasonDocument := rfl
  obtain ⟨spec, hspec, hreads⟩ := enumTypes_by_position.1 seasonFields (Or.inl hkey)
  have hvalue : EnumSpec.ofFields? seasonFields = some
      ⟨[⟨"spring", some "warm"⟩, ⟨"3", none⟩, ⟨"true", some "4"⟩],
        [⟨"enum[1]", .null⟩, ⟨"_enum[1]", .array⟩, ⟨"enumDescription[2]", .object⟩]⟩ := by
    decide +kernel
  have heq := Option.some.inj (hspec.symm.trans hvalue)
  refine ⟨hkey, hkeys, hread, ⟨spec, hspec, hreads, by rw [heq], by rw [heq]⟩, ?_⟩
  exact fun start hstart => enumTypes_by_position.2 _ _ start hkeys hread hstart

end Resolution

end SchemaHeader

import Mathlib.Data.List.Nodup
import SchemaHeader.Compilation
import SchemaHeader.Proofs.DefinitionPointers

set_option autoImplicit false

/-! # When enum types have the same name

A name is a run of words: a word starts behind every underscore and at every upper-case letter but
the first character. The name of an enum type joins the words of its definition, those of its
property and the word `kind`, and **the joint between definition and property is an underscore
like any other**. So the name tells the words in a row, and neither where the property starts nor
how the words were told apart.

* `Naming.enumType_eq_iff`: two enum types have the same name exactly if their words are the same
  in a row.
* `Compilation.nodup_enumTypeNames_iff`: the enum types of a document have distinct names exactly if
  no two of its properties spell the same words in a row.
* `Compilation.not_nodup_enumTypeNames`: distinct names of definitions, and of properties in each
  definition, are not enough.
-/

namespace SchemaHeader

/-! ## Lower case -/

namespace Text

/-- No run of upper-case characters has the underscore among its lower cases. -/
theorem upperRuns_avoid_underscore :
    ∀ run ∈ upperRuns, ¬ ((run.first : Int) ≤ 95 - run.shift ∧ 95 - run.shift ≤ run.last) := by
  decide +kernel

theorem isUpper_underscore : isUpper '_' = false := by decide +kernel

/-- A character other than the one that stands for invalid codes has one code. -/
theorem eq_toNat_of_ofNat {code : Nat} {c : Char} (h : Char.ofNat code = c) (hc : c ≠ '\x00') :
    code = c.toNat := by
  by_cases hvalid : code.isValidChar
  · rw [Char.ofNat, dif_pos hvalid] at h
    rw [← h]
    rfl
  · rw [Char.ofNat, dif_neg hvalid] at h
    exact absurd h.symm hc

/-- The lower case of an upper-case character has no underscore. -/
theorem underscore_notMem_lower {c : Char} (h : isUpper c = true) : '_' ∉ lower c := by
  unfold lower
  split
  · decide
  · split
    · rename_i run hrun
      intro hmem
      have hcode := eq_toNat_of_ofNat (List.mem_singleton.mp hmem).symm (by decide)
      rw [show '_'.toNat = 95 from rfl] at hcode
      have hcontains := List.find?_some hrun
      simp only [UpperRun.contains, Bool.and_eq_true, decide_eq_true_eq] at hcontains
      apply upperRuns_avoid_underscore run (List.mem_of_find?_eq_some hrun)
      constructor
      · omega
      · omega
    · intro hmem
      rw [← List.mem_singleton.mp hmem, isUpper_underscore] at h
      cases h

end Text

/-! ## Words -/

namespace Naming

/-- Puts a character in front of words. An underscore belongs to no word: it ends one. -/
def attach (c : Char) (list : List (List Char)) : List (List Char) :=
  if c = '_' then [] :: list else list.modifyHead ([c] ++ ·)

/-- The words behind the first character of a name. The first of them goes on from there. -/
def splitWords : List Char → List (List Char)
  | [] => [[]]
  | c :: rest =>
    if Text.isUpper c then [] :: (splitWords rest).modifyHead (Text.lower c ++ ·)
    else attach c (splitWords rest)

/-- **The words of a name.** The case of its first character counts, that of the others does
not. -/
def words (name : String) : List (List Char) :=
  match name.toList with
  | [] => [[]]
  | c :: rest => attach c (splitWords rest)

/-- Words joined by underscores. -/
def join (list : List (List Char)) : List Char :=
  ['_'].intercalate list

theorem join_nil_cons {list : List (List Char)} (h : list ≠ []) :
    join ([] :: list) = '_' :: join list := by
  rw [join, List.intercalate_cons_of_ne_nil h]
  rfl

theorem join_modifyHead {list : List (List Char)} (h : list ≠ []) (text : List Char) :
    join (list.modifyHead (text ++ ·)) = text ++ join list := by
  cases list with
  | nil => exact absurd rfl h
  | cons word rest =>
      cases rest with
      | nil => simp [join]
      | cons next rest => simp [join]

/-- Joining two runs of words puts one more underscore between them. -/
theorem join_append {first second : List (List Char)} (hfirst : first ≠ [])
    (hsecond : second ≠ []) : join (first ++ second) = join first ++ '_' :: join second := by
  induction first with
  | nil => exact absurd rfl hfirst
  | cons word rest ih =>
      cases rest with
      | nil =>
          show join (word :: second) = _
          rw [join, List.intercalate_cons_of_ne_nil hsecond]
          simp [join]
      | cons next rest =>
          have hrest := ih (List.cons_ne_nil next rest)
          simp only [join, List.cons_append, List.intercalate_cons_cons] at hrest ⊢
          rw [hrest]
          simp

theorem attach_ne_nil (c : Char) {list : List (List Char)} (h : list ≠ []) :
    attach c list ≠ [] := by
  unfold attach
  split
  · exact List.cons_ne_nil _ _
  · exact fun hnil => h (List.modifyHead_eq_nil_iff.mp hnil)

theorem splitWords_ne_nil (rest : List Char) : splitWords rest ≠ [] := by
  induction rest with
  | nil => exact List.cons_ne_nil _ _
  | cons c rest ih =>
      rw [splitWords]
      split
      · exact List.cons_ne_nil _ _
      · exact attach_ne_nil c ih

theorem words_ne_nil (name : String) : words name ≠ [] := by
  unfold words
  split
  · exact List.cons_ne_nil _ _
  · exact attach_ne_nil _ (splitWords_ne_nil _)

/-! ## No word has an underscore -/

/-- Words without underscores. -/
def Plain (list : List (List Char)) : Prop :=
  ∀ word ∈ list, '_' ∉ word

theorem Plain.nil_cons {list : List (List Char)} (h : Plain list) : Plain ([] :: list) :=
  List.forall_mem_cons.mpr ⟨List.not_mem_nil, h⟩

theorem Plain.modifyHead {list : List (List Char)} (h : Plain list) {text : List Char}
    (htext : '_' ∉ text) : Plain (list.modifyHead (text ++ ·)) := by
  cases list with
  | nil => exact h
  | cons first rest =>
      obtain ⟨hfirst, hrest⟩ := List.forall_mem_cons.mp h
      refine List.forall_mem_cons.mpr ⟨?_, hrest⟩
      rw [List.mem_append, not_or]
      exact ⟨htext, hfirst⟩

theorem Plain.attach {list : List (List Char)} (h : Plain list) (c : Char) :
    Plain (attach c list) := by
  unfold Naming.attach
  split
  · exact h.nil_cons
  · rename_i hc
    apply h.modifyHead
    intro hmem
    exact hc (List.mem_singleton.mp hmem).symm

/-- A written underscore ends a word, and a lower case brings none in. -/
theorem plain_splitWords (rest : List Char) : Plain (splitWords rest) := by
  induction rest with
  | nil => exact Plain.nil_cons fun _ hword => absurd hword List.not_mem_nil
  | cons c rest ih =>
      rw [splitWords]
      split
      · rename_i hupper
        exact (ih.modifyHead (Text.underscore_notMem_lower hupper)).nil_cons
      · exact ih.attach c

theorem plain_words (name : String) : Plain (words name) := by
  unfold words
  split
  · exact plain_splitWords []
  · exact (plain_splitWords _).attach _

/-! ## Names as joined words -/

/-- **Words without underscores can be told from their join.** -/
theorem join_injective {first second : List (List Char)} (hfirst : first ≠ [])
    (hsecond : second ≠ []) (hplain : Plain first) (hplain' : Plain second)
    (h : join first = join second) : first = second := by
  calc first = (join first).splitOn '_' := (List.splitOn_intercalate '_' hplain hfirst).symm
    _ = (join second).splitOn '_' := by rw [h]
    _ = second := List.splitOn_intercalate '_' hplain' hsecond

theorem join_attach (c : Char) {list : List (List Char)} (h : list ≠ []) :
    join (attach c list) = c :: join list := by
  unfold attach
  split
  · rename_i hc
    rw [join_nil_cons h, hc]
  · exact join_modifyHead h [c]

/-- Splitting a name at its upper-case letters joins its words. -/
theorem join_splitWords (rest : List Char) : join (splitWords rest) = rest.flatMap separate := by
  induction rest with
  | nil => rfl
  | cons c rest ih =>
      have hrest := splitWords_ne_nil rest
      rw [splitWords, List.flatMap_cons, separate]
      split
      · rw [join_nil_cons (fun h => hrest (List.modifyHead_eq_nil_iff.mp h)),
          join_modifyHead hrest, ih]
        rfl
      · rw [join_attach c hrest, ih]
        rfl

theorem toList_normalize (name : String) : (normalize name).toList = join (words name) := by
  rw [normalize, String.toList_ofList]
  unfold words
  split
  · rename_i h
    rw [h]
    rfl
  · rename_i c rest h
    rw [h, normalizeChars, join_attach c (splitWords_ne_nil rest), join_splitWords]

/-- **The name of an enum type joins the words of its definition and of its property**, and the
word `kind`. -/
theorem toList_enumType (definition property : String) :
    (enumType definition property).toList
      = join (words definition ++ words property ++ ["kind".toList]) := by
  have hne : words definition ++ words property ≠ [] := by
    simp [words_ne_nil definition]
  rw [join_append hne (List.cons_ne_nil _ _), join_append (words_ne_nil _) (words_ne_nil _),
    ← toList_normalize, ← toList_normalize]
  simp [enumType, join]

/-- **Two enum types have the same name exactly if their definitions and properties spell the same
words in a row.** -/
theorem enumType_eq_iff (definition property definition' property' : String) :
    enumType definition property = enumType definition' property'
      ↔ words definition ++ words property = words definition' ++ words property' := by
  rw [← String.toList_inj, toList_enumType, toList_enumType]
  have hplain : ∀ d p : String, Plain (words d ++ words p ++ ["kind".toList]) := by
    intro d p word hword
    rcases List.mem_append.mp hword with hword | hword
    · rcases List.mem_append.mp hword with hword | hword
      · exact plain_words d word hword
      · exact plain_words p word hword
    · rw [List.mem_singleton.mp hword]
      decide
  constructor
  · intro h
    exact List.append_cancel_right
      (join_injective (by simp) (by simp) (hplain _ _) (hplain _ _) h)
  · intro h
    rw [h]

end Naming

/-! ## Enum types of a document -/

/-- The definition and the property of every enum type that is generated for a flattened
definition. -/
def Resolution.enumProperties (resolution : Resolution) : List (String × String) :=
  (resolution.properties.filter (·.property.enumSpec.isSome)).map
    fun resolved => (resolution.name, resolved.name)

/-- The definition and the property of every enum type of a document. -/
def Document.enumProperties (document : Document) : List (String × String) :=
  document.resolutions.flatMap Resolution.enumProperties

/-- The names of the enum types of all definitions together. -/
def Compilation.Survey.enumTypeNames (survey : Compilation.Survey) : List String :=
  (survey.resolutions.flatMap Resolution.enumTypes).map EnumType.name

/-- The words of a definition and of its property in a row. -/
def Naming.spelled (key : String × String) : List (List Char) :=
  words key.1 ++ words key.2

namespace Resolution

/-- Every property with enum keys gets one type, named for its definition and for itself. -/
theorem map_name_enumTypes (resolution : Resolution) :
    resolution.enumTypes.map EnumType.name
      = resolution.enumProperties.map fun key => Naming.enumType key.1 key.2 := by
  rw [enumTypes, enumProperties]
  induction resolution.properties with
  | nil => rfl
  | cons resolved rest ih =>
      rw [List.filterMap_cons, List.filter_cons, enumType?]
      cases hspec : resolved.property.enumSpec with
      | none => exact ih
      | some spec => exact congrArg (_ :: ·) ih

/-- A flattened definition with distinct property names has every enum property once. -/
theorem nodup_enumProperties {resolution : Resolution}
    (h : (resolution.properties.map ResolvedProperty.name).Nodup) :
    resolution.enumProperties.Nodup := by
  have hnames := h.sublist (List.filter_sublist (p := (·.property.enumSpec.isSome)) |>.map _)
  refine List.Nodup.of_map Prod.snd ?_
  rw [enumProperties, List.map_map]
  exact hnames

theorem fst_of_mem_enumProperties {resolution : Resolution} {key : String × String}
    (h : key ∈ resolution.enumProperties) : key.1 = resolution.name := by
  obtain ⟨_, _, rfl⟩ := List.mem_map.mp h
  rfl

end Resolution

/-- A document has every enum property once, if its definitions have distinct names and so have the
properties of each. -/
theorem Document.nodup_enumProperties {value : Json} {document : Document}
    (hkeys : value.UniqueKeys) (hread : Document.ofJson value = .ok document)
    (hproperties : ∀ resolution ∈ document.resolutions,
      (resolution.properties.map ResolvedProperty.name).Nodup) :
    document.enumProperties.Nodup := by
  rw [enumProperties, List.nodup_flatMap]
  constructor
  · intro resolution hmem
    exact Resolution.nodup_enumProperties (hproperties resolution hmem)
  · have hnames := nodup_names hread hkeys
    rw [resolutions, List.pairwise_map]
    refine (List.pairwise_map.mp hnames).imp ?_
    intro first second hne key hfirst hsecond
    apply hne
    calc first.name = key.1 := (Resolution.fst_of_mem_enumProperties hfirst).symm
      _ = second.name := Resolution.fst_of_mem_enumProperties hsecond

namespace Compilation

theorem enumTypeNames_resolveAll (document : Document) :
    (resolveAll document).enumTypeNames
      = document.enumProperties.map fun key => Naming.enumType key.1 key.2 := by
  show (document.resolutions.flatMap Resolution.enumTypes).map EnumType.name = _
  rw [Document.enumProperties, List.map_flatMap, List.map_flatMap]
  simp only [Resolution.map_name_enumTypes]

/-- **The enum types of a document have distinct names exactly if no two of its enum properties
spell the same words in a row**, definition and property together. Distinct names of the definitions
and of the properties in each are taken for granted. -/
theorem nodup_enumTypeNames_iff {value : Json} {document : Document}
    (hkeys : value.UniqueKeys) (hread : Document.ofJson value = .ok document)
    (hproperties : ∀ resolution ∈ (resolveAll document).resolutions,
      (resolution.properties.map ResolvedProperty.name).Nodup) :
    (resolveAll document).enumTypeNames.Nodup ↔
      ∀ first ∈ document.enumProperties, ∀ second ∈ document.enumProperties,
        Naming.spelled first = Naming.spelled second → first = second := by
  have hnodup := Document.nodup_enumProperties hkeys hread hproperties
  rw [enumTypeNames_resolveAll, List.nodup_map_iff_inj_on hnodup]
  simp only [Naming.enumType_eq_iff, Naming.spelled]

/-! ## Two definitions with an enum property each -/

/-- The fields of a body with one enum property. -/
def enumBody (property label : String) : Json.Fields :=
  [("properties", .object [(property, .object [("enum", .array [.string label])])])]

/-- A document of two definitions with one enum property each. -/
def enumDocument (first second : String × String) : Document where
  fields :=
    [(first.1, .object (enumBody first.2 "petrol")),
      (second.1, .object (enumBody second.2 "diesel"))]
  definitions :=
    [⟨first.1, Pointer.ofField first.1, .ofFields (enumBody first.2 "petrol")⟩,
      ⟨second.1, Pointer.ofField second.1, .ofFields (enumBody second.2 "diesel")⟩]

theorem ofJson_root_enumDocument (first second : String × String) :
    Document.ofJson (enumDocument first second).root = .ok (enumDocument first second) := rfl

theorem uniqueKeys_root_enumDocument {first second : String × String} (h : first.1 ≠ second.1) :
    (enumDocument first second).root.UniqueKeys := by
  simp [enumDocument, enumBody, Document.root, Json.UniqueKeys, Json.UniqueKeysFields,
    Json.UniqueKeysItems, h]

/-- The fuel types of cars and of trucks. -/
def fuelDocument : Document := enumDocument ("Car", "fuelType") ("Truck", "fuelType")

/-- The fuel types spell different words, so the enum types have different names. -/
theorem nodup_enumTypeNames_fuelDocument :
    fuelDocument.root.UniqueKeys ∧ Document.ofJson fuelDocument.root = .ok fuelDocument ∧
      (∀ resolution ∈ (resolveAll fuelDocument).resolutions,
        (resolution.properties.map ResolvedProperty.name).Nodup) ∧
      (resolveAll fuelDocument).enumTypeNames.Nodup := by
  have hkeys : fuelDocument.root.UniqueKeys := uniqueKeys_root_enumDocument (by decide)
  have hread : Document.ofJson fuelDocument.root = .ok fuelDocument :=
    ofJson_root_enumDocument _ _
  have hproperties : ∀ resolution ∈ (resolveAll fuelDocument).resolutions,
      (resolution.properties.map ResolvedProperty.name).Nodup := by
    decide +kernel
  refine ⟨hkeys, hread, hproperties, (nodup_enumTypeNames_iff hkeys hread hproperties).mpr ?_⟩
  decide +kernel

/-- The engine types of cars, and the types of car engines. -/
def engineDocument : Document := enumDocument ("Car", "engineType") ("CarEngine", "type")

/-- **Distinct names are not enough.** The engine type of a car and the type of a car engine spell
the same words in a row, and both enum types are `Car_engine_type_kind`. -/
theorem not_nodup_enumTypeNames :
    engineDocument.root.UniqueKeys ∧ Document.ofJson engineDocument.root = .ok engineDocument ∧
      (∀ resolution ∈ (resolveAll engineDocument).resolutions,
        (resolution.properties.map ResolvedProperty.name).Nodup) ∧
      (resolveAll engineDocument).enumTypeNames
        = ["Car_engine_type_kind", "Car_engine_type_kind"] ∧
      ¬ (resolveAll engineDocument).enumTypeNames.Nodup := by
  refine ⟨uniqueKeys_root_enumDocument (by decide), ofJson_root_enumDocument _ _, ?_⟩
  decide +kernel

end Compilation

end SchemaHeader

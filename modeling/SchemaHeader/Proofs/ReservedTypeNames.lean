import Mathlib.Data.List.Chain
import SchemaHeader.Proofs.HeaderIdentifiers
import SchemaHeader.Proofs.NormalNames

set_option autoImplicit false

/-! # When the name of an enum type is reserved

The name of an enum type is put together from two names and the word `kind`. If the two can be used,
the result is an identifier and no keyword, but it may still be reserved: **an underscore of a name
can come to stand beside one that normalizing or joining puts in**.

* `Naming.avoids_normalizeChars`: normalizing doubles an underscore exactly where one stands before
  an upper-case letter.
* `Naming.hasDoubleUnderscore_enumType_iff`: which names double an underscore of their enum type.
* `Naming.fault?_enumType`: the only fault of the name of an enum type is that it is reserved, and
  when it has that fault.
-/

namespace SchemaHeader

/-! ## Upper-case letters of identifiers -/

namespace Text

/-- Of the runs of upper-case characters, the first one is that of the ASCII capitals, and the
others lie behind ASCII. -/
theorem first_of_mem_allUpperRuns :
    ∀ run ∈ allUpperRuns, run = ⟨0x41, 0x5A, 1, 32⟩ ∨ 0x80 ≤ run.first := by
  decide +kernel

theorem asciiUpper_iff_toNat (c : Char) : c.isUpper = true ↔ 0x41 ≤ c.toNat ∧ c.toNat ≤ 0x5A := by
  have hupper : c.isUpper = decide (c.val ≥ 'A'.val ∧ c.val ≤ 'Z'.val) := rfl
  simp [hupper, UInt32.le_iff_toNat_le, ← Char.toNat_val]

/-- **The upper-case characters of ASCII are its capitals.** -/
theorem isUpper_iff_of_ascii {c : Char} (h : c.toNat < 0x80) :
    isUpper c = true ↔ c.isUpper = true := by
  rw [asciiUpper_iff_toNat, isUpper_iff]
  constructor
  · rintro ⟨run, hrun, hcontains⟩
    obtain ⟨hfirst, hlast, _⟩ := UpperRun.contains_iff.mp hcontains
    rcases first_of_mem_allUpperRuns run hrun with rfl | hbehind
    · exact ⟨hfirst, hlast⟩
    · omega
  · rintro ⟨hfirst, hlast⟩
    refine ⟨⟨0x41, 0x5A, 1, 32⟩, by decide, UpperRun.contains_iff.mpr ⟨hfirst, hlast, ?_⟩⟩
    exact Nat.mod_one _

theorem ne_underscore_of_isUpper {c : Char} (h : isUpper c = true) : c ≠ '_' := by
  rintro rfl
  rw [isUpper_underscore] at h
  cases h

theorem lower_ne_nil (c : Char) : lower c ≠ [] := by
  unfold lower
  split
  · exact List.cons_ne_nil _ _
  · split
    · exact List.cons_ne_nil _ _
    · exact List.cons_ne_nil _ _

end Text

namespace Identifier

theorem toNat_lt_of_isContinue {c : Char} (h : isContinue c = true) : c.toNat < 0x80 := by
  simp only [isContinue, isStart, isCapital, Bool.or_eq_true, Bool.and_eq_true, decide_eq_true_eq,
    beq_iff_eq, Char.le_def, UInt32.le_iff_toNat_le] at h
  rcases h with ((⟨_, h⟩ | ⟨_, h⟩) | rfl) | ⟨_, h⟩
  · exact Nat.lt_of_le_of_lt h (by decide)
  · exact Nat.lt_of_le_of_lt h (by decide)
  · decide
  · exact Nat.lt_of_le_of_lt h (by decide)

theorem isUpper_iff_of_isContinue {c : Char} (h : isContinue c = true) :
    Text.isUpper c = true ↔ c.isUpper = true :=
  Text.isUpper_iff_of_ascii (toNat_lt_of_isContinue h)

/-- What a character of an identifier becomes may go on an identifier. -/
theorem isContinue_of_mem_separate {c d : Char} (h : isContinue c = true)
    (hmem : d ∈ Naming.separate c) : isContinue d = true := by
  by_cases hcapital : c.isUpper = true
  · have hcapitals : ∀ i < 26, (Naming.separate (Char.ofNat (0x41 + i))).all isContinue = true := by
      decide
    have hcode := (Text.asciiUpper_iff_toNat c).mp hcapital
    have hc : Char.ofNat (0x41 + (c.toNat - 0x41)) = c := by
      rw [Nat.add_sub_cancel' hcode.1, Char.ofNat_toNat]
    have hall := hcapitals (c.toNat - 0x41) (by omega)
    rw [hc] at hall
    exact List.all_eq_true.mp hall d hmem
  · rw [Naming.separate, if_neg (fun hupper => hcapital ((isUpper_iff_of_isContinue h).mp hupper)),
      List.mem_singleton] at hmem
    rw [hmem]
    exact h

theorem wellFormed_append {s t : List Char} (hs : wellFormed s = true)
    (ht : ∀ c ∈ t, isContinue c = true) : wellFormed (s ++ t) = true := by
  cases s with
  | nil => cases hs
  | cons c rest =>
      rw [wellFormed, Bool.and_eq_true] at hs
      rw [List.cons_append, wellFormed, List.all_append, Bool.and_eq_true, Bool.and_eq_true]
      exact ⟨hs.1, hs.2, List.all_eq_true.mpr ht⟩

theorem isContinue_of_mem {s : List Char} (h : wellFormed s = true) :
    ∀ c ∈ s, isContinue c = true := by
  cases s with
  | nil => cases h
  | cons c rest =>
      rw [wellFormed, Bool.and_eq_true] at h
      refine List.forall_mem_cons.mpr ⟨?_, List.all_eq_true.mp h.2⟩
      rw [isContinue, h.1, Bool.true_or]

/-- Normalizing an identifier gives an identifier. -/
theorem wellFormed_normalizeChars {s : List Char} (h : wellFormed s = true) :
    wellFormed (Naming.normalizeChars s) = true := by
  cases s with
  | nil => cases h
  | cons c rest =>
      have hcontinue := (List.forall_mem_cons.mp (isContinue_of_mem h)).2
      rw [wellFormed, Bool.and_eq_true] at h
      rw [Naming.normalizeChars, wellFormed, Bool.and_eq_true, List.all_eq_true]
      refine ⟨h.1, fun d hd => ?_⟩
      obtain ⟨e, he, hmem⟩ := List.mem_flatMap.mp hd
      exact isContinue_of_mem_separate (hcontinue e he) hmem

end Identifier

namespace Naming

/-! ## Underscores side by side -/

/-- No underscore of a text stands right before a character of a kind. -/
def Avoids (kind : Char → Prop) (s : List Char) : Prop :=
  s.IsChain fun c d => ¬ (c = '_' ∧ kind d)

theorem avoids_iff (kind : Char → Prop) (s : List Char) :
    Avoids kind s ↔ ∀ c, kind c → ¬ ['_', c] <:+: s := by
  rw [Avoids, List.isChain_iff_forall_rel_of_append_cons_cons]
  constructor
  · rintro h c hc ⟨before, behind, rfl⟩
    have hsplit : before ++ ['_', c] ++ behind = before ++ '_' :: c :: behind := by simp
    exact h hsplit ⟨rfl, hc⟩
  · rintro h _ d before behind rfl ⟨rfl, hd⟩
    exact h d hd ⟨before, behind, by simp⟩

theorem avoids_cons (kind : Char → Prop) (c : Char) (s : List Char) :
    Avoids kind (c :: s) ↔ (∀ d ∈ s.head?, ¬ (c = '_' ∧ kind d)) ∧ Avoids kind s :=
  List.isChain_cons

theorem avoids_append (kind : Char → Prop) (s t : List Char) :
    Avoids kind (s ++ t) ↔ Avoids kind s ∧ Avoids kind t ∧
      ∀ c ∈ s.getLast?, ∀ d ∈ t.head?, ¬ (c = '_' ∧ kind d) :=
  List.isChain_append

/-- A text without underscores avoids whatever comes behind it. -/
theorem avoids_append_of_notMem (kind : Char → Prop) {s : List Char} (h : '_' ∉ s)
    (t : List Char) : Avoids kind (s ++ t) ↔ Avoids kind t := by
  induction s with
  | nil => exact Iff.rfl
  | cons c rest ih =>
      rw [List.mem_cons, not_or] at h
      rw [List.cons_append, avoids_cons, ih h.2]
      exact and_iff_right fun d _ hd => h.1 hd.1.symm

/-- **Normalizing doubles an underscore exactly where one stands before an upper-case letter**, if
none is doubled before. -/
theorem avoids_normalizeChars (c : Char) (rest : List Char) :
    Avoids (· = '_') (normalizeChars (c :: rest)) ↔
      Avoids (fun d => d = '_' ∨ Text.isUpper d = true) (c :: rest) := by
  rw [normalizeChars]
  induction rest generalizing c with
  | nil => simp [Avoids]
  | cons d rest ih =>
      have hnext := ih d
      rw [List.flatMap_cons, separate]
      by_cases hupper : Text.isUpper d = true
      · have hd := Text.ne_underscore_of_isUpper hupper
        have hlower := Text.underscore_notMem_lower hupper
        -- The new underscore stands before a lower case, so only the character before it counts.
        have hinner : Avoids (· = '_') ('_' :: (Text.lower d ++ rest.flatMap separate)) ↔
            Avoids (· = '_') (rest.flatMap separate) := by
          rw [avoids_cons, avoids_append_of_notMem _ hlower]
          refine and_iff_right ?_
          rintro e he ⟨_, rfl⟩
          cases hcase : Text.lower d with
          | nil => exact Text.lower_ne_nil d hcase
          | cons first more =>
              rw [hcase] at he hlower
              cases he
              exact hlower List.mem_cons_self
        have hhead : Avoids (· = '_') (d :: rest.flatMap separate) ↔
            Avoids (· = '_') (rest.flatMap separate) :=
          avoids_append_of_notMem _ (s := [d]) (by simpa using hd.symm) _
        rw [if_pos hupper, List.cons_append, avoids_cons, hinner, ← hhead, hnext, avoids_cons _ c]
        simp [hupper]
      · rw [if_neg hupper, List.singleton_append, avoids_cons, hnext, avoids_cons _ c]
        simp [hupper]

/-- What a character becomes ends in an underscore exactly if the character is one. -/
theorem getLast?_separate (c : Char) :
    ∃ d, (separate c).getLast? = some d ∧ (d = '_' ↔ c = '_') := by
  unfold separate
  by_cases hupper : Text.isUpper c = true
  · obtain ⟨front, last, hlast⟩ :=
      (List.eq_nil_or_concat' (Text.lower c)).resolve_left (Text.lower_ne_nil c)
    have hlower := Text.underscore_notMem_lower hupper
    rw [hlast, List.mem_append, List.mem_singleton, not_or] at hlower
    refine ⟨last, ?_, iff_of_false (Ne.symm hlower.2) (Text.ne_underscore_of_isUpper hupper)⟩
    rw [if_pos hupper, hlast, ← List.cons_append, List.getLast?_concat]
  · exact ⟨c, by rw [if_neg hupper]; rfl, Iff.rfl⟩

/-- A normalized name ends in an underscore exactly if the name does. -/
theorem getLast?_normalizeChars (s : List Char) :
    (normalizeChars s).getLast? = some '_' ↔ s.getLast? = some '_' := by
  cases s with
  | nil => rfl
  | cons c rest =>
      rcases List.eq_nil_or_concat' rest with rfl | ⟨front, last, rfl⟩
      · rfl
      · obtain ⟨d, hd, hiff⟩ := getLast?_separate last
        rw [normalizeChars, List.flatMap_append, List.flatMap_singleton, ← List.cons_append,
          ← List.cons_append, List.getLast?_append, hd, List.getLast?_concat, Option.some_or,
          Option.some_inj, Option.some_inj, hiff]

/-! ## Names of enum types -/

/-- **What makes an underscore of an enum type's name double**: one that stands at a joint, or right
before a capital letter. -/
def Doubles (definition property : String) : Prop :=
  definition.toList.getLast? = some '_' ∨ property.toList.head? = some '_' ∨
    property.toList.getLast? = some '_' ∨
    ∃ c : Char, c.isUpper = true ∧
      (['_', c] <:+: definition.toList ∨ ['_', c] <:+: property.toList)

theorem toList_enumType_eq (definition property : String) :
    (enumType definition property).toList
      = normalizeChars definition.toList ++ '_' :: (normalizeChars property.toList
        ++ '_' :: ['k', 'i', 'n', 'd']) := by
  simp [enumType, normalize]

/-- No underscore is doubled in a name that can be used, unless it stands before a capital. -/
theorem avoids_normalizeChars_of_usable {name : String} (h : Identifier.Usable name) :
    Avoids (· = '_') (normalizeChars name.toList) ↔
      ∀ c : Char, c.isUpper = true → ¬ ['_', c] <:+: name.toList := by
  obtain ⟨first, rest, hname, _⟩ := h.spelling
  have hcontinue : ∀ c ∈ name.toList, Identifier.isContinue c = true :=
    Identifier.isContinue_of_mem ((Identifier.wellFormed_iff _).mpr h.spelling)
  have hupper : ∀ c, ['_', c] <:+: name.toList → (Text.isUpper c = true ↔ c.isUpper = true) := by
    intro c hc
    have hmem : c ∈ name.toList := hc.subset (by simp)
    exact Identifier.isUpper_iff_of_isContinue (hcontinue c hmem)
  rw [hname, avoids_normalizeChars, ← hname, avoids_iff]
  constructor
  · intro havoids c hc hinfix
    exact havoids c (Or.inr ((hupper c hinfix).mpr hc)) hinfix
  · rintro havoids c (rfl | hc) hinfix
    · exact h.no_double_underscore hinfix
    · exact havoids c ((hupper c hinfix).mp hc) hinfix

/-- An underscore between two texts is a double one if one of them has one on its side. -/
theorem avoids_joint (s t : List Char) :
    Avoids (· = '_') (s ++ '_' :: t) ↔
      Avoids (· = '_') s ∧ ¬ s.getLast? = some '_' ∧ ¬ t.head? = some '_' ∧
        Avoids (· = '_') t := by
  rw [avoids_append, avoids_cons]
  constructor
  · rintro ⟨hs, ⟨hbehind, ht⟩, hbefore⟩
    exact ⟨hs, fun h => hbefore '_' h '_' rfl ⟨rfl, rfl⟩, fun h => hbehind '_' h ⟨rfl, rfl⟩, ht⟩
  · rintro ⟨hs, hbefore, hbehind, ht⟩
    refine ⟨hs, ⟨?_, ht⟩, ?_⟩
    · rintro d hd ⟨_, rfl⟩
      exact hbehind hd
    · rintro c hc _ _ ⟨rfl, _⟩
      exact hbefore hc

/-- **When the name of an enum type has two underscores side by side**, if those that it is made of
can be used. -/
theorem hasDoubleUnderscore_enumType_iff {definition property : String}
    (hdefinition : Identifier.Usable definition) (hproperty : Identifier.Usable property) :
    Identifier.hasDoubleUnderscore (enumType definition property).toList = true ↔
      Doubles definition property := by
  have havoids : ∀ s, ¬ Identifier.hasDoubleUnderscore s = true ↔ Avoids (· = '_') s := by
    intro s
    rw [Identifier.hasDoubleUnderscore_iff, avoids_iff]
    exact ⟨fun h c hc => hc ▸ h, fun h => h '_' rfl⟩
  have hkind : Avoids (· = '_') ['k', 'i', 'n', 'd'] := by
    simp [Avoids]
  have hhead : (normalizeChars property.toList ++ '_' :: ['k', 'i', 'n', 'd']).head?
      = property.toList.head? := by
    obtain ⟨first, rest, hname, _⟩ := hproperty.spelling
    rw [hname]
    rfl
  rw [← not_iff_not, havoids, toList_enumType_eq, avoids_joint, avoids_joint, hhead,
    avoids_normalizeChars_of_usable hdefinition, avoids_normalizeChars_of_usable hproperty,
    getLast?_normalizeChars, getLast?_normalizeChars]
  constructor
  · rintro ⟨hinner, hend, hstart, hinner', hend', _⟩
    rintro (h | h | h | ⟨c, hc, h | h⟩)
    · exact hend h
    · exact hstart h
    · exact hend' h
    · exact hinner c hc h
    · exact hinner' c hc h
  · intro h
    simp only [Doubles, not_or, not_exists, not_and] at h
    obtain ⟨hend, hstart, hend', hinner⟩ := h
    exact ⟨fun c hc => (hinner c hc).1, hend, hstart, fun c hc => (hinner c hc).2, hend',
      by decide, hkind⟩

/-- The name of an enum type is an identifier if those that it is made of can be used. -/
theorem wellFormed_enumType {definition property : String}
    (hdefinition : Identifier.Usable definition) (hproperty : Identifier.Usable property) :
    Identifier.wellFormed (enumType definition property).toList = true := by
  have hfirst := Identifier.wellFormed_normalizeChars
    ((Identifier.wellFormed_iff _).mpr hdefinition.spelling)
  have hsecond := Identifier.isContinue_of_mem (Identifier.wellFormed_normalizeChars
    ((Identifier.wellFormed_iff _).mpr hproperty.spelling))
  rw [toList_enumType_eq]
  have hkind : ('_' :: ['k', 'i', 'n', 'd']).all Identifier.isContinue = true := by decide
  apply Identifier.wellFormed_append hfirst
  intro c hc
  rcases List.mem_cons.mp hc with rfl | hc
  · decide
  · rcases List.mem_append.mp hc with hc | hc
    · exact hsecond c hc
    · exact List.all_eq_true.mp hkind c hc

/-- No keyword ends like the name of an enum type. -/
theorem enumType_notMem_keywords (definition property : String) :
    enumType definition property ∉ Identifier.keywords := by
  have hkeywords : ∀ word ∈ Identifier.keywords, ¬ ['_', 'k', 'i', 'n', 'd'] <:+ word.toList := by
    decide
  intro hmem
  refine hkeywords _ hmem ?_
  rw [toList_enumType_eq, ← List.cons_append, ← List.append_assoc]
  exact List.suffix_append _ _

/-- The name of an enum type does not start with an underscore and a capital, because its
definition does not. -/
theorem not_startsReserved_enumType {definition : String} (h : Identifier.Usable definition)
    (property : String) :
    ¬ Identifier.startsReserved (enumType definition property).toList = true := by
  rw [Identifier.startsReserved_iff]
  rintro ⟨c, hc, hstart⟩
  obtain ⟨first, rest, hname, _, hrest⟩ := h.spelling
  rw [toList_enumType_eq, hname, normalizeChars, List.cons_append, List.cons_prefix_cons] at hstart
  obtain ⟨rfl, hnext⟩ := hstart
  cases rest with
  | nil =>
      have hunderscore : c = '_' := by simpa using hnext
      rw [hunderscore] at hc
      cases hc
  | cons d rest =>
      have hd : d.isUpper = false := by
        rw [Bool.eq_false_iff]
        intro hupper
        exact h.no_capital d hupper ⟨rest, hname.symm⟩
      have hlower : ¬ Text.isUpper d = true := by
        have hcontinue := (Identifier.isContinue_iff d).mpr (hrest d List.mem_cons_self)
        rw [Identifier.isUpper_iff_of_isContinue hcontinue, hd]
        exact Bool.false_ne_true
      rw [List.flatMap_cons, separate, if_neg hlower] at hnext
      have heq : c = d := by simpa using hnext
      rw [heq, hd] at hc
      cases hc

/-- **The name of an enum type is reserved exactly if it doubles an underscore, and has no other
fault**, if those that it is made of can be used. -/
theorem fault?_enumType {definition property : String}
    (hdefinition : Identifier.fault? definition = none)
    (hproperty : Identifier.fault? property = none) :
    (Identifier.fault? (enumType definition property)).map Identifier.Fault.reason
      ≠ some "not an identifier" ∧
    (Identifier.fault? (enumType definition property)).map Identifier.Fault.reason
      ≠ some "reserved keyword" ∧
    ((Identifier.fault? (enumType definition property)).map Identifier.Fault.reason
      = some "reserved for the implementation" ↔ Doubles definition property) ∧
    (¬ Doubles definition property →
      Identifier.fault? (enumType definition property) = none) := by
  rw [Identifier.fault?_eq_none_iff] at hdefinition hproperty
  have hformed := wellFormed_enumType hdefinition hproperty
  have hkeyword := enumType_notMem_keywords definition property
  have hstart := not_startsReserved_enumType hdefinition property
  have hdouble := hasDoubleUnderscore_enumType_iff hdefinition hproperty
  by_cases h : Doubles definition property
  · have hfault : Identifier.fault? (enumType definition property) = some .reserved := by
      simp [Identifier.fault?, hformed, hkeyword, hdouble.mpr h]
    rw [hfault]
    exact ⟨by decide, by decide, iff_of_true rfl h, fun hnot => absurd h hnot⟩
  · have hsingle := mt hdouble.mp h
    have hfault : Identifier.fault? (enumType definition property) = none := by
      simp [Identifier.fault?, hformed, hkeyword, hstart, hsingle]
    rw [hfault]
    exact ⟨by decide, by decide, iff_of_false (by decide) h, fun _ => rfl⟩

/-- A property with an underscore before a capital gives a reserved name, one without does not. -/
theorem fault?_enumType_fuelType :
    Identifier.fault? "MyVehicle" = none ∧ Identifier.fault? "fuel_Type" = none ∧
      Identifier.fault? "fuelType" = none ∧
      (Identifier.fault? (enumType "MyVehicle" "fuel_Type")).map Identifier.Fault.reason
        = some "reserved for the implementation" ∧
      Identifier.fault? (enumType "MyVehicle" "fuelType") = none := by
  have hvehicle : Identifier.fault? "MyVehicle" = none := by decide
  have hmarked : Identifier.fault? "fuel_Type" = none := by decide
  have hplain : Identifier.fault? "fuelType" = none := by decide
  refine ⟨hvehicle, hmarked, hplain, ?_, ?_⟩
  · refine (fault?_enumType hvehicle hmarked).2.2.1.mpr (Or.inr (Or.inr (Or.inr ?_)))
    exact ⟨'T', rfl, Or.inr ⟨['f', 'u', 'e', 'l'], ['y', 'p', 'e'], by decide⟩⟩
  · refine (fault?_enumType hvehicle hplain).2.2.2 ?_
    rintro (h | h | h | ⟨c, _, h | h⟩)
    · exact absurd h (by decide)
    · exact absurd h (by decide)
    · exact absurd h (by decide)
    · exact absurd (h.subset List.mem_cons_self) (by decide)
    · exact absurd (h.subset List.mem_cons_self) (by decide)

end Naming

end SchemaHeader

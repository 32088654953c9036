import SchemaHeader.Proofs.EnumTypeNames

set_option autoImplicit false

/-! # Normalizing a name twice

Normalizing leaves a name alone exactly if no character but the first is upper case. The lower case
of an upper-case character is not upper case, **unless the character has no lower case of its own**:
then it stays, and the next time it gets one more underscore.

* `Text.eq_of_mem_lower`: what is upper case in the lower case of a character is the character.
* `Naming.normalize_eq_self_iff`: which names are left alone.
* `Naming.normalize_twice_iff`: a normalized name is left alone exactly if every upper-case letter
  of the name has a lower case, the first character apart.
* `Naming.normalize_twice_boldCapital`: not every name is such.
-/

namespace SchemaHeader

/-! ## The lower case of upper-case characters -/

namespace Text

/-- All runs of upper-case characters, the dotted capital I included. -/
def allUpperRuns : List UpperRun :=
  ⟨0x0130, 0x0130, 1, 0⟩ :: upperRuns

/-- **An upper-case character without a lower case**, such as a mathematical capital. -/
def Unpaired (c : Char) : Prop :=
  isUpper c = true ∧ lower c = [c]

theorem isUpper_iff (c : Char) :
    isUpper c = true ↔ ∃ run ∈ allUpperRuns, run.contains c.toNat = true := by
  have hdotted : UpperRun.contains ⟨0x0130, 0x0130, 1, 0⟩ c.toNat = true ↔ c = dottedCapitalI := by
    have hcode : dottedCapitalI.toNat = 0x0130 := rfl
    rw [← Char.toNat_inj, hcode]
    simp only [UpperRun.contains, Bool.and_eq_true, decide_eq_true_eq, beq_iff_eq]
    omega
  rw [isUpper, Bool.or_eq_true, beq_iff_eq, upperRun?, List.find?_isSome, allUpperRuns,
    List.exists_mem_cons_iff, hdotted]

namespace UpperRun

/-- The run of the lower cases of a run. -/
def lowers (run : UpperRun) : UpperRun :=
  ⟨(run.first + run.shift).toNat, (run.last + run.shift).toNat, run.step, 0⟩

/-- Whether two runs lie apart, or have every second code each and one of them the even codes. -/
def apart (run other : UpperRun) : Bool :=
  Nat.blt run.last other.first || Nat.blt other.last run.first ||
    (Nat.beq run.step 2 && Nat.beq other.step 2 && Nat.beq ((run.first + other.first) % 2) 1)

theorem contains_iff {run : UpperRun} {code : Nat} :
    run.contains code = true ↔
      run.first ≤ code ∧ code ≤ run.last ∧ (code - run.first) % run.step = 0 := by
  simp only [contains, Bool.and_eq_true, decide_eq_true_eq, beq_iff_eq, and_assoc]

/-- The lower case of a code of a run is a code of its lower cases. -/
theorem contains_lowers {run : UpperRun} {code lowered : Nat}
    (hcode : run.contains code = true) (hshift : 0 ≤ (run.first : Int) + run.shift)
    (hlowered : lowered = ((code : Int) + run.shift).toNat) :
    run.lowers.contains lowered = true := by
  obtain ⟨hfirst, hlast, hstep⟩ := contains_iff.mp hcode
  have hdistance : lowered - (run.first + run.shift).toNat = code - run.first := by omega
  refine contains_iff.mpr ⟨?_, ?_, ?_⟩
  · show (run.first + run.shift).toNat ≤ lowered
    omega
  · show lowered ≤ (run.last + run.shift).toNat
    omega
  · show (lowered - (run.first + run.shift).toNat) % run.step = 0
    rw [hdistance, hstep]

theorem not_contains_of_apart {run other : UpperRun} (h : run.apart other = true) {code : Nat}
    (hcode : run.contains code = true) : ¬ other.contains code = true := by
  intro hother
  obtain ⟨hfirst, hlast, hstep⟩ := contains_iff.mp hcode
  obtain ⟨hfirst', hlast', hstep'⟩ := contains_iff.mp hother
  simp only [apart, Bool.or_eq_true, Bool.and_eq_true, Nat.blt_eq, Nat.beq_eq] at h
  rcases h with (hbelow | habove) | ⟨⟨htwo, htwo'⟩, hodd⟩
  · omega
  · omega
  · rw [htwo] at hstep
    rw [htwo'] at hstep'
    omega

end UpperRun

/-- Lower cases that are other characters lie apart from all upper-case characters. -/
theorem lowers_apart :
    ∀ run ∈ upperRuns, run.shift = 0 ∨
      0 ≤ (run.first : Int) + run.shift ∧ allUpperRuns.all run.lowers.apart = true := by
  decide +kernel

theorem isUpper_nul : isUpper '\x00' = false := by decide +kernel

/-- **What is upper case in the lower case of a character is the character itself.** -/
theorem eq_of_mem_lower {c d : Char} (hmem : d ∈ lower c) (hupper : isUpper d = true) : d = c := by
  unfold lower at hmem
  split at hmem
  · have hsmall : ['i', '\u0307'].all (fun e => !isUpper e) = true := by decide +kernel
    have hd := List.all_eq_true.mp hsmall d hmem
    rw [hupper] at hd
    cases hd
  · split at hmem
    · rename_i run hrun
      have hd := List.mem_singleton.mp hmem
      rcases lowers_apart run (List.mem_of_find?_eq_some hrun) with hshift | ⟨hshift, hapart⟩
      · rw [hd, hshift, Int.add_zero, Int.toNat_natCast]
        exact Char.ofNat_toNat c
      · -- The code of `d` would belong both to the lower cases of a run and to another run.
        have hnul : d ≠ '\x00' := by
          rintro rfl
          rw [isUpper_nul] at hupper
          cases hupper
        have hcode := eq_toNat_of_ofNat hd.symm hnul
        have hcontains : run.contains c.toNat = true :=
          List.find?_some (p := fun run : UpperRun => run.contains c.toNat) hrun
        obtain ⟨other, hother, hin⟩ := (isUpper_iff d).mp hupper
        have hlowers := UpperRun.contains_lowers hcontains hshift hcode.symm
        exact absurd hin
          (UpperRun.not_contains_of_apart (List.all_eq_true.mp hapart other hother) hlowers)
    · exact List.mem_singleton.mp hmem

/-- A character in its own lower case is all of it. -/
theorem lower_eq_of_mem {c : Char} (h : c ∈ lower c) : lower c = [c] := by
  unfold lower at h ⊢
  split at h
  · rename_i hdotted
    rw [hdotted] at h
    exact absurd h (by decide)
  · rename_i hdotted
    rw [if_neg hdotted]
    split at h
    · rename_i run hrun
      rw [← List.mem_singleton.mp h]
    · rfl

end Text

namespace Naming

/-! ## Names that are left alone -/

/-- What is upper case behind a character that is taken apart is the character, and has no lower
case. -/
theorem exists_isUpper_mem_separate_iff (c : Char) :
    (∃ d ∈ separate c, Text.isUpper d = true) ↔ Text.Unpaired c := by
  unfold separate
  by_cases hupper : Text.isUpper c = true
  · rw [if_pos hupper]
    constructor
    · rintro ⟨d, hmem, hd⟩
      rcases List.mem_cons.mp hmem with rfl | hlower
      · rw [Text.isUpper_underscore] at hd
        cases hd
      · have heq := Text.eq_of_mem_lower hlower hd
        rw [heq] at hlower
        exact ⟨hupper, Text.lower_eq_of_mem hlower⟩
    · rintro ⟨_, hlower⟩
      refine ⟨c, List.mem_cons_of_mem _ ?_, hupper⟩
      rw [hlower]
      exact List.mem_singleton_self c
  · rw [if_neg hupper]
    constructor
    · rintro ⟨d, hmem, hd⟩
      rw [List.mem_singleton.mp hmem] at hd
      exact absurd hd hupper
    · rintro ⟨hc, _⟩
      exact absurd hc hupper

theorem flatMap_separate_eq_self_iff (s : List Char) :
    s.flatMap separate = s ↔ ∀ c ∈ s, Text.isUpper c = false := by
  induction s with
  | nil => simp
  | cons c rest ih =>
      rw [List.flatMap_cons, List.forall_mem_cons, separate]
      by_cases hupper : Text.isUpper c = true
      · rw [if_pos hupper]
        constructor
        · -- An underscore would be the character that it is put in front of.
          intro h
          have hhead : '_' = c := (List.cons.inj h).1
          rw [← hhead, Text.isUpper_underscore] at hupper
          cases hupper
        · rintro ⟨hc, _⟩
          rw [hc] at hupper
          cases hupper
      · rw [if_neg hupper, List.singleton_append, List.cons_inj_right, ih]
        have hc : Text.isUpper c = false := by simpa using hupper
        simp [hc]

theorem tail_normalize (name : String) :
    (normalize name).toList.tail = name.toList.tail.flatMap separate := by
  rw [normalize, String.toList_ofList]
  cases name.toList with
  | nil => rfl
  | cons c rest => rfl

/-- **A name is left alone exactly if only its first character may be upper case.** -/
theorem normalize_eq_self_iff (name : String) :
    normalize name = name ↔ ∀ c ∈ name.toList.tail, Text.isUpper c = false := by
  rw [← flatMap_separate_eq_self_iff, ← String.toList_inj, normalize, String.toList_ofList]
  cases name.toList with
  | nil => simp [normalizeChars]
  | cons c rest => simp [normalizeChars]

/-- Upper-case letters that are left behind the first character have no lower case. -/
theorem tail_normalize_lower_iff (name : String) :
    (∀ c ∈ (normalize name).toList.tail, Text.isUpper c = false) ↔
      ∀ c ∈ name.toList.tail, ¬ Text.Unpaired c := by
  rw [tail_normalize]
  constructor
  · intro h c hc hunpaired
    obtain ⟨d, hd, hupper⟩ := (exists_isUpper_mem_separate_iff c).mpr hunpaired
    rw [h d (List.mem_flatMap.mpr ⟨c, hc, hd⟩)] at hupper
    cases hupper
  · intro h d hd
    obtain ⟨c, hc, hmem⟩ := List.mem_flatMap.mp hd
    rw [Bool.eq_false_iff]
    intro hupper
    exact h c hc ((exists_isUpper_mem_separate_iff c).mp ⟨d, hmem, hupper⟩)

/-- **Normalizing a second time changes nothing, and leaves no upper-case letter behind the first
character, exactly if every upper-case letter there has a lower case.** -/
theorem normalize_twice_iff (name : String) :
    (normalize (normalize name) = normalize name ↔
      ∀ c ∈ name.toList.tail, ¬ Text.Unpaired c) ∧
    ((∀ c ∈ (normalize name).toList.tail, Text.isUpper c = false) ↔
      ∀ c ∈ name.toList.tail, ¬ Text.Unpaired c) := by
  constructor
  · rw [normalize_eq_self_iff, tail_normalize_lower_iff]
  · exact tail_normalize_lower_iff name

/-- **A letter without a lower case is taken apart again and again**: the bold capital of `a𝐀` stays
upper case and gets an underscore each time. -/
theorem normalize_twice_boldCapital :
    normalize "a𝐀" = "a_𝐀" ∧ normalize (normalize "a𝐀") = "a__𝐀" ∧
      normalize (normalize "a𝐀") ≠ normalize "a𝐀" ∧
      ∃ c ∈ (normalize "a𝐀").toList.tail, Text.isUpper c = true := by
  refine ⟨by decide +kernel, by decide +kernel, by decide +kernel, '𝐀', ?_, ?_⟩
  · decide +kernel
  · decide +kernel

end Naming

end SchemaHeader

import SchemaHeader.Json.Reader.UniqueKeys
import SchemaHeader.Proofs.DefinitionPointers
import Mathlib.Tactic.IntervalCases

set_option autoImplicit false

/-! # Pointers put together

A pointer written behind another one leads on from where the first one leads to: the slash that
starts it is also the one that ends the last token before it.

* `Pointer.tokens?_append`, `Json.resolve?_append`: **the path of two pointers in a row** is the one
  path and then the other.
* `Pointer.index?_toString`: an index reads back from its decimal digits.
* `Json.UniqueKeys.resolve`: a part of a value without repeated keys repeats none either.
-/

namespace SchemaHeader

/-! ## Tokens in a row -/

theorem Text.splitSlash_ne_nil (s : List Char) : Text.splitSlash s ≠ [] := by
  cases s with
  | nil => exact List.cons_ne_nil _ _
  | cons c rest =>
      rw [splitSlash]
      split
      · exact List.cons_ne_nil _ _
      · split
        · exact List.cons_ne_nil _ _
        · exact List.cons_ne_nil _ _

/-- A slash parts the pieces before it from those behind it. -/
theorem Text.splitSlash_append_slash (s t : List Char) :
    Text.splitSlash (s ++ '/' :: t) = Text.splitSlash s ++ Text.splitSlash t := by
  induction s with
  | nil => rfl
  | cons c rest ih =>
      by_cases hc : c = '/'
      · rw [List.cons_append, splitSlash, splitSlash, if_pos hc, if_pos hc, ih, List.cons_append]
      · rw [List.cons_append, splitSlash, splitSlash, if_neg hc, if_neg hc, ih]
        cases hsplit : splitSlash rest with
        | nil => exact absurd hsplit (splitSlash_ne_nil rest)
        | cons piece pieces => rfl

/-- No piece between slashes holds a slash. -/
theorem Text.slash_notMem_of_mem_splitSlash {s piece : List Char} (h : piece ∈ splitSlash s) :
    '/' ∉ piece := by
  induction s generalizing piece with
  | nil =>
      rw [splitSlash, List.mem_singleton] at h
      exact h ▸ List.not_mem_nil
  | cons c rest ih =>
      rw [splitSlash] at h
      by_cases hc : c = '/'
      · rw [if_pos hc, List.mem_cons] at h
        rcases h with rfl | h
        · exact List.not_mem_nil
        · exact ih h
      · rw [if_neg hc] at h
        cases hsplit : splitSlash rest with
        | nil => exact absurd hsplit (splitSlash_ne_nil rest)
        | cons first others =>
            rw [hsplit] at h ih
            rcases List.mem_cons.mp h with rfl | h
            · intro hmem
              rcases List.mem_cons.mp hmem with heq | hmem
              · exact hc heq.symm
              · exact ih List.mem_cons_self hmem
            · exact ih (List.mem_cons_of_mem _ h)

namespace Pointer

/-- A text that can be read as a path is empty or starts with a slash. -/
theorem tokens?_cases {pointer : String} {path : List String} (h : tokens? pointer = some path) :
    (pointer = "" ∧ path = []) ∨
    ∃ rest, pointer.toList = '/' :: rest ∧
      path = (Text.splitSlash rest).map fun token => String.ofList (unescapeChars token) := by
  unfold tokens? at h
  split at h
  · rename_i hnil
    cases h
    exact Or.inl ⟨String.toList_eq_nil_iff.mp hnil, rfl⟩
  · rename_i rest hslash
    cases h
    exact Or.inr ⟨rest, hslash, rfl⟩
  · cases h

theorem eq_empty_of_tokens? {pointer : String} (h : tokens? pointer = some []) : pointer = "" := by
  rcases tokens?_cases h with ⟨hempty, _⟩ | ⟨rest, _, hnil⟩
  · exact hempty
  · exact absurd (List.map_eq_nil_iff.mp hnil.symm) (Text.splitSlash_ne_nil rest)

/-- What can be read as a path has no fragment mark to drop. -/
theorem canonical_of_tokens? {pointer : String} {path : List String}
    (h : tokens? pointer = some path) : canonical pointer = pointer := by
  unfold canonical
  split
  · rename_i rest hmark
    rcases tokens?_cases h with ⟨rfl, _⟩ | ⟨rest', hslash, _⟩
    · cases hmark
    · rw [hslash] at hmark
      cases hmark
  · rfl

/-- A fragment mark before a pointer is dropped. -/
theorem canonical_mark (pointer : String) : canonical ("#" ++ pointer) = pointer := by
  have hlist : ("#" ++ pointer).toList = '#' :: pointer.toList := by
    rw [String.toList_append]
    rfl
  unfold canonical
  rw [hlist]
  exact String.ofList_toList

/-- **The path of two pointers in a row** is the one path and then the other. -/
theorem tokens?_append {first second : String} {path more : List String}
    (hfirst : tokens? first = some path) (hsecond : tokens? second = some more) :
    tokens? (first ++ second) = some (path ++ more) := by
  rcases tokens?_cases hfirst with ⟨rfl, rfl⟩ | ⟨rest, hrest, rfl⟩
  · rw [String.empty_append, hsecond, List.nil_append]
  · rcases tokens?_cases hsecond with ⟨rfl, rfl⟩ | ⟨rest', hrest', rfl⟩
    · rw [String.append_empty, hfirst, List.append_nil]
    · have hlist : (first ++ second).toList = '/' :: (rest ++ '/' :: rest') := by
        rw [String.toList_append, hrest, hrest', List.cons_append]
      rw [tokens?, hlist]
      simp only
      rw [Text.splitSlash_append_slash, List.map_append]

/-! ## Plain tokens -/

/-- A token without tildes and slashes is written as it is. -/
theorem escape_of_plain {token : String} (h : ∀ c ∈ token.toList, c ≠ '~' ∧ c ≠ '/') :
    escape token = token := by
  have hchars : ∀ s : List Char, (∀ c ∈ s, c ≠ '~' ∧ c ≠ '/') → escapeChars s = s := by
    intro s hs
    induction s with
    | nil => rfl
    | cons c rest ih =>
        obtain ⟨htilde, hslash⟩ := hs c List.mem_cons_self
        rw [escapeChars, if_neg htilde, if_neg hslash,
          ih fun d hd => hs d (List.mem_cons_of_mem c hd)]
  rw [escape, hchars token.toList h, String.ofList_toList]

theorem ofField_of_plain {name : String} (h : escape name = name) : ofField name = "/" ++ name := by
  rw [ofField, h]

/-! ## Indices -/

theorem toList_toString (n : Nat) : (toString n).toList = Nat.toDigits 10 n := by
  rw [Nat.toString_eq_repr, Nat.toList_repr]

theorem isDigit_of_mem_toDigits {n : Nat} {c : Char} (h : c ∈ Nat.toDigits 10 n) :
    Decimal.isDigit c = true := by
  have hdigit := Nat.isDigit_of_mem_toDigits (by decide) (by decide) h
  simpa [Char.isDigit, Decimal.isDigit, Char.le_def] using hdigit

/-- The digits of a number write that number. -/
theorem ofDigits_toDigits (n : Nat) : Decimal.ofDigits (Nat.toDigits 10 n) = n := by
  have hstep : (fun (m : Nat) (c : Char) => m * 10 + Decimal.digitValue c)
      = fun m c => 10 * m + (c.toNat - '0'.toNat) := by
    funext m c
    rw [Nat.mul_comm]
    rfl
  calc Decimal.ofDigits (Nat.toDigits 10 n)
      = Nat.ofDigitChars 10 (Nat.toDigits 10 n) 0 := by
        rw [Decimal.ofDigits, Nat.ofDigitChars, hstep]
    _ = n := Nat.ofDigitChars_ten_toDigits

/-- Only zero is written with a zero in front. -/
theorem eq_zero_of_head?_toDigits {n : Nat} (h : (Nat.toDigits 10 n).head? = some '0') : n = 0 := by
  induction n using Nat.strongRecOn with
  | ind n ih =>
      rw [Nat.toDigits_eq_if (by decide)] at h
      split at h
      · rename_i hlt
        interval_cases n <;> simp_all [Nat.digitChar]
      · rename_i hge
        have hhead : (Nat.toDigits 10 (n / 10)).head? = some '0' := by
          cases hdigits : Nat.toDigits 10 (n / 10) with
          | nil => exact absurd hdigits Nat.toDigits_ne_nil
          | cons c rest =>
              rw [hdigits] at h
              exact h
        have hzero : n / 10 = 0 := ih (n / 10) (by omega) hhead
        omega

/-- **An index reads back from its decimal digits.** -/
theorem index?_toString (n : Nat) : index? (toString n) = some n := by
  have hall : (Nat.toDigits 10 n).all Decimal.isDigit = true :=
    List.all_eq_true.mpr fun c hc => isDigit_of_mem_toDigits hc
  have hvalue := ofDigits_toDigits n
  have hzero := @eq_zero_of_head?_toDigits n
  rw [index?, toList_toString]
  split
  · rename_i hnil
    exact absurd hnil Nat.toDigits_ne_nil
  · rename_i hdigits
    rw [hzero (by rw [hdigits]; rfl)]
  · rename_i rest hrest hdigits
    -- A zero in front of more digits: the number is zero, and that has one digit.
    have hn : n = 0 := hzero (by rw [hdigits]; rfl)
    rw [hn] at hdigits
    exact absurd (List.cons.inj hdigits).2.symm hrest
  · rw [if_pos hall, hvalue]

/-- The digits of an index are a plain token. -/
theorem escape_toString (n : Nat) : escape (toString n) = toString n := by
  refine escape_of_plain fun c hc => ?_
  rw [toList_toString] at hc
  have hdigit := isDigit_of_mem_toDigits hc
  constructor
  · rintro rfl
    revert hdigit
    decide
  · rintro rfl
    revert hdigit
    decide

end Pointer

/-! ## Parts of parts -/

namespace Json

/-- **A pointer behind another one leads on from there.** -/
theorem resolve?_append {value part : Json} {first second : String} {path : List String}
    (hfirst : value.resolve? first = some part) (hsecond : Pointer.tokens? second = some path) :
    value.resolve? (first ++ second) = part.resolve? second := by
  obtain ⟨front, hfront, hpart⟩ := Option.bind_eq_some_iff.mp hfirst
  rw [resolve?, Pointer.tokens?_append hfront hsecond, resolve?, hsecond, Option.bind_some,
    Option.bind_some, descend?_append, hpart, Option.bind_some]

/-- The pointer of an index addresses the item at that index. -/
theorem resolve?_item (items : List Json) (i : Nat) :
    (Json.array items).resolve? (Pointer.ofField (toString i)) = items[i]? := by
  rw [resolve?, Pointer.tokens?_ofField, Option.bind_some]
  show ((Json.array items).child? (toString i)).bind (descend? · []) = items[i]?
  rw [child?, Pointer.index?_toString, Option.bind_some]
  cases items[i]? with
  | none => rfl
  | some item => rfl

/-! ## Repeated keys -/

theorem UniqueKeys.child {value part : Json} {token : String} (h : value.UniqueKeys)
    (hpart : value.child? token = some part) : part.UniqueKeys := by
  cases value with
  | object fields => exact ((uniqueKeys_object fields).mp h).2 _ (Fields.mem_of_get? hpart)
  | array items =>
      obtain ⟨i, _, hi⟩ := Option.bind_eq_some_iff.mp hpart
      exact (uniqueKeysItems_iff items).mp h part (List.mem_of_getElem? hi)
  | null => cases hpart
  | bool => cases hpart
  | number => cases hpart
  | string => cases hpart

theorem UniqueKeys.descend {value part : Json} {path : List String} (h : value.UniqueKeys)
    (hpart : value.descend? path = some part) : part.UniqueKeys := by
  induction path generalizing value with
  | nil =>
      cases hpart
      exact h
  | cons token path ih =>
      obtain ⟨middle, hmiddle, hrest⟩ := Option.bind_eq_some_iff.mp hpart
      exact ih (h.child hmiddle) hrest

/-- **A part of a value without repeated keys repeats none either.** -/
theorem UniqueKeys.resolve {value part : Json} {pointer : String} (h : value.UniqueKeys)
    (hpart : value.resolve? pointer = some part) : part.UniqueKeys := by
  obtain ⟨path, _, hdescend⟩ := Option.bind_eq_some_iff.mp hpart
  exact h.descend hdescend

end Json

end SchemaHeader

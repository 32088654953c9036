import SchemaHeader.Proofs.PointerSpellings
import Mathlib.Data.List.Induction

set_option autoImplicit false

/-! # Pointers and paths

A part of a value is reached by a path of steps, each the key of a field or the index of an item. A
pointer is the text of such a path. A step leaves two marks in the text, the slash before it and the
escapes in it, and **neither mark can come from a key**: a key is written without slashes, and with
no tilde that starts an escape of its own.

* `Json.Leads`: a path leads from a value to a part. It is said without pointers and look-ups.
* `Pointer.Spells`: a text spells a path. Tokens are decoded by replacing `~1` everywhere and then
  `~0` everywhere; `Pointer.unescapeChars_eq_decode` says that reading from left to right gives the
  same.
* `Pointer.index?_eq_some_iff`: an index has no text but its decimal digits.
* `Document.lookup?_round_trips`: **looking a pointer up is following the path that it spells.**
-/

namespace SchemaHeader

/-! ## Paths -/

namespace Json

/-- A step from a value to a part of it. -/
inductive Step where
  | key (name : String)
  | index (position : Nat)
  deriving DecidableEq, Repr

/-- **The path leads from a value to a part of it**, through one field or item after the other. -/
inductive Leads : Json → List Step → Json → Prop where
  | here (value : Json) : Leads value [] value
  | field {fields : Fields} {name : String} {inner part : Json} {path : List Step}
      (hfield : (name, inner) ∈ fields) (hrest : Leads inner path part) :
      Leads (.object fields) (.key name :: path) part
  | item {items : List Json} {position : Nat} {inner part : Json} {path : List Step}
      (hitem : items[position]? = some inner) (hrest : Leads inner path part) :
      Leads (.array items) (.index position :: path) part

/-- The text that a step is known by: the key as it is, or the digits of the index. -/
def Step.text : Step → String
  | .key name => name
  | .index position => toString position

end Json

namespace Pointer

/-- The pointer of one step. The digits of an index need no escapes. -/
def ofStep : Json.Step → String
  | .key name => "/" ++ escape name
  | .index position => "/" ++ toString position

/-- The pointer of a path. -/
def ofSteps (path : List Json.Step) : String :=
  String.join (path.map ofStep)

/-! ## Decoding a token in two rounds -/

/-- Replaces a tilde before `mark`, together with the mark, by `char`, wherever the two stand. -/
def substitute (mark char : Char) : List Char → List Char
  | [] => []
  | [c] => [c]
  | c :: d :: rest =>
    if c = '~' ∧ d = mark then char :: substitute mark char rest
    else c :: substitute mark char (d :: rest)

/-- Decodes a token: the slashes first, then the tildes. -/
def decode (token : List Char) : List Char :=
  substitute '0' '~' (substitute '1' '/' token)

theorem substitute_escape (mark char : Char) (rest : List Char) :
    substitute mark char ('~' :: mark :: rest) = char :: substitute mark char rest := by
  rw [substitute, if_pos ⟨rfl, rfl⟩]

/-- A character that starts no escape is kept. -/
theorem substitute_cons {mark char c : Char} {rest : List Char}
    (h : ¬ (c = '~' ∧ rest.head? = some mark)) :
    substitute mark char (c :: rest) = c :: substitute mark char rest := by
  cases rest with
  | nil => rfl
  | cons d rest =>
      rw [substitute, if_neg]
      intro hescape
      exact h ⟨hescape.1, by rw [List.head?_cons, hescape.2]⟩

/-- Replacing escapes changes the first character into the replacement or leaves it. -/
theorem head?_substitute (mark char : Char) (s : List Char) :
    (substitute mark char s).head? = some char ∨
      (substitute mark char s).head? = s.head? := by
  match s with
  | [] => exact Or.inr rfl
  | [c] => exact Or.inr rfl
  | c :: d :: rest =>
      unfold substitute
      split
      · exact Or.inl rfl
      · exact Or.inr rfl

/-- **Reading a token from left to right is decoding it in two rounds.** -/
theorem unescapeChars_eq_decode (token : List Char) : unescapeChars token = decode token := by
  unfold decode
  induction token using unescapeChars.induct with
  | case1 => rfl
  | case2 rest ih =>
      have hfirst : substitute '1' '/' ('~' :: '0' :: rest)
          = '~' :: '0' :: substitute '1' '/' rest := by
        rw [substitute_cons (by simp), substitute_cons (by simp)]
      rw [unescapeChars, hfirst, substitute_escape, ih]
  | case3 rest ih =>
      rw [unescapeChars, substitute_escape, substitute_cons (by simp), ih]
  | case4 c rest hzero hone ih =>
      have hmark : ∀ mark, c = '~' ∧ rest.head? = some mark → mark ≠ '0' ∧ mark ≠ '1' := by
        rintro mark ⟨hc, hhead⟩
        cases rest with
        | nil => cases hhead
        | cons d rest =>
            cases hhead
            exact ⟨fun hd => hzero rest hc (by rw [hd]), fun hd => hone rest hc (by rw [hd])⟩
      have hfirst : ¬ (c = '~' ∧ rest.head? = some '1') := fun h => (hmark '1' h).2 rfl
      -- The first round leaves slashes behind, never a zero, so it makes no escape of a tilde.
      have hsecond : ¬ (c = '~' ∧ (substitute '1' '/' rest).head? = some '0') := by
        rintro ⟨hc, hhead⟩
        rcases head?_substitute '1' '/' rest with hslash | hsame
        · rw [hslash] at hhead
          cases hhead
        · exact (hmark '0' ⟨hc, hsame ▸ hhead⟩).1 rfl
      rw [unescapeChars, substitute_cons hfirst, substitute_cons hsecond, ih]
      · exact hzero
      · exact hone

/-! ## Texts of paths -/

/-- **A text spells a path**: behind one slash for each step stands a token without slashes, and the
token decodes to the text of the step. -/
inductive Spells : List Char → List Json.Step → Prop where
  | nil : Spells [] []
  | cons {token rest : List Char} {step : Json.Step} {path : List Json.Step}
      (hslash : '/' ∉ token) (htoken : decode token = step.text.toList)
      (hrest : Spells rest path) : Spells ('/' :: (token ++ rest)) (step :: path)

/-- A text that spells a path is read as the texts of its steps. -/
theorem Spells.tokens? {text : List Char} {path : List Json.Step} (h : Spells text path) :
    Pointer.tokens? (String.ofList text) = some (path.map Json.Step.text) := by
  induction h with
  | nil => rfl
  | @cons token rest step path hslash htoken _ ih =>
      have hone : Pointer.tokens? (String.ofList ('/' :: token)) = some [step.text] := by
        unfold Pointer.tokens?
        rw [String.toList_ofList]
        simp only
        rw [Text.splitSlash_of_slash_notMem hslash, List.map_singleton, unescapeChars_eq_decode,
          htoken, String.ofList_toList]
      have hsplit : String.ofList ('/' :: (token ++ rest))
          = String.ofList ('/' :: token) ++ String.ofList rest := by
        rw [← List.cons_append, String.ofList_append]
      rw [hsplit, tokens?_append hone ih]
      rfl

/-- The pieces between slashes, each with a slash before it, are the text with a slash before it. -/
theorem flatMap_splitSlash (s : List Char) :
    (Text.splitSlash s).flatMap ('/' :: ·) = '/' :: s := by
  induction s with
  | nil => rfl
  | cons c rest ih =>
      by_cases hc : c = '/'
      · rw [Text.splitSlash, if_pos hc, List.flatMap_cons, ih, hc]
        rfl
      · obtain ⟨piece, pieces, hrest, hcons⟩ := splitSlash_cons hc rest
        rw [hrest, List.flatMap_cons, List.cons_append] at ih
        rw [hcons, List.flatMap_cons, List.cons_append, List.cons_append, (List.cons.inj ih).2]

theorem spells_flatMap {pieces : List (List Char)} {path : List Json.Step}
    (hslash : ∀ piece ∈ pieces, '/' ∉ piece)
    (h : pieces.map decode = path.map fun step => step.text.toList) :
    Spells (pieces.flatMap ('/' :: ·)) path := by
  induction pieces generalizing path with
  | nil =>
      rw [List.map_eq_nil_iff.mp h.symm]
      exact .nil
  | cons piece pieces ih =>
      cases path with
      | nil => cases h
      | cons step path =>
          obtain ⟨htoken, hrest⟩ := List.cons.inj h
          refine .cons (hslash piece List.mem_cons_self) htoken ?_
          exact ih (fun other hother => hslash other (List.mem_cons_of_mem _ hother)) hrest

/-- **A pointer spells a path exactly if it is read as the texts of the steps.** -/
theorem spells_iff {pointer : String} {path : List Json.Step} :
    Spells pointer.toList path ↔ tokens? pointer = some (path.map Json.Step.text) := by
  constructor
  · intro h
    have htokens := h.tokens?
    rwa [String.ofList_toList] at htokens
  · intro h
    rcases tokens?_cases h with ⟨rfl, hnil⟩ | ⟨rest, hrest, htexts⟩
    · rw [List.map_eq_nil_iff.mp hnil]
      exact .nil
    · rw [hrest, ← flatMap_splitSlash]
      refine spells_flatMap (fun piece hpiece => Text.slash_notMem_of_mem_splitSlash hpiece) ?_
      have hlists := congrArg (List.map String.toList) htexts
      rw [List.map_map, List.map_map] at hlists
      rw [show (fun step : Json.Step => step.text.toList) = String.toList ∘ Json.Step.text from rfl,
        hlists]
      refine List.map_congr_left fun piece _ => ?_
      show decode piece = (String.ofList (unescapeChars piece)).toList
      rw [String.toList_ofList, unescapeChars_eq_decode]

/-- The pointer of a step is that of a field named by its text. -/
theorem ofStep_eq_ofField (step : Json.Step) : ofStep step = ofField step.text := by
  cases step with
  | key name => rfl
  | index position =>
      show "/" ++ toString position = "/" ++ escape (toString position)
      rw [escape_toString]

/-- **The pointer of a path is read as the texts of its steps.** -/
theorem tokens?_ofSteps (path : List Json.Step) :
    tokens? (ofSteps path) = some (path.map Json.Step.text) := by
  induction path with
  | nil => rfl
  | cons step path ih =>
      have hcons : ofSteps (step :: path) = ofField step.text ++ ofSteps path := by
        rw [← ofStep_eq_ofField]
        exact String.join_cons
      rw [hcons, tokens?_append (tokens?_ofField step.text) ih]
      rfl

/-! ## Texts of indices -/

theorem digitChar_digitValue {c : Char} (h : Decimal.isDigit c = true) :
    Nat.digitChar (Decimal.digitValue c) = c ∧ Decimal.digitValue c < 10 := by
  have hrange : 48 ≤ c.toNat ∧ c.toNat ≤ 57 := by
    simpa [Decimal.isDigit, Char.le_def, UInt32.le_iff_toNat_le] using h
  have hchar : c = Char.ofNat c.toNat := (Char.ofNat_toNat c).symm
  unfold Decimal.digitValue
  generalize c.toNat = n at hrange hchar
  obtain ⟨hlow, hhigh⟩ := hrange
  subst hchar
  interval_cases n <;> decide

theorem ofDigits_concat (digits : List Char) (c : Char) :
    Decimal.ofDigits (digits ++ [c]) = Decimal.ofDigits digits * 10 + Decimal.digitValue c := by
  simp [Decimal.ofDigits]

/-- **Digits without a zero in front are the digits of the number that they write.** -/
theorem toDigits_ofDigits {digits : List Char} (hne : digits ≠ [])
    (hall : digits.all Decimal.isDigit = true) (hzero : digits.head? = some '0' → digits = ['0']) :
    Nat.toDigits 10 (Decimal.ofDigits digits) = digits := by
  -- From the last digit on: it is the remainder, and the digits before it are the quotient's.
  induction digits using List.reverseRecOn with
  | nil => exact absurd rfl hne
  | append_singleton front c ih =>
      rw [List.all_append, Bool.and_eq_true, List.all_cons, List.all_nil, Bool.and_true] at hall
      obtain ⟨hchar, hvalue⟩ := digitChar_digitValue hall.2
      rw [ofDigits_concat]
      by_cases hfront : front = []
      · subst hfront
        show Nat.toDigits 10 (0 * 10 + Decimal.digitValue c) = [c]
        rw [Nat.zero_mul, Nat.zero_add, Nat.toDigits_of_lt_base hvalue, hchar]
      · have hhead : front.head? ≠ some '0' := by
          intro hhead
          have hwhole := hzero (by rw [List.head?_append_of_ne_nil front hfront, hhead])
          have hlength := congrArg List.length hwhole
          have hpos : 0 < front.length := List.length_pos_iff.mpr hfront
          rw [List.length_append, List.length_singleton, List.length_singleton] at hlength
          omega
        have hdigits := ih hfront hall.1 fun hcontra => absurd hcontra hhead
        have hpos : Decimal.ofDigits front ≠ 0 := by
          intro hnone
          rw [hnone] at hdigits
          exact hhead (by rw [← hdigits]; rfl)
        have hquotient : (Decimal.ofDigits front * 10 + Decimal.digitValue c) / 10
            = Decimal.ofDigits front := by omega
        have hremainder : (Decimal.ofDigits front * 10 + Decimal.digitValue c) % 10
            = Decimal.digitValue c := by omega
        rw [Nat.toDigits_eq_if (by decide), if_neg (by omega), hquotient, hremainder, hdigits,
          hchar]

/-- **An index has no text but its decimal digits.** -/
theorem index?_eq_some_iff {token : String} {n : Nat} :
    index? token = some n ↔ token = toString n := by
  constructor
  · intro h
    apply String.toList_inj.mp
    rw [toList_toString]
    unfold index? at h
    split at h
    · cases h
    · rename_i hdigits
      cases h
      exact hdigits
    · cases h
    · rename_i hnil hsingle hzero
      split at h
      · rename_i hall
        cases h
        refine (toDigits_ofDigits hnil hall fun hhead => ?_).symm
        -- A zero in front of other digits was refused above.
        cases hlist : token.toList with
        | nil => exact absurd hlist hnil
        | cons c rest =>
            rw [hlist] at hhead
            cases hhead
            exact absurd hlist (hzero rest)
      · cases h
  · rintro rfl
    exact index?_toString n

end Pointer

/-! ## Following a path -/

namespace Json

/-- The path of a part is followed by the texts of its steps, if no key is repeated. -/
theorem Leads.descend? {value part : Json} {path : List Step} (h : value.Leads path part)
    (hkeys : value.UniqueKeys) : value.descend? (path.map Step.text) = some part := by
  induction h with
  | here value => rfl
  | @field fields name inner part path hfield _ ih =>
      obtain ⟨hnodup, hinner⟩ := (uniqueKeys_object fields).mp hkeys
      have hchild : (Json.object fields).child? name = some inner :=
        Fields.get?_of_mem hnodup hfield
      show ((Json.object fields).child? name).bind (Json.descend? · (path.map Step.text))
        = some part
      rw [hchild, Option.bind_some]
      exact ih (hinner _ hfield)
  | @item items position inner part path hitem _ ih =>
      have hinner : inner.UniqueKeys :=
        (uniqueKeysItems_iff items).mp hkeys inner (List.mem_of_getElem? hitem)
      have hchild : (Json.array items).child? (toString position) = some inner := by
        rw [child?, Pointer.index?_toString, Option.bind_some, hitem]
      show ((Json.array items).child? (toString position)).bind
        (Json.descend? · (path.map Step.text)) = some part
      rw [hchild, Option.bind_some]
      exact ih hinner

/-- One token leads along one step. -/
theorem exists_step_of_child? {value inner : Json} {token : String}
    (h : value.child? token = some inner) :
    ∃ step : Step, step.text = token ∧
      ∀ {path part}, inner.Leads path part → value.Leads (step :: path) part := by
  cases value with
  | object fields => exact ⟨.key token, rfl, fun hrest => .field (Fields.mem_of_get? h) hrest⟩
  | array items =>
      obtain ⟨position, hposition, hitem⟩ := Option.bind_eq_some_iff.mp h
      exact ⟨.index position, (Pointer.index?_eq_some_iff.mp hposition).symm,
        fun hrest => .item hitem hrest⟩
  | null => cases h
  | bool => cases h
  | number => cases h
  | string => cases h

/-- **What tokens lead to is the part at a path that they are the texts of.** -/
theorem exists_leads_of_descend? {value part : Json} {tokens : List String}
    (h : value.descend? tokens = some part) :
    ∃ path, path.map Step.text = tokens ∧ value.Leads path part := by
  induction tokens generalizing value with
  | nil =>
      cases h
      exact ⟨[], rfl, .here part⟩
  | cons token tokens ih =>
      obtain ⟨inner, hinner, hrest⟩ := Option.bind_eq_some_iff.mp h
      obtain ⟨path, htexts, hleads⟩ := ih hrest
      obtain ⟨step, htext, hstep⟩ := exists_step_of_child? hinner
      refine ⟨step :: path, ?_, hstep hleads⟩
      rw [List.map_cons, htext, htexts]

/-- **The texts of a path tell its steps**: a key and an index with the same text never start at the
same value. -/
theorem Leads.eq_of_texts {value part other : Json} {first second : List Step}
    (hfirst : value.Leads first part) (hsecond : value.Leads second other)
    (hkeys : value.UniqueKeys) (h : first.map Step.text = second.map Step.text) :
    first = second := by
  induction hfirst generalizing second with
  | here value => exact (List.map_eq_nil_iff.mp h.symm).symm
  | @field fields name inner part path hfield _ ih =>
      cases hsecond with
      | here => cases h
      | @field _ name' inner' _ path' hfield' hrest' =>
          obtain ⟨hname, htexts⟩ := List.cons.inj h
          have hsame : name = name' := hname
          subst hsame
          obtain ⟨hnodup, hinner⟩ := (uniqueKeys_object fields).mp hkeys
          have hget := Fields.get?_of_mem hnodup hfield
          rw [Fields.get?_of_mem hnodup hfield'] at hget
          cases hget
          rw [ih hrest' (hinner _ hfield) htexts]
  | @item items position inner part path hitem _ ih =>
      cases hsecond with
      | here => cases h
      | @item _ position' inner' _ path' hitem' hrest' =>
          obtain ⟨hposition, htexts⟩ := List.cons.inj h
          have hsame : some position = some position' := by
            rw [← Pointer.index?_toString position, ← Pointer.index?_toString position']
            exact congrArg Pointer.index? hposition
          cases hsame
          rw [hitem] at hitem'
          cases hitem'
          have hinner : inner.UniqueKeys :=
            (uniqueKeysItems_iff items).mp hkeys inner (List.mem_of_getElem? hitem)
          rw [ih hrest' hinner htexts]

end Json

/-! ## Looking pointers up -/

namespace Document

/-- A pointer is looked up by following its tokens, with the fragment mark and without. -/
theorem lookup?_of_path (document : Document) {pointer : String} {tokens : List String}
    (h : Pointer.tokens? pointer = some tokens) :
    document.lookup? pointer = document.root.descend? tokens ∧
      document.lookup? ("#" ++ pointer) = document.root.descend? tokens := by
  have hresolve : document.root.resolve? pointer = document.root.descend? tokens := by
    rw [Json.resolve?, h, Option.bind_some]
  constructor
  · rw [lookup?, Pointer.canonical_of_tokens? h, hresolve]
  · rw [lookup?, Pointer.canonical_mark, hresolve]

/-- **Looking a pointer up is following the path that it spells.** The pointer that is written for
the path of a part leads to that part, with the fragment mark and without; paths of two parts have
two pointers; and a pointer, however it is spelled, leads to a part exactly if the part stands at
the one path that the pointer spells. -/
theorem lookup?_round_trips {value : Json} {document : Document} (hkeys : value.UniqueKeys)
    (hread : Document.ofJson value = .ok document) :
    (∀ path part, value.Leads path part →
      document.lookup? (Pointer.ofSteps path) = some part ∧
      document.lookup? ("#" ++ Pointer.ofSteps path) = some part) ∧
    (∀ first second part other, value.Leads first part → value.Leads second other →
      first ≠ second → Pointer.ofSteps first ≠ Pointer.ofSteps second) ∧
    (∀ pointer part, document.lookup? pointer = some part ↔
      ∃! path, Pointer.Spells (Pointer.canonical pointer).toList path ∧ value.Leads path part) := by
  rw [(root_eq_of_ofJson hread).1] at hkeys ⊢
  refine ⟨?_, ?_, ?_⟩
  · intro path part hleads
    obtain ⟨hplain, hmarked⟩ := document.lookup?_of_path (Pointer.tokens?_ofSteps path)
    rw [hplain, hmarked]
    exact ⟨hleads.descend? hkeys, hleads.descend? hkeys⟩
  · intro first second part other hfirst hsecond hne heq
    have htexts : some (first.map Json.Step.text) = some (second.map Json.Step.text) := by
      rw [← Pointer.tokens?_ofSteps, ← Pointer.tokens?_ofSteps, heq]
    exact hne (hfirst.eq_of_texts hsecond hkeys (Option.some_inj.mp htexts))
  · intro pointer part
    rw [lookup?, Json.resolve?, Option.bind_eq_some_iff]
    constructor
    · rintro ⟨tokens, htokens, hpart⟩
      obtain ⟨path, rfl, hleads⟩ := Json.exists_leads_of_descend? hpart
      refine ⟨path, ⟨Pointer.spells_iff.mpr htokens, hleads⟩, ?_⟩
      rintro other ⟨hspells, hother⟩
      have htexts := Pointer.spells_iff.mp hspells
      rw [htokens] at htexts
      exact hother.eq_of_texts hleads hkeys (Option.some_inj.mp htexts).symm
    · rintro ⟨path, ⟨hspells, hleads⟩, _⟩
      exact ⟨_, Pointer.spells_iff.mp hspells, hleads.descend? hkeys⟩

/-! ## A path with marks in its keys -/

/-- The path of an item's field, under keys that look like an escape, are empty, or hold a tilde and
a slash. -/
def tangledPath : List Json.Step :=
  [.key "~1", .key "", .index 1, .key "a~/b"]

/-- A document with a text at that path. -/
def tangledDocument : Document where
  fields := [("~1", .object [("", .array [.null, .object [("a~/b", .string "x")]])])]
  definitions := [⟨"~1", "/~01", ⟨[]⟩⟩]

/-- The text is found under the pointer of its path, and also where the tilde of the last key is not
written as an escape. -/
theorem lookup?_round_trips_tangledDocument :
    tangledDocument.root.UniqueKeys ∧
      Document.ofJson tangledDocument.root = .ok tangledDocument ∧
      tangledDocument.root.Leads tangledPath (.string "x") ∧
      Pointer.ofSteps tangledPath = "/~01//1/a~0~1b" ∧
      tangledDocument.lookup? "/~01//1/a~0~1b" = some (.string "x") ∧
      tangledDocument.lookup? "#/~01//1/a~0~1b" = some (.string "x") ∧
      tangledDocument.lookup? "#/~01//1/a~~1b" = some (.string "x") ∧
      ∃! path, Pointer.Spells (Pointer.canonical "#/~01//1/a~~1b").toList path ∧
        tangledDocument.root.Leads path (.string "x") := by
  have hkeys : tangledDocument.root.UniqueKeys := by
    simp [tangledDocument, root, Json.UniqueKeys, Json.UniqueKeysFields, Json.UniqueKeysItems]
  have hread : Document.ofJson tangledDocument.root = .ok tangledDocument := by
    have hpointer : "/~01" = Pointer.ofField "~1" := by decide +kernel
    rw [tangledDocument, hpointer]
    rfl
  have hleads : tangledDocument.root.Leads tangledPath (.string "x") :=
    .field List.mem_cons_self (.field List.mem_cons_self
      (.item rfl (.field List.mem_cons_self (.here _))))
  have hwritten : Pointer.ofSteps tangledPath = "/~01//1/a~0~1b" := by decide +kernel
  have hother : tangledDocument.lookup? "#/~01//1/a~~1b" = some (.string "x") := by
    decide +kernel
  obtain ⟨hforth, _, hback⟩ := lookup?_round_trips hkeys hread
  obtain ⟨hplain, hmarked⟩ := hforth tangledPath (.string "x") hleads
  rw [hwritten] at hplain hmarked
  exact ⟨hkeys, hread, hleads, hwritten, hplain, hmarked, hother, (hback _ _).mp hother⟩

end Document

end SchemaHeader

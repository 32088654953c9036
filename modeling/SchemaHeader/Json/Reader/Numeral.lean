import SchemaHeader.Decimal.Digit
import SchemaHeader.Json.Basic
import SchemaHeader.Json.Reader.Basic

set_option autoImplicit false

/-! # Reading numbers

Digits are gathered in a significand for as long as it fits a 64-bit word. A digit that does not
fit ends this: such digits of the whole part scale the value by ten each, such digits of the
fraction are dropped (`absorb`). A numeral without fraction, exponent or such digits is an
integer if it fits a 64-bit word, signed or not; every other numeral is the significand scaled
by a power of ten, **in floating point arithmetic, one rounding a step** (`scale?`), so the
result is not always the value nearest to the numeral.
-/

namespace SchemaHeader.Json

open Decimal (isDigit digitValue wordLimit signedLimit)

/-! ## Digits -/

/-- The outcome of gathering digits: the significand, how many digits it took up and how many
came after the first that did not fit. -/
structure Absorbed where
  significand : Nat
  taken : Nat
  refused : Nat

/-- Gathers digits while the significand fits a 64-bit word. -/
def absorb (significand : Nat) : List Char → Absorbed
  | [] => ⟨significand, 0, 0⟩
  | c :: rest =>
    let next := significand * 10 + digitValue c
    if next < wordLimit then
      let more := absorb next rest
      { more with taken := more.taken + 1 }
    else ⟨significand, 0, rest.length + 1⟩

/-! ## Scaling -/

/-- A power of ten, rounded to the nearest value. -/
def powerOfTen (n : Nat) : Float :=
  Float.ofScientific 1 false n

/-- A value times a power of ten, in steps of at most `10^308`; nothing if it is out of range. -/
def scale? (value : Float) (exponent : Int) : Option Float :=
  if exponent.natAbs ≤ 308 then
    if 0 ≤ exponent then
      let scaled := value * powerOfTen exponent.toNat
      if scaled.isInf then none else some scaled
    else some (value / powerOfTen (-exponent).toNat)
  else if value == 0 then some value
  else if 0 ≤ exponent then none
  else scale? (value / powerOfTen 308) (exponent + 308)
termination_by (-exponent).toNat
decreasing_by omega

/-- A value with a sign. -/
def withSign (negative : Bool) (value : Float) : Float :=
  if negative then -value else value

/-- The number of a significand and a power of ten; `rest` is where a value out of range is
reported. -/
def scaledNumber (negative : Bool) (significand : Nat) (exponent : Int) (rest : List Char) :
    Except Fault Number :=
  match scale? (Float.ofNat significand) exponent with
  | some value => .ok (.float (withSign negative value))
  | none => .error (.here .numberOutOfRange rest)

/-- The number of a numeral without fraction and exponent whose digits all fit. Minus zero and
what is below the signed 64-bit range have no integer. -/
def wholeNumber (negative : Bool) (significand : Nat) : Number :=
  if negative then
    if significand = 0 ∨ signedLimit < significand then .float (-(Float.ofNat significand))
    else .integer (-significand)
  else .integer significand

/-! ## Exponents -/

/-- The greatest exponent that is read as a number. -/
def exponentLimit : Nat := 2147483647

/-- The digits of an exponent. -/
inductive ExponentDigits where
  /-- The value and what is left behind the digits. -/
  | value (exponent : Nat) (rest : List Char)
  /-- The exponent grew over the limit; `rest` is left behind the digit that did it. -/
  | beyond (rest : List Char)

/-- Reads the remaining digits of an exponent. -/
def exponentDigits (exponent : Nat) : List Char → ExponentDigits
  | [] => .value exponent []
  | c :: rest =>
    if isDigit c then
      let next := exponent * 10 + digitValue c
      if exponentLimit < next then .beyond rest else exponentDigits next rest
    else .value exponent (c :: rest)

/-- Takes the sign of an exponent. -/
def exponentSign : List Char → Bool × List Char
  | '+' :: rest => (false, rest)
  | '-' :: rest => (true, rest)
  | s => (false, s)

/-- Reads an exponent behind its mark and builds the number. An exponent over the limit makes
the value zero, unless it is positive and the significand is not zero. -/
def exponentPart (negative : Bool) (significand : Nat) (start : Int) (s : List Char) :
    Except Fault (Number × List Char) :=
  let (down, digits) := exponentSign s
  match digits with
  | [] => .error (.here .endInValue [])
  | c :: rest =>
    if isDigit c then
      match exponentDigits (digitValue c) rest with
      | .value exponent rest' => do
        let exponent := if down then start - exponent else start + exponent
        return (← scaledNumber negative significand exponent rest', rest')
      | .beyond rest' =>
        if significand ≠ 0 ∧ down = false then .error (.here .numberOutOfRange rest')
        else .ok (.float (withSign negative 0), rest'.dropWhile isDigit)
    else .error (.past .invalidNumber (c :: rest))

/-! ## Numerals -/

/-- Whether a character starts an exponent. -/
def isExponentMark (c : Char) : Bool :=
  c = 'e' || c = 'E'

/-- What may follow the digits of a numeral: an exponent, or its end. -/
def exponentOrEnd (negative : Bool) (significand : Nat) (exponent : Int) (s : List Char) :
    Except Fault (Number × List Char) :=
  match s with
  | [] => return (← scaledNumber negative significand exponent [], [])
  | c :: rest =>
    if isExponentMark c then exponentPart negative significand exponent rest
    else return (← scaledNumber negative significand exponent s, s)

/-- Reads a fraction behind its point. -/
def fractionPart (negative : Bool) (significand : Nat) (exponent : Int) (s : List Char) :
    Except Fault (Number × List Char) :=
  match s.takeWhile isDigit with
  | [] => .error (.past (if s = [] then .endInValue else .invalidNumber) s)
  | c :: more =>
    let read := absorb significand (c :: more)
    exponentOrEnd negative read.significand (exponent - read.taken) (s.dropWhile isDigit)

/-- Reads a numeral whose whole part has the given digits. -/
def numeralRest (negative : Bool) (digits rest : List Char) : Except Fault (Number × List Char) :=
  let read := absorb 0 digits
  match rest with
  | '.' :: rest' => fractionPart negative read.significand read.refused rest'
  | _ =>
    if read.refused = 0 ∧ !(rest.head?.any isExponentMark) then
      .ok (wholeNumber negative read.significand, rest)
    else exponentOrEnd negative read.significand read.refused rest

/-- Reads a numeral behind its sign. A leading zero is the whole part by itself. -/
def numeral (negative : Bool) (s : List Char) : Except Fault (Number × List Char) :=
  match s with
  | [] => .error (.here .endInValue [])
  | c :: rest =>
    if c = '0' then
      if rest.head?.any isDigit then .error (.past .invalidNumber rest)
      else numeralRest negative [c] rest
    else if isDigit c then
      numeralRest negative (c :: rest.takeWhile isDigit) (rest.dropWhile isDigit)
    else .error (.past .invalidNumber (c :: rest))

/-! ## Progress -/

theorem length_dropWhile_isDigit_le (s : List Char) : (s.dropWhile isDigit).length ≤ s.length :=
  (List.dropWhile_sublist isDigit).length_le

theorem length_exponentSign_le (s : List Char) : (exponentSign s).2.length ≤ s.length := by
  unfold exponentSign
  split <;> simp

theorem length_exponentDigits_le (exponent : Nat) (s : List Char) :
    match exponentDigits exponent s with
    | .value _ rest => rest.length ≤ s.length
    | .beyond rest => rest.length ≤ s.length := by
  induction s generalizing exponent with
  | nil => simp [exponentDigits]
  | cons c rest ih =>
    rw [exponentDigits]
    by_cases hc : isDigit c = true
    · simp only [hc, if_true]
      by_cases hl : exponentLimit < exponent * 10 + digitValue c
      · simp [hl]
      · simp only [hl, if_false]
        have h := ih (exponent * 10 + digitValue c)
        split <;> rename_i heq <;> rw [heq] at h <;> simp only [List.length_cons] <;> omega
    · simp [hc]

theorem scaledNumber_bind_rest {negative : Bool} {significand : Nat} {exponent : Int}
    {rest rest' : List Char} {n : Number}
    (h : (do return (← scaledNumber negative significand exponent rest, rest) :
      Except Fault (Number × List Char)) = .ok (n, rest')) : rest' = rest := by
  cases hs : scaledNumber negative significand exponent rest with
  | error fault => rw [hs] at h; simp [bind, Except.bind] at h
  | ok value =>
    rw [hs] at h
    simp only [bind, Except.bind, pure, Except.pure, Except.ok.injEq, Prod.mk.injEq] at h
    exact h.2.symm

theorem length_exponentPart_le {negative : Bool} {significand : Nat} {start : Int}
    {s rest : List Char} {n : Number}
    (h : exponentPart negative significand start s = .ok (n, rest)) :
    rest.length ≤ s.length := by
  unfold exponentPart at h
  have hsign := length_exponentSign_le s
  generalize exponentSign s = signed at h hsign
  obtain ⟨down, digits⟩ := signed
  cases digits with
  | nil => simp at h
  | cons c more =>
    have hdigits := length_exponentDigits_le (digitValue c) more
    simp only [List.length_cons] at hsign
    by_cases hc : isDigit c = true
    · simp only [hc, if_true] at h
      cases hd : exponentDigits (digitValue c) more with
      | value exponent rest' =>
        rw [hd] at h hdigits
        have := scaledNumber_bind_rest h
        subst this
        simp only at hdigits
        omega
      | beyond rest' =>
        rw [hd] at h hdigits
        simp only at h hdigits
        split at h
        · simp at h
        · simp only [Except.ok.injEq, Prod.mk.injEq] at h
          have := length_dropWhile_isDigit_le rest'
          rw [← h.2]
          omega
    · simp [hc] at h

theorem length_exponentOrEnd_le {negative : Bool} {significand : Nat} {exponent : Int}
    {s rest : List Char} {n : Number}
    (h : exponentOrEnd negative significand exponent s = .ok (n, rest)) :
    rest.length ≤ s.length := by
  unfold exponentOrEnd at h
  split at h
  · have := scaledNumber_bind_rest h
    simp [this]
  · rename_i c more
    split at h
    · have := length_exponentPart_le h
      simp only [List.length_cons]
      omega
    · have := scaledNumber_bind_rest h
      simp [this]

theorem length_fractionPart_le {negative : Bool} {significand : Nat} {exponent : Int}
    {s rest : List Char} {n : Number}
    (h : fractionPart negative significand exponent s = .ok (n, rest)) :
    rest.length ≤ s.length := by
  unfold fractionPart at h
  split at h
  · simp at h
  · have h₁ := length_exponentOrEnd_le h
    have h₂ := length_dropWhile_isDigit_le s
    omega

theorem length_numeralRest_le {negative : Bool} {digits s rest : List Char} {n : Number}
    (h : numeralRest negative digits s = .ok (n, rest)) : rest.length ≤ s.length := by
  simp only [numeralRest] at h
  split at h
  · have := length_fractionPart_le h
    simp only [List.length_cons]
    omega
  · split at h
    · simp only [Except.ok.injEq, Prod.mk.injEq] at h
      exact Nat.le_of_eq (congrArg List.length h.2.symm)
    · exact length_exponentOrEnd_le h

/-- **A numeral takes at least one digit.** -/
theorem length_numeral_lt {negative : Bool} {s rest : List Char} {n : Number}
    (h : numeral negative s = .ok (n, rest)) : rest.length < s.length := by
  unfold numeral at h
  split at h
  · simp at h
  · rename_i c more
    split at h
    · split at h
      · simp at h
      · have := length_numeralRest_le h
        simp only [List.length_cons]
        omega
    · split at h
      · have h₁ := length_numeralRest_le h
        have h₂ := length_dropWhile_isDigit_le more
        simp only [List.length_cons]
        omega
      · simp at h

/-- Reads a numeral behind its sign, with the proof that it takes something. -/
def readNumeral (negative : Bool) : Reader Number := fun s =>
  match h : numeral negative s with
  | .error fault => .error fault
  | .ok (n, rest) => .ok (n, ⟨rest, length_numeral_lt h⟩)

end SchemaHeader.Json

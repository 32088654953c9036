import SchemaHeader.Text.Code

set_option autoImplicit false

/-! # Texts for a terminal

A terminal takes some control characters for commands: to ring, to go back, to start a sequence
that moves the cursor or changes colours. In a text that is only to be read, **these are written by
their codes**; tabs and line ends stay.
-/

namespace SchemaHeader.Text

/-- The control characters of ASCII that can do harm: the bell, going back, the page end, the start
of a sequence, and deletion. -/
def terminalCommands : List Char :=
  ['\x07', '\x08', '\x0c', '\x1b', '\x7f']

/-- Whether a character is one of the control characters above ASCII. -/
def isUpperControl (c : Char) : Bool :=
  decide (0x80 ≤ c.toNat) && decide (c.toNat ≤ 0x9F)

/-- How a character is shown on a terminal. -/
def terminalChar (c : Char) : List Char :=
  if c ∈ terminalCommands then twoDigitCode c
  else if isUpperControl c then bracedCode c
  else [c]

/-- A text with all that a terminal would act on written by codes. -/
def forTerminal (text : String) : String :=
  String.ofList (text.toList.flatMap terminalChar)

end SchemaHeader.Text

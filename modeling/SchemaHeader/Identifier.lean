set_option autoImplicit false

/-! # Identifiers of the generated code

A name reaches the header as it is written, so it has to be an identifier of C++ that the
program may use: letters, digits and underscores, not starting with a digit, no keyword, and
none of the names that belong to the implementation.
-/

namespace SchemaHeader

namespace Identifier

/-- The keywords of C++, alternative tokens included. -/
def keywords : List String :=
  ["alignas", "alignof", "and", "and_eq", "asm", "auto", "bitand", "bitor", "bool", "break",
   "case", "catch", "char", "char8_t", "char16_t", "char32_t", "class", "compl", "concept",
   "const", "consteval", "constexpr", "constinit", "const_cast", "continue", "co_await",
   "co_return", "co_yield", "decltype", "default", "delete", "do", "double", "dynamic_cast",
   "else", "enum", "explicit", "export", "extern", "false", "float", "for", "friend", "goto",
   "if", "inline", "int", "long", "mutable", "namespace", "new", "noexcept", "not", "not_eq",
   "nullptr", "operator", "or", "or_eq", "private", "protected", "public", "register",
   "reinterpret_cast", "requires", "return", "short", "signed", "sizeof", "static",
   "static_assert", "static_cast", "struct", "switch", "template", "this", "thread_local",
   "throw", "true", "try", "typedef", "typeid", "typename", "union", "unsigned", "using",
   "virtual", "void", "volatile", "wchar_t", "while", "xor", "xor_eq"]

/-- Why a name cannot be used. -/
inductive Fault where
  | notAnIdentifier
  | keyword
  | reserved
  deriving DecidableEq, Repr

/-- The wording of a fault. -/
def Fault.reason : Fault → String
  | .notAnIdentifier => "not an identifier"
  | .keyword => "reserved keyword"
  | .reserved => "reserved for the implementation"

/-- An ASCII letter in upper case. -/
def isCapital (c : Char) : Bool :=
  decide ('A' ≤ c) && decide (c ≤ 'Z')

/-- What an identifier may start with. -/
def isStart (c : Char) : Bool :=
  isCapital c || (decide ('a' ≤ c) && decide (c ≤ 'z')) || c == '_'

/-- What an identifier may go on with. -/
def isContinue (c : Char) : Bool :=
  isStart c || (decide ('0' ≤ c) && decide (c ≤ '9'))

/-- Whether characters form an identifier. -/
def wellFormed : List Char → Bool
  | [] => false
  | c :: rest => isStart c && rest.all isContinue

/-- Whether two underscores stand side by side. -/
def hasDoubleUnderscore : List Char → Bool
  | '_' :: '_' :: _ => true
  | _ :: rest => hasDoubleUnderscore rest
  | [] => false

/-- Whether a name starts with an underscore and a capital letter. -/
def startsReserved : List Char → Bool
  | '_' :: c :: _ => isCapital c
  | _ => false

/-- **Why a name cannot be used, if it cannot.** The first fault that applies is given. -/
def fault? (name : String) : Option Fault :=
  if !wellFormed name.toList then some .notAnIdentifier
  else if keywords.contains name then some .keyword
  else if startsReserved name.toList || hasDoubleUnderscore name.toList then some .reserved
  else none

end Identifier

end SchemaHeader

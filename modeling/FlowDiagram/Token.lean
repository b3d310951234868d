import FlowDiagram.Text.Span

/-!
# Tokens

The words of the diagram language: reserved words and signs, whose text is fixed, and the two
classes with a text of their own, numbers and identifiers.  A lexeme is a token where it stands in
a source.
-/

namespace FlowDiagram

/-- Words and signs with a fixed text. -/
inductive Reserved where
  | define | use | as | link
  | arrow | join | split | plus | minus | star
  | equals | bar | openAngle | closeAngle | openBracket | closeBracket | openBrace | closeBrace
  | comma | dot
  deriving DecidableEq

/-- The text of a reserved word or sign. -/
def Reserved.text : Reserved → String
  | .define => "def"
  | .use => "use"
  | .as => "as"
  | .link => "link"
  | .arrow => ">->"
  | .join => "><"
  | .split => "<>"
  | .plus => "+"
  | .minus => "-"
  | .star => "*"
  | .equals => "="
  | .bar => "|"
  | .openAngle => "<"
  | .closeAngle => ">"
  | .openBracket => "["
  | .closeBracket => "]"
  | .openBrace => "\x7b"
  | .closeBrace => "\x7d"
  | .comma => ","
  | .dot => "."

inductive Token where
  | reserved (word : Reserved)
  | number (value : UInt32)
  | ident (name : String)
  deriving DecidableEq

/-- How a message names a token: identifiers are named by their class alone. -/
def Token.describe : Token → String
  | .reserved word => word.text
  | .number value => toString value.toNat
  | .ident _ => "<ident>"

/-- A token and the bytes of the source it takes. -/
structure Lexeme where
  token : Token
  span : Span
  deriving DecidableEq

/-! ## Character classes -/

/-- Characters that only separate tokens. -/
def isBlank (c : Char) : Bool :=
  c == ' ' || c == '\t' || c == '\r' || c == '\n' || c == '\x0c'

/-- The digits `0` to `9`. -/
def isDigit (c : Char) : Bool :=
  '0' ≤ c && c ≤ '9'

/-- Letters `a` to `z` in both cases, and the underscore. -/
def isIdentStart (c : Char) : Bool :=
  ('a' ≤ c && c ≤ 'z') || ('A' ≤ c && c ≤ 'Z') || c == '_'

/-- What may follow the first character of an identifier. -/
def isIdentPart (c : Char) : Bool :=
  isIdentStart c || isDigit c

/-- The reserved word with this text, if any. -/
def Reserved.ofWord? (word : String) : Option Reserved :=
  if word = "def" then some .define
  else if word = "use" then some .use
  else if word = "as" then some .as
  else if word = "link" then some .link
  else none

/-- A text that reads as an identifier, and not as a reserved word. -/
def IsIdentName (name : String) : Prop :=
  (∃ c rest, name.toList = c :: rest ∧ isIdentStart c ∧ ∀ d ∈ rest, isIdentPart d) ∧
    Reserved.ofWord? name = none

end FlowDiagram

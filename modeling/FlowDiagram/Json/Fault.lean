import FlowDiagram.Text.Span

/-!
# Faults of JSON texts

A fault says what is wrong with a text, and how many of its bytes were still unread when that was
found.
-/

namespace FlowDiagram.Json

/-- What can be wrong with a text that should hold a value of some form. -/
inductive Problem where
  | endInList
  | endInObject
  | endInString
  | endInValue
  | expectedColon
  | expectedCommaOrBracket
  | expectedCommaOrBrace
  | expectedWord
  | expectedValue
  | invalidEscape
  | invalidNumber
  | numberOutOfRange
  | controlInString
  | keyNotAString
  | loneSurrogate
  | unfinishedSurrogate
  | trailingComma
  | trailingCharacters
  | invalidType (found expected : String)
  | invalidValue (found expected : String)
  | invalidLength (length : Nat) (expected : String)
  | missingField (name : String)
  | duplicateField (name : String)
  deriving DecidableEq

def Problem.message : Problem → String
  | .endInList => "EOF while parsing a list"
  | .endInObject => "EOF while parsing an object"
  | .endInString => "EOF while parsing a string"
  | .endInValue => "EOF while parsing a value"
  | .expectedColon => "expected `:`"
  | .expectedCommaOrBracket => "expected `,` or `]`"
  | .expectedCommaOrBrace => "expected `,` or `\x7d`"
  | .expectedWord => "expected ident"
  | .expectedValue => "expected value"
  | .invalidEscape => "invalid escape"
  | .invalidNumber => "invalid number"
  | .numberOutOfRange => "number out of range"
  | .controlInString =>
    "control character (\\u0000-\\u001F) found while parsing a string"
  | .keyNotAString => "key must be a string"
  | .loneSurrogate => "lone leading surrogate in hex escape"
  | .unfinishedSurrogate => "unexpected end of hex escape"
  | .trailingComma => "trailing comma"
  | .trailingCharacters => "trailing characters"
  | .invalidType found expected => "invalid type: " ++ found ++ ", expected " ++ expected
  | .invalidValue found expected => "invalid value: " ++ found ++ ", expected " ++ expected
  | .invalidLength length expected =>
    "invalid length " ++ toString length ++ ", expected " ++ expected
  | .missingField name => "missing field `" ++ name ++ "`"
  | .duplicateField name => "duplicate field `" ++ name ++ "`"

structure Fault where
  problem : Problem
  /-- How many bytes were unread. -/
  unread : Nat
  deriving DecidableEq

/-- A fault at a place in a text, before the bytes given. -/
def Fault.before (problem : Problem) (rest : List Char) : Fault :=
  ⟨problem, byteLength rest⟩

/-- A fault found by looking at the next byte of a text, if there is one. -/
def Fault.at (problem : Problem) (rest : List Char) : Fault :=
  ⟨problem, byteLength rest - 1⟩

/-- The line of a byte offset, and how many bytes of the line precede it. -/
def lineAndColumn (line column : Nat) : List Char → Nat → Nat × Nat
  | [], _ => (line, column)
  | c :: rest, offset =>
    if offset < c.utf8Size then (line, column + offset)
    else if c = '\n' then lineAndColumn (line + 1) 0 rest (offset - 1)
    else lineAndColumn line (column + c.utf8Size) rest (offset - c.utf8Size)

/-- What is wrong with a text, and where. -/
def Fault.message (fault : Fault) (text : List Char) : String :=
  let (line, column) := lineAndColumn 1 0 text (byteLength text - fault.unread)
  fault.problem.message ++ " at line " ++ toString line ++ " column " ++ toString column

end FlowDiagram.Json

import FlowDiagram.Json.Numeral
import FlowDiagram.Uuid

/-!
# Lexemes of JSON texts

A JSON text is cut into punctuation, words, numbers and strings.  A value that is only passed over
may break rules that a value to be read must keep: its numbers may be out of range and its strings
may hold halves of surrogate pairs.  So numbers and strings carry both outcomes.
-/

namespace FlowDiagram.Json

inductive Token where
  | openList
  | closeList
  | openObject
  | closeObject
  | comma
  | colon
  | null
  | bool (value : Bool)
  /-- A misspelt word. -/
  | badWord (fault : Fault)
  | number (reading : Except Fault Numeral) (passing : Except Fault Unit)
  | string (reading : Except Fault String) (passing : Except Fault Unit)
  /-- A character that starts no token. -/
  | stray

/-- A token, with the numbers of bytes unread before and after it. -/
structure Lexeme where
  token : Token
  before : Nat
  after : Nat

/-! ## Strings -/

/-- The character that a letter after a backslash stands for. -/
def simpleEscape? : Char → Option Char
  | '"' => some '"'
  | '\\' => some '\\'
  | '/' => some '/'
  | 'b' => some '\x08'
  | 'f' => some '\x0c'
  | 'n' => some '\n'
  | 'r' => some '\r'
  | 't' => some '\t'
  | _ => none

/-- The number that four hexadecimal digits stand for. -/
def codeUnit? (a b c d : Char) : Option Nat := do
  return (((← Uuid.digitValue? a) * 16 + (← Uuid.digitValue? b)) * 16 + (← Uuid.digitValue? c)) *
    16 + (← Uuid.digitValue? d)

/-- The fault of a text that should start with four hexadecimal digits. -/
def codeUnitFault (rest : List Char) : Fault :=
  if byteLength rest < 4 then ⟨.endInString, 0⟩ else ⟨.invalidEscape, byteLength rest - 4⟩

def isLead (unit : Nat) : Bool := 0xd800 ≤ unit && unit ≤ 0xdbff

def isTrail (unit : Nat) : Bool := 0xdc00 ≤ unit && unit ≤ 0xdfff

/-- Pass over the rest of a string; how many characters it takes. -/
def passString (taken : Nat) : List Char → Except Fault Nat
  | [] => .error ⟨.endInString, 0⟩
  | '"' :: _ => .ok (taken + 1)
  | ['\\'] => .error ⟨.endInString, 0⟩
  | '\\' :: 'u' :: a :: b :: c :: d :: rest =>
    if (codeUnit? a b c d).isSome then passString (taken + 6) rest
    else .error (codeUnitFault (a :: b :: c :: d :: rest))
  | '\\' :: 'u' :: rest => .error (codeUnitFault rest)
  | '\\' :: c :: rest =>
    if (simpleEscape? c).isSome then passString (taken + 2) rest
    else .error (.at .invalidEscape (c :: rest))
  | c :: rest =>
    if c.toNat < 32 then .error (.before .controlInString (c :: rest))
    else passString (taken + 1) rest

/--
Read the rest of a string after the characters `read`, the last of them first.  After the first half
of a surrogate pair, `lead`, the second half must follow.
-/
def readString (read : List Char) : Option Nat → List Char → Except Fault String
  | _, [] => .error ⟨.endInString, 0⟩
  | _, ['\\'] => .error ⟨.endInString, 0⟩
  | some lead, '\\' :: 'u' :: a :: b :: c :: d :: rest =>
    match codeUnit? a b c d with
    | none => .error (codeUnitFault (a :: b :: c :: d :: rest))
    | some trail =>
      if isTrail trail then
        readString (Char.ofNat (0x10000 + 0x400 * (lead - 0xd800) + (trail - 0xdc00)) :: read) none
          rest
      else .error (.before .loneSurrogate rest)
  | some _, '\\' :: 'u' :: rest => .error (codeUnitFault rest)
  | some _, '\\' :: rest => .error (.at .unfinishedSurrogate rest)
  | some _, rest => .error (.at .unfinishedSurrogate rest)
  | none, '"' :: _ => .ok (String.ofList read.reverse)
  | none, '\\' :: 'u' :: a :: b :: c :: d :: rest =>
    match codeUnit? a b c d with
    | none => .error (codeUnitFault (a :: b :: c :: d :: rest))
    | some unit =>
      if isTrail unit then .error (.before .loneSurrogate rest)
      else if isLead unit then readString read (some unit) rest
      else readString (Char.ofNat unit :: read) none rest
  | none, '\\' :: 'u' :: rest => .error (codeUnitFault rest)
  | none, '\\' :: c :: rest =>
    match simpleEscape? c with
    | some meant => readString (meant :: read) none rest
    | none => .error (.at .invalidEscape (c :: rest))
  | none, c :: rest =>
    if c.toNat < 32 then .error (.before .controlInString rest)
    else readString (c :: read) none rest

/-- The string after its opening quote; how many characters it takes. -/
def scanString (rest : List Char) : Token × Nat :=
  match passString 0 rest with
  | .ok taken => (.string (readString [] none rest) (.ok ()), taken)
  | .error fault => (.string (readString [] none rest) (.error fault), rest.length)

/-! ## Words and numbers -/

/-- The fault of a text that should go on with the given letters, if it does not. -/
def wordFault? : List Char → List Char → Option Fault
  | [], _ => none
  | _ :: _, [] => some ⟨.endInValue, 0⟩
  | letter :: letters, c :: rest =>
    if c = letter then wordFault? letters rest else some (.at .expectedWord (c :: rest))

def scanWord (token : Token) (letters : List Char) (rest : List Char) : Token × Nat :=
  match wordFault? letters rest with
  | none => (token, letters.length)
  | some fault => (.badWord fault, rest.length)

/--
The number that a text starts with after its sign; how many characters it takes.  A number that
ends too early is a fault of the value if it is read, and of the number if it is passed over.
-/
def scanNumber (negative : Bool) (text : List Char) : Token × Nat :=
  match WrittenNumber.scan negative text with
  | .ok written =>
    let outOfRange (unread : Nat) : Fault :=
      ⟨.numberOutOfRange, unread + byteLength (text.drop written.length)⟩
    (.number (written.value.mapError outOfRange) (.ok ()), written.length)
  | .error rest =>
    let reading := if rest.isEmpty then ⟨.endInValue, 0⟩ else Fault.at .invalidNumber rest
    (.number (.error reading) (.error (.at .invalidNumber rest)), text.length)

/-! ## All lexemes -/

def isJsonBlank (c : Char) : Bool := c = ' ' || c = '\n' || c = '\t' || c = '\r'

/-- The token that starts with a character; how many more characters it takes. -/
def scanToken (c : Char) (rest : List Char) : Token × Nat :=
  match c with
  | '[' => (.openList, 0)
  | ']' => (.closeList, 0)
  | '\x7b' => (.openObject, 0)
  | '\x7d' => (.closeObject, 0)
  | ',' => (.comma, 0)
  | ':' => (.colon, 0)
  | 'n' => scanWord .null ['u', 'l', 'l'] rest
  | 't' => scanWord (.bool true) ['r', 'u', 'e'] rest
  | 'f' => scanWord (.bool false) ['a', 'l', 's', 'e'] rest
  | '"' => scanString rest
  | '-' => scanNumber true rest
  | c =>
    if c.isDigit then
      let (token, taken) := scanNumber false (c :: rest)
      (token, taken - 1)
    else (.stray, 0)

/-- The lexemes of a text of which `unread` bytes are left. -/
def lexemesFrom (unread : Nat) : List Char → List Lexeme
  | [] => []
  | c :: rest =>
    if isJsonBlank c then lexemesFrom (unread - 1) rest
    else
      let (token, taken) := scanToken c rest
      let after := unread - byteLength (c :: rest.take taken)
      ⟨token, unread, after⟩ :: lexemesFrom after (rest.drop taken)
termination_by text => text.length

def lexemes (text : List Char) : List Lexeme := lexemesFrom (byteLength text) text

end FlowDiagram.Json

import FlowDiagram.Json.Lexeme

/-!
# Passing over values

A value that nobody asks for is passed over lexeme by lexeme, however deeply it is nested.
-/

namespace FlowDiagram.Json

/-- A list or an object whose end is still to come. -/
inductive Enclosure where
  | list
  | object
  deriving DecidableEq

/-- What the next lexeme should be. -/
inductive Awaited where
  | value
  /-- The first item of the innermost enclosure, or its end. -/
  | first
  /-- A comma, or the end of the innermost enclosure. -/
  | next
  | key
  | colon

/-- Where one stands within a value; the enclosures are open, the innermost first. -/
structure Passage where
  awaited : Awaited
  enclosures : List Enclosure

/-- The fault of a text that ends where something is awaited. -/
def Passage.cutShort (passage : Passage) : Fault :=
  match passage.awaited, passage.enclosures with
  | .value, _ => ⟨.endInValue, 0⟩
  | _, .list :: _ => ⟨.endInList, 0⟩
  | _, _ => ⟨.endInObject, 0⟩

/-- A fault found by looking at a lexeme. -/
def Lexeme.fault (lexeme : Lexeme) (problem : Problem) : Fault :=
  ⟨problem, lexeme.before - 1⟩

/-- Where one stands after a value; nowhere, if it was the whole. -/
def Passage.closed (enclosures : List Enclosure) : Option Passage :=
  if enclosures.isEmpty then none else some ⟨.next, enclosures⟩

/-- A lexeme where a value is awaited. -/
def Passage.value (enclosures : List Enclosure) (lexeme : Lexeme) :
    Except Fault (Option Passage) :=
  match lexeme.token with
  | .null => .ok (closed enclosures)
  | .bool _ => .ok (closed enclosures)
  | .badWord fault => .error fault
  | .number _ passing => passing.map fun () => closed enclosures
  | .string _ passing => passing.map fun () => closed enclosures
  | .openList => .ok (some ⟨.first, .list :: enclosures⟩)
  | .openObject => .ok (some ⟨.first, .object :: enclosures⟩)
  | _ => .error (lexeme.fault .expectedValue)

/-- A lexeme where a key is awaited. -/
def Passage.key (enclosures : List Enclosure) (lexeme : Lexeme) : Except Fault (Option Passage) :=
  match lexeme.token with
  | .string _ passing => passing.map fun () => some ⟨.colon, enclosures⟩
  | _ => .error (lexeme.fault .keyNotAString)

/-- Where one stands after a lexeme; nowhere, if it was the last. -/
def Passage.step (passage : Passage) (lexeme : Lexeme) : Except Fault (Option Passage) :=
  match passage.awaited, passage.enclosures with
  | .value, enclosures => value enclosures lexeme
  | .key, enclosures => key enclosures lexeme
  | .colon, enclosures =>
    match lexeme.token with
    | .colon => .ok (some ⟨.value, enclosures⟩)
    | _ => .error (lexeme.fault .expectedColon)
  | .first, .list :: outer =>
    match lexeme.token with
    | .closeList => .ok (closed outer)
    | _ => value (.list :: outer) lexeme
  | .first, .object :: outer =>
    match lexeme.token with
    | .closeObject => .ok (closed outer)
    | _ => key (.object :: outer) lexeme
  | .next, .list :: outer =>
    match lexeme.token with
    | .closeList => .ok (closed outer)
    | .comma => .ok (some ⟨.value, .list :: outer⟩)
    | _ => .error (lexeme.fault .expectedCommaOrBracket)
  | .next, .object :: outer =>
    match lexeme.token with
    | .closeObject => .ok (closed outer)
    | .comma => .ok (some ⟨.key, .object :: outer⟩)
    | _ => .error (lexeme.fault .expectedCommaOrBrace)
  | _, [] => value [] lexeme

/-- Pass over what is left of a value; the lexemes after it. -/
def Passage.run (passage : Passage) : List Lexeme → Except Fault (List Lexeme)
  | [] => .error passage.cutShort
  | lexeme :: rest =>
    match passage.step lexeme with
    | .error fault => .error fault
    | .ok none => .ok rest
    | .ok (some passage) => passage.run rest

/-- Pass over a value. -/
def passOver (lexemes : List Lexeme) : Except Fault (List Lexeme) :=
  Passage.run ⟨.value, []⟩ lexemes

end FlowDiagram.Json

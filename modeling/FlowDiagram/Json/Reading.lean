import FlowDiagram.Json.Passing
import FlowDiagram.Text.Escaped
import FlowDiagram.Text.Numeral

/-!
# Reading values of a known form

A reader takes the lexemes of a value off the front of a list of lexemes.  What it returns says that
it has taken at least one, so that readers can be repeated.
-/

namespace FlowDiagram.Json

/-- Lexemes left of a list from which some were taken. -/
abbrev Shorter (lexemes : List Lexeme) := { rest : List Lexeme // rest.length < lexemes.length }

/-- A value read from the front of a list of lexemes. -/
abbrev Reading (α : Type) (lexemes : List Lexeme) := Except Fault (α × Shorter lexemes)

/-- What is left after one lexeme. -/
def Shorter.tail (lexeme : Lexeme) (rest : List Lexeme) : Shorter (lexeme :: rest) :=
  ⟨rest, Nat.lt_succ_self _⟩

/-- Take one lexeme. -/
def Reading.one {α : Type} (value : α) (lexeme : Lexeme) (rest : List Lexeme) :
    Reading α (lexeme :: rest) :=
  .ok (value, .tail lexeme rest)

/-- The fault of a value that is not of the form expected. -/
def unexpected (expected : String) : List Lexeme → Fault
  | [] => ⟨.endInValue, 0⟩
  | lexeme :: _ =>
    let complaint (found : String) : Fault := ⟨.invalidType found expected, lexeme.after⟩
    match lexeme.token with
    | .null => complaint "null"
    | .bool value => complaint (if value then "boolean `true`" else "boolean `false`")
    | .badWord fault => fault
    | .number (.ok numeral) _ => complaint numeral.describe
    | .number (.error fault) _ => fault
    | .string (.ok text) _ => complaint ("string " ++ Text.quoted text)
    | .string (.error fault) _ => fault
    | .openList => ⟨.invalidType "sequence" expected, lexeme.before⟩
    | .openObject => ⟨.invalidType "map" expected, lexeme.before⟩
    | _ => lexeme.fault .expectedValue

/-! ## Plain values -/

def readText : (lexemes : List Lexeme) → Reading String lexemes
  | ⟨.string (.ok text) p, before, after⟩ :: rest =>
    .one text ⟨.string (.ok text) p, before, after⟩ rest
  | lexemes => .error (unexpected "a string" lexemes)

def readFlag : (lexemes : List Lexeme) → Reading Bool lexemes
  | ⟨.bool value, before, after⟩ :: rest => .one value ⟨.bool value, before, after⟩ rest
  | lexemes => .error (unexpected "a boolean" lexemes)

/-- Read a natural number that fits into a machine word. -/
def readSize : (lexemes : List Lexeme) → Reading Nat lexemes
  | ⟨.number (.ok (.natural value)) p, before, after⟩ :: rest =>
    .one value ⟨.number (.ok (.natural value)) p, before, after⟩ rest
  | ⟨.number (.ok (.negative value)) _, _, after⟩ :: _ =>
    .error ⟨.invalidValue (Numeral.negative value).describe "usize", after⟩
  | lexemes => .error (unexpected "usize" lexemes)

/-- Read a value that may be null. -/
def readNullable {α : Type} (read : (lexemes : List Lexeme) → Reading α lexemes) :
    (lexemes : List Lexeme) → Reading (Option α) lexemes
  | ⟨.null, before, after⟩ :: rest => .one none ⟨.null, before, after⟩ rest
  | lexemes => (read lexemes).map fun (value, rest) => (some value, rest)

/-! ## Lists -/

/-- What a list goes on with: its end, or an item that starts with the lexemes given. -/
inductive NextItem (lexemes : List Lexeme) where
  | closed (unread : Nat) (rest : Shorter lexemes)
  | item (items : { rest : List Lexeme // rest.length ≤ lexemes.length })

/-- Look for the first item of a list, or for one after a comma. -/
def nextItem (first : Bool) (lexemes : List Lexeme) : Except Fault (NextItem lexemes) :=
  match lexemes with
  | [] => .error ⟨.endInList, 0⟩
  | lexeme :: rest =>
    match lexeme.token, first with
    | .closeList, _ => .ok (.closed lexeme.after (.tail lexeme rest))
    | _, true => .ok (.item ⟨lexeme :: rest, Nat.le_refl _⟩)
    | .comma, false =>
      match rest with
      | [] => .error ⟨.endInValue, 0⟩
      | item :: more =>
        match item.token with
        | .closeList => .error (item.fault .trailingComma)
        | _ => .ok (.item ⟨item :: more, Nat.le_succ _⟩)
    | _, false => .error (lexeme.fault .expectedCommaOrBracket)

/-- Read the rest of a list of texts after those already read, the last of them first. -/
def readItems (read : List String) (lexemes : List Lexeme) : Reading (List String) lexemes :=
  match nextItem read.isEmpty lexemes with
  | .error fault => .error fault
  | .ok (.closed _ rest) => .ok (read.reverse, rest)
  | .ok (.item ⟨items, _⟩) =>
    match readText items with
    | .error fault => .error fault
    | .ok (item, ⟨rest, _⟩) =>
      (readItems (item :: read) rest).map fun (texts, ⟨rest, _⟩) => (texts, ⟨rest, by omega⟩)
termination_by lexemes.length
decreasing_by omega

/-- Read a list of texts. -/
def readTexts : (lexemes : List Lexeme) → Reading (List String) lexemes
  | ⟨.openList, _, _⟩ :: rest =>
    (readItems [] rest).map fun (texts, ⟨rest, _⟩) =>
      (texts, ⟨rest, by simp only [List.length_cons]; omega⟩)
  | lexemes => .error (unexpected "a sequence" lexemes)

end FlowDiagram.Json

import FlowDiagram.Json.Reading

/-!
# Reading records

A record is read into a draft, one field after the other.  It is written as an object, whose other
fields are passed over, or as a list of its fields in order, of which those at the end may be left
out.  A field that must be there can be missing from either.
-/

namespace FlowDiagram.Json

/-- A field of the records that are drafted as `δ`. -/
structure RecordField (δ : Type) where
  name : String
  /-- Whether a record without the field is refused. -/
  mandatory : Bool
  given : δ → Bool
  read : δ → (lexemes : List Lexeme) → Reading δ lexemes

/-- The form of a record. -/
structure RecordForm (δ : Type) where
  name : String
  fields : List (RecordField δ)

namespace RecordForm

variable {δ : Type} (form : RecordForm δ)

/-- What a message calls a record. -/
def describe : String := "struct " ++ form.name

def describeList : String :=
  form.describe ++ " with " ++ toString form.fields.length ++ " elements"

/-! ## Objects -/

/-- What an object goes on with: its end, or a key. -/
inductive NextKey (lexemes : List Lexeme) where
  | closed (unread : Nat) (rest : List Lexeme)
  | key (name : String) (rest : Shorter lexemes)

/-- Look for the first key of an object, or for one after a comma. -/
def nextKey (first : Bool) (lexemes : List Lexeme) : Except Fault (NextKey lexemes) :=
  match lexemes with
  | [] => .error ⟨.endInObject, 0⟩
  | lexeme :: rest =>
    match lexeme.token, first with
    | .closeObject, _ => .ok (.closed lexeme.after rest)
    | .string name _, true => name.map (.key · (.tail lexeme rest))
    | _, true => .error (lexeme.fault .keyNotAString)
    | .comma, false =>
      match rest with
      | [] => .error ⟨.endInValue, 0⟩
      | key :: more =>
        match key.token with
        | .string name _ => name.map (.key · ⟨more, Nat.lt_succ_of_lt (Nat.lt_succ_self _)⟩)
        | .closeObject => .error (key.fault .trailingComma)
        | _ => .error (key.fault .keyNotAString)
    | _, false => .error (lexeme.fault .expectedCommaOrBrace)

/-- Take the colon after a key. -/
def takeColon : (lexemes : List Lexeme) → Except Fault (Shorter lexemes)
  | [] => .error ⟨.endInObject, 0⟩
  | lexeme :: rest =>
    match lexeme.token with
    | .colon => .ok (.tail lexeme rest)
    | _ => .error (lexeme.fault .expectedColon)

/-- The fault of a second field of a name: it is found once the object is left after the key. -/
def repeated (name : String) : List Lexeme → Fault
  | [] => ⟨.duplicateField name, 0⟩
  | lexeme :: _ =>
    match lexeme.token with
    | .closeObject => ⟨.duplicateField name, lexeme.after⟩
    | _ => ⟨.duplicateField name, lexeme.before⟩

theorem length_run_lt (passage : Passage) (lexemes rest : List Lexeme)
    (passed : passage.run lexemes = .ok rest) : rest.length < lexemes.length := by
  induction lexemes generalizing passage with
  | nil => simp [Passage.run] at passed
  | cons lexeme more ih =>
    simp only [Passage.run] at passed
    split at passed
    · simp at passed
    · simp only [Except.ok.injEq] at passed
      simp [passed]
    · exact Nat.lt_succ_of_lt (ih _ passed)

/-- The value of a field that the record does not have. -/
def passField (draft : δ) (lexemes : List Lexeme) : Reading δ lexemes :=
  match found : passOver lexemes with
  | .error fault => .error fault
  | .ok rest => .ok (draft, ⟨rest, length_run_lt _ _ _ found⟩)

/-- Read the value of the named field. -/
def readField (name : String) (draft : δ) (lexemes : List Lexeme) : Reading δ lexemes :=
  match form.fields.find? (·.name = name) with
  | some field => field.read draft lexemes
  | none => passField draft lexemes

/-- Whether a field of the name is there already. -/
def isGiven (name : String) (draft : δ) : Bool :=
  form.fields.any fun field => field.name = name && field.given draft

/-- The first mandatory field that a draft lacks. -/
def missing? (draft : δ) : Option (RecordField δ) :=
  form.fields.find? fun field => field.mandatory && !field.given draft

/-- Read the fields of an object up to its end. -/
def readObject (first : Bool) (draft : δ) (lexemes : List Lexeme) :
    Except Fault (δ × List Lexeme) :=
  match nextKey first lexemes with
  | .error fault => .error fault
  | .ok (.closed unread rest) =>
    match form.missing? draft with
    | some field => .error ⟨.missingField field.name, unread⟩
    | none => .ok (draft, rest)
  | .ok (.key name ⟨afterKey, _⟩) =>
    if form.isGiven name draft then .error (repeated name afterKey)
    else
      match takeColon afterKey with
      | .error fault => .error fault
      | .ok ⟨value, _⟩ =>
        match form.readField name draft value with
        | .error fault => .error fault
        | .ok (draft, ⟨rest, _⟩) => readObject false draft rest
termination_by lexemes.length
decreasing_by omega

/-! ## Lists -/

/-- Close a list that has all its items. -/
def closeList : List Lexeme → Except Fault (List Lexeme)
  | [] => .error ⟨.endInList, 0⟩
  | lexeme :: rest =>
    match lexeme.token, rest with
    | .closeList, _ => .ok rest
    | .comma, [] => .error ⟨.trailingCharacters, 0⟩
    | .comma, after :: _ =>
      match after.token with
      | .closeList => .error (after.fault .trailingComma)
      | _ => .error (after.fault .trailingCharacters)
    | _, _ => .error (lexeme.fault .trailingCharacters)

/-- Read the given fields, the first of them at `place`, as the rest of a list. -/
def readList (place : Nat) : List (RecordField δ) → δ → List Lexeme → Except Fault (δ × List Lexeme)
  | [], draft, lexemes => (closeList lexemes).map fun rest => (draft, rest)
  | field :: fields, draft, lexemes =>
    match nextItem (place = 0) lexemes with
    | .error fault => .error fault
    | .ok (.closed unread ⟨rest, _⟩) =>
      if field.mandatory then .error ⟨.invalidLength place form.describeList, unread⟩
      else .ok (draft, rest)
    | .ok (.item ⟨items, _⟩) =>
      match field.read draft items with
      | .error fault => .error fault
      | .ok (draft, ⟨rest, _⟩) => readList (place + 1) fields draft rest

/-! ## Records -/

/-- Read a record onto an empty draft. -/
def readRecord (empty : δ) : List Lexeme → Except Fault (δ × List Lexeme)
  | ⟨.openObject, _, _⟩ :: rest => form.readObject true empty rest
  | ⟨.openList, _, _⟩ :: rest => form.readList 0 form.fields empty rest
  | lexemes => .error (unexpected form.describe lexemes)

/-- Read a text that holds one record and nothing else. -/
def read (empty : δ) (text : List Char) : Except Fault δ :=
  match form.readRecord empty (lexemes text) with
  | .error fault => .error fault
  | .ok (draft, []) => .ok draft
  | .ok (_, lexeme :: _) => .error (lexeme.fault .trailingCharacters)

end RecordForm

end FlowDiagram.Json

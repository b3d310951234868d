import FlowDiagram.Toml.Table
import FlowDiagram.Toml.Text

/-!
# TOML documents

A document binds keys to texts, integers, arrays and tables, a binding or the header of a table on
each line.  Values of other types and arrays of tables under headers are no part of it.
-/

namespace FlowDiagram.Toml

/-! ## Integers -/

/-- The groups of digits between underscores. -/
def digitGroups (text : List Char) : List (List Char) :=
  text.foldr (fun c groups =>
    match c, groups with
    | '_', groups => [] :: groups
    | c, group :: rest => (c :: group) :: rest
    | c, [] => [[c]]) [[]]

/-- Read digits in a base; an underscore may stand between two of them. -/
def readNatural? (base : Nat) (text : List Char) : Option Nat := do
  let groups := digitGroups text
  if groups.any List.isEmpty then none
  else
    let values ← groups.flatten.mapM fun c => (Uuid.digitValue? c).filter (· < base)
    return values.foldl (fun total digit => base * total + digit) 0

/-- Read a decimal number without a sign; a zero stands alone. -/
def readDecimal? (text : List Char) : Option Nat :=
  if text.head? == some '0' && 1 < text.length then none else readNatural? 10 text

/-- Read an integer that fits into 64 bits. -/
def readInteger? (text : List Char) : Option Int := do
  let value : Int ← match text with
    | '0' :: 'x' :: digits => (readNatural? 16 digits).map Int.ofNat
    | '0' :: 'o' :: digits => (readNatural? 8 digits).map Int.ofNat
    | '0' :: 'b' :: digits => (readNatural? 2 digits).map Int.ofNat
    | '+' :: digits => (readDecimal? digits).map Int.ofNat
    | '-' :: digits => (readDecimal? digits).map fun value => -(value : Int)
    | digits => (readDecimal? digits).map Int.ofNat
  if -9223372036854775808 ≤ value && value < 9223372036854775808 then some value else none

/-! ## Values -/

/-- Whether a value without quotes ends before a character. -/
def endsValue (c : Char) : Bool :=
  isSpace c || c ∈ ['\n', '\r', '#', ',', ']', '\x7d']

/-- Read a key, and what follows it. -/
def readKey? (text : List Char) : Option (String × List Char) :=
  match text.takeWhile isBareKey with
  | [] => (readLine? text).map fun (key, rest) => (String.ofList key, rest)
  | key => some (String.ofList key, text.dropWhile isBareKey)

/-- Read at most `count` keys with dots between them, and what follows them. -/
def readPath? (count : Nat) (text : List Char) : Option (List String × List Char) :=
  match count with
  | 0 => none
  | count + 1 => do
    let (key, rest) ← readKey? text
    match rest.dropWhile isSpace with
    | '.' :: more =>
      let (path, rest) ← readPath? count (more.dropWhile isSpace)
      return (key :: path, rest)
    | _ => return ([key], rest)

/-- Skip blanks, line breaks and comments; `comment` says whether one has begun. -/
def skipGap (comment : Bool) : List Char → List Char
  | [] => []
  | '\n' :: rest => skipGap false rest
  | '\r' :: '\n' :: rest => skipGap false rest
  | c :: rest =>
    if comment then if isPlain c then skipGap true rest else c :: rest
    else if c = '#' then skipGap true rest
    else if isSpace c then skipGap false rest
    else c :: rest

/-- Read a text or an integer, and what follows it. -/
def readScalar? (text : List Char) : Option (Value × List Char) :=
  if text.head? == some '"' || text.head? == some '\'' then
    (readText? text).map fun (value, rest) => (.text (String.ofList value), rest)
  else
    (readInteger? (text.takeWhile (!endsValue ·))).map fun value =>
      (.integer value, text.dropWhile (!endsValue ·))

mutual

/-- Read a value, and what follows it, in at most `steps` steps; each step takes a character. -/
def readValue? (steps : Nat) (text : List Char) : Option (Value × List Char) :=
  match steps, text with
  | 0, _ => none
  | steps + 1, '[' :: rest =>
    (readItems? steps (skipGap false rest)).map fun (items, rest) => (.array items, rest)
  | steps + 1, '\x7b' :: rest =>
    match rest.dropWhile isSpace with
    | '\x7d' :: rest => some (.table .braces [], rest)
    | rest => (readBindings? steps [] rest).map fun (table, rest) => (.table .braces table, rest)
  | _, text => readScalar? text

/-- Read the rest of an array. -/
def readItems? (steps : Nat) (text : List Char) : Option (List Value × List Char) :=
  match steps, text with
  | 0, _ => none
  | _, ']' :: rest => some ([], rest)
  | steps + 1, text => do
    let (item, rest) ← readValue? steps text
    match skipGap false rest with
    | ',' :: rest =>
      let (items, rest) ← readItems? steps (skipGap false rest)
      return (item :: items, rest)
    | ']' :: rest => return ([item], rest)
    | _ => none

/-- Read the rest of a table in braces, which has a binding at least. -/
def readBindings? (steps : Nat) (table : Table) (text : List Char) :
    Option (Table × List Char) :=
  match steps with
  | 0 => none
  | steps + 1 => do
    let (path, rest) ← readPath? text.length text
    match rest.dropWhile isSpace with
    | '=' :: rest =>
      let (value, rest) ← readValue? steps (rest.dropWhile isSpace)
      let table ← table.bind? value path
      match rest.dropWhile isSpace with
      | ',' :: rest => readBindings? steps table (rest.dropWhile isSpace)
      | '\x7d' :: rest => return (table, rest)
      | _ => none
    | _ => none

end

/-! ## Documents -/

/-- What a line says. -/
inductive Statement where
  | header (path : List String)
  | binding (path : List String) (value : Value)

/-- Read the header of a table after its bracket, and what follows it. -/
def readHeader? (text : List Char) : Option (Statement × List Char) := do
  let (path, rest) ← readPath? text.length (text.dropWhile isSpace)
  match rest.dropWhile isSpace with
  | ']' :: rest => return (.header path, rest)
  | _ => none

/-- Read a binding, and what follows it. -/
def readBinding? (text : List Char) : Option (Statement × List Char) := do
  let (path, rest) ← readPath? text.length text
  match rest.dropWhile isSpace with
  | '=' :: rest =>
    let (value, rest) ← readValue? rest.length (rest.dropWhile isSpace)
    return (.binding path value, rest)
  | _ => none

def readStatement? : List Char → Option (Statement × List Char)
  | '[' :: rest => readHeader? rest
  | text => readBinding? text

/-- Go on to the next line, past blanks and a comment. -/
def finishLine? (text : List Char) : Option (List Char) :=
  let text := text.dropWhile isSpace
  let rest := if text.head? == some '#' then text.dropWhile isPlain else text
  if rest.isEmpty then some [] else lineBreak? rest

/-- What the lines of a text say. -/
def statements? (text : List Char) : Option (List Statement) :=
  let line := text.dropWhile isSpace
  match line with
  | [] => some []
  | _ =>
    match readStatement? line with
    | none =>
      match finishLine? line with
      | none => none
      | some rest => if rest.length < text.length then statements? rest else none
    | some (statement, rest) =>
      match finishLine? rest with
      | none => none
      | some rest =>
        if rest.length < text.length then (statements? rest).map (statement :: ·) else none
termination_by text.length

/-- Do what a line says: `path` leads to the table under whose header it stands. -/
def Table.obey? (path : List String) (document : Table) :
    Statement → Option (List String × Table)
  | .header path => (document.head? path).map (path, ·)
  | .binding keys value => (document.within? (·.bind? value keys) path).map (path, ·)

/-- Read a document. -/
def read? (text : String) : Option Table := do
  let body := text.toList
  let statements ←
    statements? (if body.head? == some (Char.ofNat 0xfeff) then body.drop 1 else body)
  let (_, document) ←
    statements.foldlM (fun (path, document) statement => document.obey? path statement)
      (([], []) : List String × Table)
  return document

end FlowDiagram.Toml

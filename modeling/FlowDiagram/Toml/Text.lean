import FlowDiagram.Uuid

/-!
# Texts in TOML documents

A text stands in double quotes, where a backslash escapes, or in single quotes, where nothing does.
Between three quotes each it may have several lines.
-/

namespace FlowDiagram.Toml

/-! ## Characters -/

def isSpace (c : Char) : Bool := c = ' ' || c = '\t'

/-- A character that may stand in a comment or in a text of one line. -/
def isPlain (c : Char) : Bool := c = '\t' || (32 ≤ c.toNat && c.toNat ≠ 127)

def isBareKey (c : Char) : Bool := c.isAlphanum || c = '_' || c = '-'

/-- Take a line break off the front of a text. -/
def lineBreak? : List Char → Option (List Char)
  | '\n' :: rest => some rest
  | '\r' :: '\n' :: rest => some rest
  | _ => none

/-! ## Texts -/

/-- The character of a scalar value written in hexadecimal digits. -/
def scalar? (digits : List Char) : Option Char := do
  let values ← digits.mapM Uuid.digitValue?
  let value := values.foldl (fun total digit => 16 * total + digit) 0
  if value.isValidChar then some (Char.ofNat value) else none

/-- A character that a backslash and a letter stand for. -/
def escape? : Char → Option Char
  | 'b' => some '\x08'
  | 't' => some '\t'
  | 'n' => some '\n'
  | 'f' => some '\x0c'
  | 'r' => some '\r'
  | '"' => some '"'
  | '\\' => some '\\'
  | _ => none

/-- What a text has been read to, with the characters after it. -/
abbrev Ending := Option (List Char × List Char)

/-- Add a character to a text. -/
def Ending.push (c : Char) : Ending → Ending :=
  Option.map fun (text, rest) => (c :: text, rest)

/-- The rest of a text in double quotes on one line. -/
def readBasic : List Char → Ending
  | [] => none
  | '"' :: rest => some ([], rest)
  | '\\' :: 'u' :: a :: b :: c :: d :: rest => do
    let meant ← scalar? [a, b, c, d]
    Ending.push meant (readBasic rest)
  | '\\' :: 'U' :: a :: b :: c :: d :: e :: f :: g :: h :: rest => do
    let meant ← scalar? [a, b, c, d, e, f, g, h]
    Ending.push meant (readBasic rest)
  | '\\' :: c :: rest => do
    let meant ← escape? c
    Ending.push meant (readBasic rest)
  | c :: rest => if isPlain c then Ending.push c (readBasic rest) else none

/-- The rest of a text in single quotes on one line. -/
def readLiteral : List Char → Ending
  | [] => none
  | '\'' :: rest => some ([], rest)
  | c :: rest => if isPlain c then Ending.push c (readLiteral rest) else none

/--
The end of a text of several lines, whose last characters may be one or two quotes before the three
that close it.
-/
def closing? (quote : Char) (text : List Char) : Ending :=
  let quotes := (text.takeWhile (· = quote)).length
  if quotes < 3 then none
  else
    let kept := min 2 (quotes - 3)
    some (List.replicate kept quote, text.drop (kept + 3))

/-- How many blanks and line breaks a text starts with. -/
def blankRun : List Char → Nat
  | [] => 0
  | '\r' :: '\n' :: rest => 2 + blankRun rest
  | c :: rest => if isSpace c || c = '\n' then 1 + blankRun rest else 0

/-- Whether only blanks come before the end of the line. -/
def endsLine (text : List Char) : Bool :=
  (lineBreak? (text.dropWhile isSpace)).isSome

/--
The rest of a text of several lines in double quotes.  A backslash at the end of a line stands for
nothing, and neither do the blanks and line breaks after it.
-/
def readBasicLines (text : List Char) : Ending :=
  match closing? '"' text, text with
  | some ending, _ => some ending
  | none, '\\' :: 'u' :: a :: b :: c :: d :: rest => do
    let meant ← scalar? [a, b, c, d]
    Ending.push meant (readBasicLines rest)
  | none, '\\' :: 'U' :: a :: b :: c :: d :: e :: f :: g :: h :: rest => do
    let meant ← scalar? [a, b, c, d, e, f, g, h]
    Ending.push meant (readBasicLines rest)
  | none, '\\' :: c :: rest =>
    match escape? c with
    | some meant => Ending.push meant (readBasicLines rest)
    | none =>
      if endsLine (c :: rest) then readBasicLines (rest.drop (blankRun (c :: rest) - 1)) else none
  | none, '\r' :: '\n' :: rest => Ending.push '\n' (readBasicLines rest)
  | none, c :: rest =>
    if isPlain c || c = '\n' then Ending.push c (readBasicLines rest) else none
  | none, [] => none
termination_by text.length

/-- The rest of a text of several lines in single quotes. -/
def readLiteralLines (text : List Char) : Ending :=
  match closing? '\'' text, text with
  | some ending, _ => some ending
  | none, '\r' :: '\n' :: rest => Ending.push '\n' (readLiteralLines rest)
  | none, c :: rest =>
    if isPlain c || c = '\n' then Ending.push c (readLiteralLines rest) else none
  | none, [] => none
termination_by text.length

/-- A text of several lines does not hold the line break that it starts with. -/
def afterOpening (text : List Char) : List Char := (lineBreak? text).getD text

/-- Read a text on one line. -/
def readLine? : List Char → Ending
  | '"' :: rest => readBasic rest
  | '\'' :: rest => readLiteral rest
  | _ => none

/-- Read a text. -/
def readText? : List Char → Ending
  | '"' :: '"' :: '"' :: rest => readBasicLines (afterOpening rest)
  | '\'' :: '\'' :: '\'' :: rest => readLiteralLines (afterOpening rest)
  | text => readLine? text

end FlowDiagram.Toml

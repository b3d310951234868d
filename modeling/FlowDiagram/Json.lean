import FlowDiagram.Text.Joined

/-!
# JSON

Values and their two written forms: a compact one on a single line, and a readable one with each
item on a line of its own, two spaces further in.
-/

namespace FlowDiagram

inductive Json where
  | null
  | bool (value : Bool)
  | number (value : Int)
  | string (text : String)
  | array (items : List Json)
  | object (fields : List (String × Json))

namespace Json

/-- An object with its fields in the order of their names. -/
def record (fields : List (String × Json)) : Json :=
  .object (fields.mergeSort fun a b => a.1 ≤ b.1)

def ofNat (number : Nat) : Json := .number number

def strings (texts : List String) : Json := .array (texts.map .string)

/-- A value that may be missing. -/
def ofOption {α : Type} (form : α → Json) : Option α → Json
  | some value => form value
  | none => .null

/-! ## Writing -/

/-- A hexadecimal digit. -/
def hexDigit (value : Nat) : Char :=
  Nat.digitChar value

/-- How a character is written between quotes: only quotes, backslashes and what is below
U+0020 differ. -/
def escapedChar (c : Char) : String :=
  match c with
  | '"' => "\\\""
  | '\\' => "\\\\"
  | '\n' => "\\n"
  | '\r' => "\\r"
  | '\t' => "\\t"
  | '\x08' => "\\b"
  | '\x0c' => "\\f"
  | c =>
    if c.toNat < 32 then
      "\\u00" ++ String.ofList [hexDigit (c.toNat / 16), hexDigit (c.toNat % 16)]
    else c.toString

def quoted (text : String) : String :=
  "\"" ++ String.join (text.toList.map escapedChar) ++ "\""

mutual

/-- The compact form. -/
def compact : Json → String
  | .null => "null"
  | .bool value => if value then "true" else "false"
  | .number value => toString value
  | .string text => quoted text
  | .array items => "[" ++ ",".intercalate (compactItems items) ++ "]"
  | .object fields => "\x7b" ++ ",".intercalate (compactFields fields) ++ "\x7d"

def compactItems : List Json → List String
  | [] => []
  | item :: rest => item.compact :: compactItems rest

def compactFields : List (String × Json) → List String
  | [] => []
  | (name, value) :: rest => (quoted name ++ ":" ++ value.compact) :: compactFields rest

end

/-- Items between brackets, each on a line of its own. -/
def block (opening closing indent : String) (items : List String) : String :=
  if items.isEmpty then opening ++ closing
  else
    opening ++ "\n" ++ ",\n".intercalate (items.map ((indent ++ "  ") ++ ·)) ++ "\n" ++ indent ++
      closing

mutual

/-- The readable form, of which all lines but the first start with `indent`. -/
def pretty (indent : String) : Json → String
  | .null => "null"
  | .bool value => if value then "true" else "false"
  | .number value => toString value
  | .string text => quoted text
  | .array items => block "[" "]" indent (prettyItems (indent ++ "  ") items)
  | .object fields => block "\x7b" "\x7d" indent (prettyFields (indent ++ "  ") fields)

def prettyItems (indent : String) : List Json → List String
  | [] => []
  | item :: rest => item.pretty indent :: prettyItems indent rest

def prettyFields (indent : String) : List (String × Json) → List String
  | [] => []
  | (name, value) :: rest =>
    (quoted name ++ ": " ++ value.pretty indent) :: prettyFields indent rest

end

end Json

end FlowDiagram

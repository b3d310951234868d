/-!
# Reading drawings

A part of the DOT language, large enough for drawings of port graphs, is read by its own rules: a
text is cut into words, quoted strings and marks; these make up statements; and the statements stand
in blocks, one in another.  All that is not in this part is refused.
-/

namespace FlowDiagram.Dot

/-! ## Lexemes -/

inductive Lexeme where
  | word (text : String)
  | quoted (text : String)
  | openBrace
  | closeBrace
  | openBracket
  | closeBracket
  | equals
  | semicolon
  | comma
  | arrow
  deriving DecidableEq

def isBlank (c : Char) : Bool :=
  c == ' ' || c == '\n' || c == '\t' || c == '\r'

def isWordChar (c : Char) : Bool :=
  c.isAlphanum || c == '_' || c == '.'

/-- A word is a letter or an underscore with letters, digits and underscores behind it. -/
def isName : List Char → Bool
  | [] => false
  | first :: rest =>
    (first.isAlpha || first == '_') && rest.all fun c => c.isAlphanum || c == '_'

/-- A word may also be a number: digits, and at most one point. -/
def isNumber (text : List Char) : Bool :=
  text.any Char.isDigit && text.all (fun c => c.isDigit || c == '.') &&
    decide (text.count '.' ≤ 1)

def mark? (c : Char) : Option Lexeme :=
  if c = '\x7b' then some .openBrace
  else if c = '\x7d' then some .closeBrace
  else if c = '[' then some .openBracket
  else if c = ']' then some .closeBracket
  else if c = '=' then some .equals
  else if c = ';' then some .semicolon
  else if c = ',' then some .comma
  else none

/-- What the characters read so far leave open; the characters of a lexeme are kept latest first. -/
inductive ScanMode where
  | between
  | word (chars : List Char)
  | dash
  /-- Between quotes. -/
  | inside (chars : List Char)
  /-- Between quotes, behind a backslash. -/
  | escape (chars : List Char)

/-- The lexemes read so far, latest first, and what is open. -/
structure Scanner where
  mode : ScanMode
  lexemes : List Lexeme

/-- Read a character behind a lexeme. -/
def Scanner.next (lexemes : List Lexeme) (c : Char) : Option Scanner :=
  if isBlank c then some ⟨.between, lexemes⟩
  else if c = '"' then some ⟨.inside [], lexemes⟩
  else if c = '-' then some ⟨.dash, lexemes⟩
  else if isWordChar c then some ⟨.word [c], lexemes⟩
  else (mark? c).map fun mark => ⟨.between, mark :: lexemes⟩

/--
Read a character.  Between quotes a backslash only counts with what stands behind it: with a quote
it stands for the quote, with a line feed for nothing, and with another backslash for both.
-/
def Scanner.read (scanner : Scanner) (c : Char) : Option Scanner :=
  match scanner.mode with
  | .between => next scanner.lexemes c
  | .word chars =>
    if isWordChar c then some ⟨.word (c :: chars), scanner.lexemes⟩
    else if isName chars.reverse || isNumber chars.reverse then
      next (.word (String.ofList chars.reverse) :: scanner.lexemes) c
    else none
  | .dash => if c = '>' then some ⟨.between, .arrow :: scanner.lexemes⟩ else none
  | .inside chars =>
    if c = '"' then some ⟨.between, .quoted (String.ofList chars.reverse) :: scanner.lexemes⟩
    else if c = '\\' then some ⟨.escape chars, scanner.lexemes⟩
    else some ⟨.inside (c :: chars), scanner.lexemes⟩
  | .escape chars =>
    if c = '"' then some ⟨.inside ('"' :: chars), scanner.lexemes⟩
    else if c = '\n' then some ⟨.inside chars, scanner.lexemes⟩
    else some ⟨.inside (c :: '\\' :: chars), scanner.lexemes⟩

/-- The lexemes of a text that ends behind one of them: all quotes are closed. -/
def scan (text : List Char) : Option (List Lexeme) :=
  match text.foldlM Scanner.read ⟨.between, []⟩ with
  | some ⟨.between, lexemes⟩ => some lexemes.reverse
  | _ => none

/-! ## Statements -/

inductive Statement where
  /-- An attribute of the block around. -/
  | setting (name value : String)
  /-- Attributes of the nodes or of the edges that follow. -/
  | defaults (kind : String) (attributes : List (String × String))
  | vertex (id : String) (attributes : List (String × String))
  | edge (tail head : String) (attributes : List (String × String))
  deriving DecidableEq

/-- A statement, or where a block opens or closes. -/
inductive Item where
  | statement (statement : Statement)
  | digraph (name : String)
  | opens (name : Option String)
  | closes
  deriving DecidableEq

def keywords : List String :=
  ["node", "edge", "graph", "digraph", "subgraph", "strict"]

/-- Letters of either case make up a keyword. -/
def isKeyword (text : String) : Bool :=
  keywords.contains (String.ofList (text.toList.map Char.toLower))

/-- An identifier is a word that is no keyword, or any quoted string. -/
def Lexeme.id? : Lexeme → Option String
  | .word text => if isKeyword text then none else some text
  | .quoted text => some text
  | _ => none

def attribute? (name value : Lexeme) : Option (String × String) :=
  match name.id?, value.id? with
  | some name, some value => some (name, value)
  | _, _ => none

/-- The attributes in a list up to its closing bracket. -/
def attributeList? : List Lexeme → Option (List (String × String))
  | [name, .equals, value, .closeBracket] => (attribute? name value).map fun first => [first]
  | name :: .equals :: value :: .comma :: rest =>
    match attribute? name value, attributeList? rest with
    | some first, some others => some (first :: others)
    | _, _ => none
  | _ => none

/-- A list of attributes in brackets, or none at all. -/
def attributes? : List Lexeme → Option (List (String × String))
  | [] => some []
  | .openBracket :: rest => attributeList? rest
  | _ => none

/-- The statement that stands before a semicolon. -/
def statement? : List Lexeme → Option Statement
  | [name, .equals, value] => (attribute? name value).map fun (name, value) => .setting name value
  | tail :: .arrow :: head :: rest =>
    match tail.id?, head.id?, attributes? rest with
    | some tail, some head, some attributes => some (.edge tail head attributes)
    | _, _, _ => none
  | .word text :: rest =>
    if text = "node" ∨ text = "edge" then (attributes? rest).map (.defaults text)
    else if isKeyword text then none
    else (attributes? rest).map (.vertex text)
  | .quoted text :: rest => (attributes? rest).map (.vertex text)
  | _ => none

/-- What is opened by the brace behind some lexemes. -/
def opening? : List Lexeme → Option Item
  | [] => some (.opens none)
  | [.word kind, name] =>
    if kind = "subgraph" then name.id?.map fun name => .opens (some name)
    else if kind = "digraph" then name.id?.map .digraph
    else none
  | _ => none

/-- The items read so far, and the lexemes behind them, both latest first. -/
structure ItemReader where
  pending : List Lexeme
  items : List Item

def ItemReader.read (reader : ItemReader) (lexeme : Lexeme) : Option ItemReader :=
  match lexeme with
  | .semicolon =>
    (statement? reader.pending.reverse).map fun statement =>
      ⟨[], .statement statement :: reader.items⟩
  | .openBrace => (opening? reader.pending.reverse).map fun item => ⟨[], item :: reader.items⟩
  | .closeBrace =>
    match reader.pending with
    | [] => some ⟨[], .closes :: reader.items⟩
    | _ :: _ => none
  | lexeme => some ⟨lexeme :: reader.pending, reader.items⟩

/-- The items that some lexemes make up. -/
def items? (lexemes : List Lexeme) : Option (List Item) :=
  match lexemes.foldlM ItemReader.read ⟨[], []⟩ with
  | some ⟨[], items⟩ => some items.reverse
  | _ => none

/-! ## Blocks -/

/-- A block with the numbers of the blocks around it, outermost first. -/
structure Block where
  scope : List Nat
  name : Option String

/-- A statement with the numbers of the blocks around it, outermost first. -/
structure Standing where
  scope : List Nat
  statement : Statement

/-- The name of a graph, its blocks in the order in which they open, and its statements. -/
structure Drawing where
  name : String
  blocks : List Block
  statements : List Standing

/-- What has been read so far, latest first, and the numbers of the blocks open, innermost first. -/
structure Placer where
  opened : List Nat
  blocks : List Block
  statements : List Standing
  closed : Bool

/-- Read an item; a brace without a block to close closes the graph, and nothing follows it. -/
def Placer.read (placer : Placer) (item : Item) : Option Placer :=
  if placer.closed then none
  else
    match item with
    | .statement statement =>
      some { placer with
        statements := ⟨placer.opened.reverse, statement⟩ :: placer.statements }
    | .digraph _ => none
    | .opens name =>
      some { placer with
        opened := placer.blocks.length :: placer.opened
        blocks := ⟨placer.opened.reverse, name⟩ :: placer.blocks }
    | .closes =>
      match placer.opened with
      | [] => some { placer with closed := true }
      | _ :: rest => some { placer with opened := rest }

/-- The drawing that some items make up: a graph with all its blocks closed. -/
def drawing? : List Item → Option Drawing
  | .digraph name :: items =>
    match items.foldlM Placer.read ⟨[], [], [], false⟩ with
    | some placer =>
      if placer.closed then some ⟨name, placer.blocks.reverse, placer.statements.reverse⟩ else none
    | none => none
  | _ => none

/-- Read a drawing. -/
def Drawing.read (text : String) : Option Drawing :=
  ((scan text.toList).bind items?).bind drawing?

/-! ## Labels -/

/-- The characters that a label shows: a backslash protects another, or stands for a line feed. -/
def labelChars : List Char → Option (List Char)
  | [] => some []
  | '\\' :: '\\' :: rest => (labelChars rest).map ('\\' :: ·)
  | '\\' :: 'n' :: rest => (labelChars rest).map ('\n' :: ·)
  | '\\' :: _ => none
  | c :: rest => (labelChars rest).map (c :: ·)

/-- The text that a label shows. -/
def labelText (label : String) : Option String :=
  (labelChars label.toList).map String.ofList

/-! ## Ends of edges -/

/-- Where an edge starts or ends: at a port on a margin, or at a node. -/
inductive End where
  | input (port : Nat)
  | output (port : Nat)
  | node (id : Nat)
  deriving DecidableEq

/-- The number that some digits are the decimal digits of. -/
def decimal? (digits : List Char) : Option Nat :=
  let number := Nat.ofDigitChars 10 digits 0
  if Nat.toDigits 10 number = digits then some number else none

/-- The end that an identifier stands for. -/
def End.ofId? (id : String) : Option End :=
  match id.toList with
  | 'i' :: 'n' :: digits => (decimal? digits).map .input
  | 'o' :: 'u' :: 't' :: digits => (decimal? digits).map .output
  | 'n' :: digits => (decimal? digits).map .node
  | _ => none

/-! ## What stands in a drawing -/

/-- A statement with the paths that the blocks around it stand for, outermost first. -/
structure Located where
  scope : List (List String)
  statement : Statement

/-- The statements of a drawing, if it is told which path each block stands for. -/
def Drawing.located (drawing : Drawing) (pathOf : Nat → List String) : List Located :=
  drawing.statements.map fun standing => ⟨standing.scope.map pathOf, standing.statement⟩

/-- The statement of a vertex. -/
structure VertexStatement where
  scope : List (List String)
  id : String
  attributes : List (String × String)

def Located.vertex? (located : Located) : Option VertexStatement :=
  match located.statement with
  | .vertex id attributes => some ⟨located.scope, id, attributes⟩
  | _ => none

/-- The statements that give a vertex attributes. -/
def declared (statements : List Located) : List VertexStatement :=
  (statements.filterMap Located.vertex?).filter fun vertex => !vertex.attributes.isEmpty

/-- The statements that only put a vertex into the block around them. -/
def mentioned (statements : List Located) : List VertexStatement :=
  (statements.filterMap Located.vertex?).filter fun vertex => vertex.attributes.isEmpty

/-- The statement of an edge. -/
structure EdgeStatement where
  scope : List (List String)
  tail : String
  head : String
  attributes : List (String × String)

def Located.edge? (located : Located) : Option EdgeStatement :=
  match located.statement with
  | .edge tail head attributes => some ⟨located.scope, tail, head, attributes⟩
  | _ => none

/-- The block around a label, and the label. -/
def Located.label? (located : Located) : Option (List (List String) × String) :=
  match located.statement with
  | .setting name value => if name = "label" then some (located.scope, value) else none
  | _ => none

/-- What the attribute of some name shows in a list of attributes, if it is there. -/
def shown? (attributes : List (String × String)) (name : String) : Option (Option String) :=
  (attributes.lookup name).map labelText

end FlowDiagram.Dot

import FlowDiagram.Token
import FlowDiagram.Text.Escaped

/-!
# From characters to tokens

A source is cut into pieces without loss: blanks, comments, tokens and faults.  Each piece is as
long as it can be, and a sign that might have gone on falls back to the longest sign read.  Faults
are characters with which nothing starts, and numbers too large for the language; both are left
out of the token sequence, and reading goes on behind them.
-/

namespace FlowDiagram

/-- What a piece of a source is. -/
inductive PieceKind where
  | blank
  | comment
  | token (token : Token)
  | fault
  deriving DecidableEq

/-- A stretch of a source that is read as one thing. -/
structure Piece where
  kind : PieceKind
  text : List Char
  deriving DecidableEq

/-! ## The first piece -/

/-- The number written by decimal digits. -/
def decimalValue (digits : List Char) : Nat :=
  digits.foldl (fun value digit => value * 10 + (digit.toNat - '0'.toNat)) 0

/-- A run of digits is a number when its value fits 32 bits. -/
def Piece.ofDigits (digits : List Char) : Piece :=
  let value := decimalValue digits
  if value < UInt32.size then ⟨.token (.number (UInt32.ofNat value)), digits⟩ else ⟨.fault, digits⟩

/-- A run of identifier characters is a reserved word if it can be. -/
def Piece.ofWord (word : List Char) : Piece :=
  let name := String.ofList word
  match Reserved.ofWord? name with
  | some reserved => ⟨.token (.reserved reserved), word⟩
  | none => ⟨.token (.ident name), word⟩

/-- The longest sign at the head of a text. -/
def signOf? : List Char → Option Reserved
  | '>' :: '-' :: '>' :: _ => some .arrow
  | '>' :: '<' :: _ => some .join
  | '>' :: _ => some .closeAngle
  | '<' :: '>' :: _ => some .split
  | '<' :: _ => some .openAngle
  | '+' :: _ => some .plus
  | '-' :: _ => some .minus
  | '*' :: _ => some .star
  | '=' :: _ => some .equals
  | '|' :: _ => some .bar
  | '[' :: _ => some .openBracket
  | ']' :: _ => some .closeBracket
  | '{' :: _ => some .openBrace
  | '}' :: _ => some .closeBrace
  | ',' :: _ => some .comma
  | '.' :: _ => some .dot
  | _ => none

/-- The first piece of a text that starts with `c`. -/
def Piece.first (c : Char) (rest : List Char) : Piece :=
  if isBlank c then ⟨.blank, [c]⟩
  else if c = '#' then ⟨.comment, c :: rest.takeWhile (· ≠ '\n')⟩
  else if isDigit c then .ofDigits (c :: rest.takeWhile isDigit)
  else if isIdentStart c then .ofWord (c :: rest.takeWhile isIdentPart)
  else match signOf? (c :: rest) with
    | some sign => ⟨.token (.reserved sign), sign.text.toList⟩
    | none => ⟨.fault, [c]⟩

/-! ## All pieces -/

/-- Cut a text into pieces, each dropped from what is left to read. -/
def pieces : List Char → List Piece
  | [] => []
  | c :: rest =>
    let piece := Piece.first c rest
    piece :: pieces (rest.drop (piece.text.length - 1))
termination_by text => text.length
decreasing_by simp only [List.length_drop, List.length_cons]; omega

/-! ## Tokens and faults with their spans -/

/-- A stretch of a source that is no part of the language. -/
structure LexicalFault where
  text : List Char
  span : Span
  deriving DecidableEq

def LexicalFault.message (fault : LexicalFault) : String :=
  "unexpected character: " ++ Text.quoted (String.ofList fault.text)

/-- The tokens among pieces of which the first starts at `offset`. -/
def lexemesFrom (offset : Nat) : List Piece → List Lexeme
  | [] => []
  | piece :: rest =>
    let stop := offset + byteLength piece.text
    match piece.kind with
    | .token token => ⟨token, offset, stop⟩ :: lexemesFrom stop rest
    | _ => lexemesFrom stop rest

/-- The faults among pieces of which the first starts at `offset`. -/
def faultsFrom (offset : Nat) : List Piece → List LexicalFault
  | [] => []
  | piece :: rest =>
    let stop := offset + byteLength piece.text
    match piece.kind with
    | .fault => ⟨piece.text, offset, stop⟩ :: faultsFrom stop rest
    | _ => faultsFrom stop rest

/-- The tokens of a source, in order. -/
def lexemes (source : List Char) : List Lexeme :=
  lexemesFrom 0 (pieces source)

/-- The faults of a source, in order. -/
def lexicalFaults (source : List Char) : List LexicalFault :=
  faultsFrom 0 (pieces source)

end FlowDiagram

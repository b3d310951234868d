import FlowDiagram.Text.Unprintable

/-!
# Quoted text in messages

Messages show a piece of foreign text between double quotes.  Quotes and backslashes are protected
by a backslash, the common controls have their letters, and every other character without a glyph
of its own is written by its number, so that the reader can tell what stands there.
-/

namespace FlowDiagram.Text

/-- How one character is written between the quotes. -/
def escapedChar (c : Char) : String :=
  match c with
  | '"' => "\\\""
  | '\\' => "\\\\"
  | '\n' => "\\n"
  | '\r' => "\\r"
  | '\t' => "\\t"
  | '\x00' => "\\0"
  | c =>
    if isUnprintable c then
      "\\u\x7b" ++ String.ofList (Nat.toDigits 16 c.toNat) ++ "\x7d"
    else c.toString

/-- A text between double quotes, readable in a message whatever it holds. -/
def quoted (text : String) : String :=
  "\"" ++ String.join (text.toList.map escapedChar) ++ "\""

end FlowDiagram.Text

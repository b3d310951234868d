/-!
# Quoted strings in DOT

A string stands between double quotes.  A backslash protects the character behind it: quotes and
backslashes are protected, and a line feed is written as `\n`.
-/

namespace FlowDiagram.Dot

/-- The characters that stand for a character between quotes. -/
def quotedChar (c : Char) : List Char :=
  if c = '"' then ['\\', '"']
  else if c = '\\' then ['\\', '\\']
  else if c = '\n' then ['\\', 'n']
  else [c]

/-- The characters of a quoted string, quotes included. -/
def quotedChars (text : List Char) : List Char :=
  '"' :: (text.flatMap quotedChar ++ ['"'])

/-- A text as a quoted string. -/
def quoted (text : String) : String :=
  String.ofList (quotedChars text.toList)

end FlowDiagram.Dot

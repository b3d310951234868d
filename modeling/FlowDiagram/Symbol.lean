/-!
# Symbols

Flows carry symbols.  A symbol that stands in a source is a name; one that an unfolded instance
introduces is such a name followed by `#` and a number, so it can never be written: `#` starts a
comment.
-/

namespace FlowDiagram

abbrev Symbol := String

/-- The symbol that the introduction number `number` makes of a written name. -/
def Symbol.fresh (name : Symbol) (number : Nat) : Symbol :=
  name ++ "#" ++ toString number

/-- The name that a symbol was made of: what stands before the first `#`. -/
def Symbol.written (symbol : Symbol) : String :=
  String.ofList (symbol.toList.takeWhile (· != '#'))

end FlowDiagram

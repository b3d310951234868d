import FlowDiagram.Proofs.Dot.Reading

/-!
# Balanced braces

A text that is read as a drawing ends outside of quotes.  Outside of them every brace that closes
has one before it that it closes, and every brace that opens is closed.
-/

namespace FlowDiagram.Dot

/-! ## Levels -/

/-- How much deeper one is behind a lexeme. -/
def Lexeme.rise : Lexeme → Int
  | .openBrace => 1
  | .closeBrace => -1
  | _ => 0

def Item.rise : Item → Int
  | .digraph _ => 1
  | .opens _ => 1
  | .closes => -1
  | .statement _ => 0

/-- How deep one is behind some things, each of which goes so much deeper. -/
def level {α : Type} (rise : α → Int) : List α → Int
  | [] => 0
  | thing :: rest => rise thing + level rise rest

section Level

variable {α : Type} (rise : α → Int)

@[simp]
theorem level_nil : level rise [] = 0 := rfl

end Level

/-- How deep a placer is: the graph and the blocks open in it, or nowhere when it is closed. -/
def Placer.depth (placer : Placer) : Int :=
  if placer.closed then 0 else placer.opened.length + 1

end FlowDiagram.Dot

/-!
# Blanks around a text

The blank characters are those of the Unicode property `White_Space`.
-/

namespace FlowDiagram.Text

/-- First and last code points of the runs of blank characters. -/
def blankRuns : List (Nat × Nat) := [
  (0x9, 0xd), (0x20, 0x20), (0x85, 0x85), (0xa0, 0xa0), (0x1680, 0x1680), (0x2000, 0x200a),
  (0x2028, 0x2029), (0x202f, 0x202f), (0x205f, 0x205f), (0x3000, 0x3000)]

def isBlank (c : Char) : Bool :=
  blankRuns.any fun (first, last) => first ≤ c.toNat && c.toNat ≤ last

/-- A text without the blanks at its two ends. -/
def trimmed (text : String) : String :=
  let unopened := text.toList.dropWhile isBlank
  String.ofList (unopened.reverse.dropWhile isBlank).reverse

end FlowDiagram.Text

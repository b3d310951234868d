/-!
# Texts in order

Texts are ordered by their characters, which is also the order of their bytes in UTF-8.
-/

namespace FlowDiagram.Text

/-- The texts of a list, each once, in increasing order. -/
def sortedDistinct (texts : List String) : List String :=
  (texts.mergeSort fun a b => a ≤ b).eraseDups

end FlowDiagram.Text

/-!
# Texts from parts

Texts are put together from parts in a list with commas, or line by line.  The characters of the
whole are those of the parts.
-/

namespace FlowDiagram.Text

/-- Parts in a list, with a comma between each two. -/
def commaList (parts : List String) : String :=
  ", ".intercalate parts

/-- Each part on a line of its own, closed by a line feed. -/
def lines (parts : List String) : String :=
  String.join (parts.map (· ++ "\n"))

theorem toList_commaList (parts : List String) :
    (commaList parts).toList = [',', ' '].intercalate (parts.map String.toList) := by
  simp [commaList]

theorem toList_lines (parts : List String) :
    (lines parts).toList = parts.flatMap fun part => part.toList ++ ['\n'] := by
  simp [lines, List.flatMap_map]

end FlowDiagram.Text

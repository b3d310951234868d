import FlowDiagram.Program
import FlowDiagram.Text.Joined

/-!
# The canonical text of a program

Each definition is a block: the header, one line per use, and one `link` block with one line per
link.  Blocks are separated by an empty line.  Reading the text gives the same program back, spans
apart.
-/

namespace FlowDiagram

open Text

/-- The names of a list of identifiers, with commas between them. -/
def identsText (idents : List Ident) : String :=
  commaList (idents.map (·.name))

/-- Generic symbols; the bar stands even when nothing follows it. -/
def Generics.text (generics : Generics) : String :=
  let existential :=
    if generics.existential.isEmpty then "" else " " ++ identsText generics.existential
  "<" ++ identsText generics.universal ++ " |" ++ existential ++ ">"

def Ports.text (ports : Ports) : String :=
  "[" ++ identsText ports.inputs ++ " | " ++ identsText ports.outputs ++ "]"

def BoxRef.text : BoxRef → String
  | .add symbol => "+" ++ symbol.name
  | .remove symbol => "-" ++ symbol.name
  | .spawn symbol => "*" ++ symbol.name
  | .indexed tag count _ => tag.name ++ "\x7b" ++ toString count.toNat ++ "\x7d"
  | .join _ => "><"
  | .split _ => "<>"
  | .definition name none => name.name
  | .definition name (some arguments) => name.name ++ " " ++ arguments.text

def Use.text (use : Use) : String :=
  "use " ++ use.box.text ++ " " ++ use.ports.text ++ " as " ++ use.name.name

def PortRef.text (ref : PortRef) : String :=
  match ref.owner with
  | some owner => owner.name ++ "." ++ ref.port.name
  | none => ref.port.name

def Link.text (link : Link) : String :=
  link.source.text ++ " >-> " ++ link.target.text

/-- The header of a definition; generic symbols are left out when there are none. -/
def Definition.headerText (definition : Definition) : String :=
  let generics := if definition.generics.isEmpty then "" else definition.generics.text ++ " "
  "def " ++ definition.name.name ++ " = " ++ generics ++ definition.ports.text

def Definition.text (definition : Definition) : String :=
  let uses := definition.uses.map fun use => "    " ++ use.text
  let links := definition.links.map fun link => "        " ++ link.text
  let block := if links.isEmpty then [] else "    link" :: links
  lines (definition.headerText :: (uses ++ block))

def Program.text (program : Program) : String :=
  "\n".intercalate (program.definitions.map Definition.text)

end FlowDiagram

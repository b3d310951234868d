import FlowDiagram.Dot.Quoted
import FlowDiagram.PortGraph
import FlowDiagram.Signature
import FlowDiagram.Text.Order

/-!
# Drawings

A port graph is drawn as a directed graph in the DOT language: the ports of the root stand at the
margins, with their types if these are known; nodes stand in nested boxes, one for each instance
that they lie in; edges name the ports at their ends where a node has several.
-/

namespace FlowDiagram

open Text

namespace Dot

/-! ## The boundary -/

/-- The label of a boundary port: its name, and its type on a second line if it is known. -/
def portLabel (name : String) (type : Option PortType) : String :=
  match type with
  | some type => quoted (name ++ "\n" ++ type.text)
  | none => quoted name

def boundaryLine (id color label : String) : String :=
  "    " ++ id ++ " [shape=cds, style=filled, fillcolor=" ++ color ++ ", label=" ++ label ++ "];"

/-- Several ports on a margin stand side by side. -/
def rankLines (rank : String) (ids : List String) : List String :=
  if 1 < ids.length then
    ["    \x7b rank=" ++ rank ++ "; " ++ "; ".intercalate ids ++ "; \x7d"]
  else []

def inputId (port : Nat) : String := "in" ++ toString port

def outputId (port : Nat) : String := "out" ++ toString port

def nodeId (id : Nat) : String := "n" ++ toString id

def boundaryLines (graph : PortGraph) (signature : Option Signature) : List String :=
  let inputType (name : String) := signature.bind (·.input? name)
  let outputType (name : String) := signature.bind (·.output? name)
  graph.inputs.zipIdx.map (fun (name, port) =>
    boundaryLine (inputId port) "lightblue" (portLabel name (inputType name))) ++
  graph.outputs.zipIdx.map (fun (name, port) =>
    boundaryLine (outputId port) "lightyellow" (portLabel name (outputType name))) ++
  rankLines "source" ((List.range graph.inputs.length).map inputId) ++
  rankLines "sink" ((List.range graph.outputs.length).map outputId)

/-! ## Nodes -/

def shape : Primitive → String
  | .add _ | .remove _ | .spawn _ => "circle"
  | .union _ => "invtrapezium"
  | .join => "invtriangle"
  | .split => "triangle"

def nodeAttributes (node : Node) : String :=
  let tooltip := quoted (pathText node.provenance.path)
  match node.kind with
  | .primitive primitive =>
    "shape=" ++ shape primitive ++ ", label=" ++ quoted primitive.text ++ ", tooltip=" ++ tooltip
  | .truncated .. =>
    "shape=box, style=dashed, label=" ++ quoted (node.kind.text ++ "\n(depth exceeded)") ++
      ", tooltip=" ++ tooltip

def nodeLine (indent : String) (id : Nat) (node : Node) : String :=
  indent ++ nodeId id ++ " [" ++ nodeAttributes node ++ "];"

/-! ## Boxes -/

/-- Something with the names of the boxes that it lies in, outermost first. -/
structure Placed (α : Type) where
  scope : List String
  content : α

/-- A node lies in the instances that its path names, but for the last step, its own use. -/
def placedNode (id : Nat) (node : Node) : Placed (Nat × Node) :=
  ⟨node.provenance.path.dropLast, id, node⟩

/-- The definition of an instance lies in the box of the instance. -/
def placedDefinition (inst : Instance) : Placed String :=
  ⟨inst.path, inst.definition⟩

/-- Only letters, digits and underscores may stand in the name of a box. -/
def sanitize (name : String) : String :=
  name.map fun c => if c.isAlphanum || c == '_' then c else '_'

/-- What lies in the box `name`, one step further in. -/
def within {α : Type} (name : String) (placed : List (Placed α)) : List (Placed α) :=
  placed.filterMap fun place =>
    match place.scope with
    | step :: rest => if step = name then some ⟨rest, place.content⟩ else none
    | [] => none

/-- What lies in no further box. -/
def here {α : Type} (placed : List (Placed α)) : List α :=
  (placed.filter (·.scope.isEmpty)).map (·.content)

/-- The names of the boxes that nodes lie in, each once, in increasing order. -/
def boxNames (nodes : List (Placed (Nat × Node))) : List String :=
  sortedDistinct (nodes.filterMap (·.scope.head?))

/-- The label of a box: its name, and the definition if the box is an instance. -/
def boxLabel (name : String) (definition : Option String) : String :=
  match definition with
  | some definition => name ++ ": " ++ definition
  | none => name

/-- The lines of the box at `path`, around the lines of what lies in it. -/
def box (indent : String) (path : List String) (label : String) (inside : List String) :
    List String :=
  let inner := indent ++ "    "
  [indent ++ "subgraph cluster_" ++ sanitize ("_".intercalate path) ++ " \x7b",
    inner ++ "label=" ++ quoted label ++ ";",
    inner ++ "style=rounded;",
    inner ++ "color=gray50;"] ++
  inside ++ [indent ++ "\x7d"]

/--
The lines of nodes that lie at most `depth` boxes deep below `path`: first those that lie in no
further box, then the boxes.
-/
def boxLines (depth : Nat) (indent : String) (path : List String)
    (definitions : List (Placed String)) (nodes : List (Placed (Nat × Node))) : List String :=
  let own := (here nodes).map fun (id, node) => nodeLine indent id node
  match depth with
  | 0 => own
  | depth + 1 =>
    own ++ (boxNames nodes).flatMap fun name =>
      let definitions := within name definitions
      box indent (path ++ [name]) (boxLabel name (here definitions).head?)
        (boxLines depth (indent ++ "    ") (path ++ [name]) definitions (within name nodes))

/-- The nodes of a graph, in the boxes that they lie in. -/
def nodeLines (graph : PortGraph) : List String :=
  let nodes := graph.nodes.toList.zipIdx.map fun (node, id) => placedNode id node
  let depth := (nodes.map (·.scope.length)).foldl max 0
  boxLines depth "    " [] (graph.instances.map placedDefinition) nodes

/-! ## Edges -/

def vertexId (endpoint : Endpoint) : String :=
  match endpoint.vertex with
  | .inputs => inputId endpoint.port
  | .outputs => outputId endpoint.port
  | .node id => nodeId id

/-- The name of a port, if it is one of several. -/
def severalPorts? (names : List String) (port : Nat) : Option String :=
  if 1 < names.length then names[port]? else none

/-- The name of the port that an edge starts at, if its node has several outputs. -/
def tailName? (graph : PortGraph) (source : Endpoint) : Option String :=
  match source.vertex with
  | .node id => (graph.nodes[id]?).bind fun node => severalPorts? node.outputs source.port
  | _ => none

/-- The name of the port that an edge ends at, if its node has several inputs. -/
def headName? (graph : PortGraph) (target : Endpoint) : Option String :=
  match target.vertex with
  | .node id => (graph.nodes[id]?).bind fun node => severalPorts? node.inputs target.port
  | _ => none

def edgeAttributes (graph : PortGraph) (edge : Edge) : List String :=
  ((tailName? graph edge.source).map fun name => "taillabel=" ++ quoted name).toList ++
    ((headName? graph edge.target).map fun name => "headlabel=" ++ quoted name).toList

def edgeLine (graph : PortGraph) (edge : Edge) : String :=
  let attributes := edgeAttributes graph edge
  let shown := if attributes.isEmpty then "" else " [" ++ commaList attributes ++ "]"
  "    " ++ vertexId edge.source ++ " -> " ++ vertexId edge.target ++ shown ++ ";"

/-! ## The whole drawing -/

/-- The lines that all drawings share. -/
def styleLines : List String :=
  ["    rankdir=LR;",
    "    node [fontname=\"Helvetica\", fontsize=10];",
    "    edge [fontname=\"Helvetica\", fontsize=9, arrowsize=0.6];"]

end Dot

/-- A graph as a drawing, with the types of the boundary ports if they are given. -/
def PortGraph.dot (graph : PortGraph) (signature : Option Signature) : String :=
  lines (["digraph " ++ Dot.quoted graph.root ++ " \x7b"] ++ Dot.styleLines ++
    [""] ++ Dot.boundaryLines graph signature ++
    [""] ++ Dot.nodeLines graph ++
    [""] ++ graph.edges.toList.map (Dot.edgeLine graph) ++
    ["\x7d"])

end FlowDiagram

import FlowDiagram.PortGraph

/-!
# The text of a port graph

One line for the root, one per node, one per edge.  Nodes are named by their numbers, ports by
their names.
-/

namespace FlowDiagram

open Text

/-- Ports as they are written after a box. -/
def portsText (inputs outputs : List String) : String :=
  "[" ++ commaList inputs ++ " | " ++ commaList outputs ++ "]"

/-- The name of a port, or its number where it has none. -/
def portName (names : List String) (port : Nat) : String :=
  (names[port]?).getD (toString port)

def Node.line (number : Nat) (node : Node) : String :=
  let provenance := node.provenance
  let status := if provenance.depthExceeded then ", depth exceeded)" else ")"
  "  n" ++ toString number ++ " " ++ node.kind.text ++ " " ++ portsText node.inputs node.outputs ++
    " at " ++ pathText provenance.path ++ " (" ++ provenance.definition ++ ", level " ++
    toString provenance.level ++ status

namespace PortGraph

/-- A source as an edge names it. -/
def sourceText (graph : PortGraph) (source : Endpoint) : String :=
  match source.vertex with
  | .inputs => "in." ++ portName graph.inputs source.port
  | .outputs => "out." ++ portName graph.outputs source.port
  | .node id =>
    "n" ++ toString id ++ "." ++
      portName ((graph.nodes[id]?.map (·.outputs)).getD []) source.port

/-- A target as an edge names it. -/
def targetText (graph : PortGraph) (target : Endpoint) : String :=
  match target.vertex with
  | .inputs => "in." ++ portName graph.inputs target.port
  | .outputs => "out." ++ portName graph.outputs target.port
  | .node id =>
    "n" ++ toString id ++ "." ++
      portName ((graph.nodes[id]?.map (·.inputs)).getD []) target.port

/-- The line of the root; its generators stand as they are. -/
def rootLine (graph : PortGraph) : String :=
  let generators :=
    if graph.generators.isEmpty then "" else " <" ++ commaList graph.generators ++ ">"
  "graph " ++ graph.root ++ generators ++ " " ++ portsText graph.inputs graph.outputs

def edgeLine (graph : PortGraph) (edge : Edge) : String :=
  "  " ++ graph.sourceText edge.source ++ " -> " ++ graph.targetText edge.target

def text (graph : PortGraph) : String :=
  lines (graph.rootLine :: (graph.nodes.mapIdx Node.line).toList ++
    (graph.edges.map graph.edgeLine).toList)

end PortGraph

end FlowDiagram

import FlowDiagram.Primitive
import FlowDiagram.Text.Joined

/-!
# Port graphs

A port graph is a flat diagram: nodes with named ports, and edges from a root input or a node
output to a root output or a node input.  It is put together from a plan, which has everything but
edges, and a list of edges; every edge must run from an existing source to an existing target.

Nodes and edges are known by their numbers, from zero on.  A graph is assumed to have no more than
`2 ^ 32` of each, so that the numbers fit into 32 bits.
-/

namespace FlowDiagram

/-! ## Nodes -/

inductive NodeKind where
  | primitive (primitive : Primitive)
  /-- A use of a definition that was not unfolded any further. -/
  | truncated (definition : String) (generators : List Symbol)
  deriving DecidableEq

/-- Where a node comes from. -/
structure Provenance where
  /-- The names of the instances from the root down to the node's own use. -/
  path : List String
  /-- The definition in whose body the use stands. -/
  definition : String
  level : Nat
  depthExceeded : Bool
  span : Span
  deriving DecidableEq

/-- A node, with the names that its use gives to the ports. -/
structure Node where
  kind : NodeKind
  inputs : List String
  outputs : List String
  provenance : Provenance
  deriving DecidableEq

/-- An unfolded use of a definition. -/
structure Instance where
  path : List String
  definition : String
  generators : List Symbol
  level : Nat
  deriving DecidableEq

def Node.isTruncated (node : Node) : Bool :=
  match node.kind with
  | .truncated .. => true
  | .primitive _ => false

/-- A path as it is written: steps with a slash between each two. -/
def pathText (path : List String) : String :=
  "/".intercalate path

def NodeKind.text : NodeKind → String
  | .primitive box => box.text
  | .truncated definition [] => "truncated " ++ definition
  | .truncated definition generators =>
    "truncated " ++ definition ++ "<" ++ Text.commaList (generators.map Symbol.written) ++ ">"

/-! ## Edges -/

/-- What an edge runs from or to: the inputs or the outputs of the root, or a node. -/
inductive Vertex where
  | inputs
  | outputs
  | node (id : Nat)
  deriving DecidableEq

/-- A port of a vertex.  For a node it depends on the use whether this is an input or an output. -/
structure Endpoint where
  vertex : Vertex
  port : Nat
  deriving DecidableEq

def Endpoint.input (port : Nat) : Endpoint := ⟨.inputs, port⟩

def Endpoint.output (port : Nat) : Endpoint := ⟨.outputs, port⟩

def Endpoint.node (id port : Nat) : Endpoint := ⟨.node id, port⟩

structure Edge where
  source : Endpoint
  target : Endpoint
  deriving DecidableEq

/-- The numbers of edges by the vertex at one of their ends, latest first. -/
structure Incidence where
  root : List (Nat × Nat)
  nodes : Array (List (Nat × Nat))

namespace Incidence

/-- No edges, for so many nodes. -/
def empty (nodes : Nat) : Incidence :=
  ⟨[], Array.replicate nodes []⟩

/-- Record the edge number `edge` at an endpoint. -/
def add (incidence : Incidence) (endpoint : Endpoint) (edge : Nat) : Incidence :=
  match endpoint.vertex with
  | .node id =>
    { incidence with nodes := incidence.nodes.modify id ((endpoint.port, edge) :: ·) }
  | _ => { incidence with root := (endpoint.port, edge) :: incidence.root }

/-- The numbers recorded at a port, in increasing order. -/
def at? (recorded : List (Nat × Nat)) (port : Nat) : List Nat :=
  ((recorded.filter (·.1 == port)).map (·.2)).reverse

end Incidence

/-! ## Graphs -/

/-- A graph but for its edges. -/
structure GraphPlan where
  root : String
  rootSpan : Span
  /-- The symbols bound to the generic symbols of the root. -/
  generators : List Symbol
  inputs : List String
  outputs : List String
  nodes : Array Node
  instances : List Instance

structure PortGraph extends GraphPlan where
  edges : Array Edge
  /-- Edges by the vertex that they start at. -/
  leaving : Incidence
  /-- Edges by the vertex that they end at. -/
  entering : Incidence

/-- What is wrong with an edge, by its number. -/
inductive GraphError where
  | danglingNode (edge node : Nat)
  | portOutOfRange (edge port : Nat)
  | targetsInput (edge : Nat)
  | startsAtOutput (edge : Nat)
  deriving DecidableEq

def GraphError.message : GraphError → String
  | .danglingNode edge node =>
    "edge " ++ toString edge ++ " refers to unknown node n" ++ toString node
  | .portOutOfRange edge port =>
    "edge " ++ toString edge ++ " refers to port " ++ toString port ++
      " outside the declared ports"
  | .targetsInput edge => "edge " ++ toString edge ++ " targets a root input"
  | .startsAtOutput edge => "edge " ++ toString edge ++ " starts at a root output"

namespace GraphPlan

/-- How many sources a vertex has, for the edge number `edge`. -/
def sourcePorts (plan : GraphPlan) (edge : Nat) : Vertex → Except GraphError Nat
  | .inputs => .ok plan.inputs.length
  | .outputs => .error (.startsAtOutput edge)
  | .node id =>
    match plan.nodes[id]? with
    | some node => .ok node.outputs.length
    | none => .error (.danglingNode edge id)

/-- How many targets a vertex has, for the edge number `edge`. -/
def targetPorts (plan : GraphPlan) (edge : Nat) : Vertex → Except GraphError Nat
  | .inputs => .error (.targetsInput edge)
  | .outputs => .ok plan.outputs.length
  | .node id =>
    match plan.nodes[id]? with
    | some node => .ok node.inputs.length
    | none => .error (.danglingNode edge id)

/-- The error that a port is beyond those declared. -/
def checkPort (edge port declared : Nat) : Except GraphError Unit :=
  if port < declared then .ok () else .error (.portOutOfRange edge port)

/-- Both ends of an edge must exist; the source is looked at first. -/
def checkEdge (plan : GraphPlan) (number : Nat) (edge : Edge) : Except GraphError Unit := do
  checkPort number edge.source.port (← plan.sourcePorts number edge.source.vertex)
  checkPort number edge.target.port (← plan.targetPorts number edge.target.vertex)

end GraphPlan

namespace PortGraph

/-- The graph of a plan without edges. -/
def ofPlan (plan : GraphPlan) : PortGraph where
  toGraphPlan := plan
  edges := #[]
  leaving := .empty plan.nodes.size
  entering := .empty plan.nodes.size

/-- Add an edge, if both its ends exist. -/
def connect (graph : PortGraph) (edge : Edge) : Except GraphError PortGraph := do
  let number := graph.edges.size
  graph.checkEdge number edge
  return { graph with
    edges := graph.edges.push edge
    leaving := graph.leaving.add edge.source number
    entering := graph.entering.add edge.target number }

/-- Add edges one after the other, up to the first that cannot be. -/
def connectAll (graph : PortGraph) : List Edge → Except GraphError PortGraph
  | [] => .ok graph
  | edge :: rest =>
    match graph.connect edge with
    | .ok next => next.connectAll rest
    | .error error => .error error

/-- The graph of a plan and a list of edges. -/
def build (plan : GraphPlan) (edges : List Edge) : Except GraphError PortGraph :=
  (ofPlan plan).connectAll edges

end PortGraph

/-! ## Putting a graph together -/

/-- A graph in the making.  Its edges are looked at when it is built, and not before. -/
structure GraphBuilder where
  root : String
  rootSpan : Span
  generators : List Symbol
  inputs : List String
  outputs : List String
  nodes : Array Node
  edges : Array Edge
  instances : Array Instance

namespace GraphBuilder

/-- Nothing but a root with its ports. -/
def new (root : String) (inputs outputs : List String) : GraphBuilder :=
  ⟨root, ⟨0, 0⟩, [], inputs, outputs, #[], #[], #[]⟩

def withGenerators (builder : GraphBuilder) (generators : List Symbol) : GraphBuilder :=
  { builder with generators }

def withRootSpan (builder : GraphBuilder) (rootSpan : Span) : GraphBuilder :=
  { builder with rootSpan }

/-- The number of the new node goes to the caller, who needs it for edges. -/
def addNode (builder : GraphBuilder) (node : Node) : Nat × GraphBuilder :=
  (builder.nodes.size, { builder with nodes := builder.nodes.push node })

def addEdge (builder : GraphBuilder) (edge : Edge) : GraphBuilder :=
  { builder with edges := builder.edges.push edge }

def addInstance (builder : GraphBuilder) (added : Instance) : GraphBuilder :=
  { builder with instances := builder.instances.push added }

/-- What the graph will be but for its edges. -/
def plan (builder : GraphBuilder) : GraphPlan where
  root := builder.root
  rootSpan := builder.rootSpan
  generators := builder.generators
  inputs := builder.inputs
  outputs := builder.outputs
  nodes := builder.nodes
  instances := builder.instances.toList

/-- The graph, unless an edge does not fit the nodes. -/
def build (builder : GraphBuilder) : Except GraphError PortGraph :=
  PortGraph.build builder.plan builder.edges.toList

theorem foldl_addNode (nodes : List Node) (builder : GraphBuilder) :
    nodes.foldl (fun builder node => (builder.addNode node).2) builder =
      { builder with nodes := builder.nodes ++ nodes } := by
  induction nodes generalizing builder with
  | nil => simp
  | cons node rest ih =>
      rw [List.foldl_cons, ih]
      simp [addNode]

theorem foldl_addEdge (edges : List Edge) (builder : GraphBuilder) :
    edges.foldl addEdge builder = { builder with edges := builder.edges ++ edges } := by
  induction edges generalizing builder with
  | nil => simp
  | cons edge rest ih => simp [ih, addEdge]

theorem foldl_addInstance (instances : List Instance) (builder : GraphBuilder) :
    instances.foldl addInstance builder =
      { builder with instances := builder.instances ++ instances } := by
  induction instances generalizing builder with
  | nil => simp
  | cons added rest ih => simp [ih, addInstance]

end GraphBuilder

/-! ## Looking around -/

namespace PortGraph

/-- The numbers of the edges that start at an endpoint, in increasing order. -/
def outgoing (graph : PortGraph) (source : Endpoint) : List Nat :=
  match source.vertex with
  | .inputs => Incidence.at? graph.leaving.root source.port
  | .outputs => []
  | .node id => Incidence.at? (graph.leaving.nodes[id]?.getD []) source.port

/-- The numbers of the edges that end at an endpoint, in increasing order. -/
def incoming (graph : PortGraph) (target : Endpoint) : List Nat :=
  match target.vertex with
  | .inputs => []
  | .outputs => Incidence.at? graph.entering.root target.port
  | .node id => Incidence.at? (graph.entering.nodes[id]?.getD []) target.port

/-- The targets of the edges that start at an endpoint. -/
def successors (graph : PortGraph) (source : Endpoint) : List Endpoint :=
  (graph.outgoing source).filterMap fun edge => graph.edges[edge]?.map (·.target)

/-- The sources of the edges that end at an endpoint. -/
def predecessors (graph : PortGraph) (target : Endpoint) : List Endpoint :=
  (graph.incoming target).filterMap fun edge => graph.edges[edge]?.map (·.source)

/-- The number of the first node whose written path is `path`. -/
def nodeByPath? (graph : PortGraph) (path : String) : Option Nat :=
  graph.nodes.findIdx? fun node => pathText node.provenance.path == path

def truncatedCount (graph : PortGraph) : Nat :=
  graph.nodes.toList.countP Node.isTruncated

end PortGraph

end FlowDiagram

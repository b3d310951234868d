import FlowDiagram.Signature.Inference

/-!
# Relabelled graphs

A graph is put together, checked and wired by its ports and edges alone.  Whatever else is changed
of its nodes and its plan, the same edges fit, the same ports are connected, and the same wires run
between them, at the sites of the changed nodes.
-/

namespace FlowDiagram

/-- The primitive of a node that is not cut off. -/
def NodeKind.primitive? : NodeKind → Option Primitive
  | .primitive box => some box
  | .truncated .. => none

/-- A change to a plan, to its nodes and to their primitives that leaves all ports alone. -/
structure Relabelling where
  plan : GraphPlan → GraphPlan
  node : Node → Node
  primitive : Primitive → Primitive
  inputs : ∀ before, (plan before).inputs = before.inputs
  outputs : ∀ before, (plan before).outputs = before.outputs
  nodes : ∀ before, (plan before).nodes = before.nodes.map node
  nodeInputs : ∀ before, (node before).inputs = before.inputs
  nodeOutputs : ∀ before, (node before).outputs = before.outputs
  kinds : ∀ before, (node before).kind.primitive? = before.kind.primitive?.map primitive

/-- A fault with the node that has it changed. -/
def ConnectionFault.mapNode (change : Node → Node) : ConnectionFault → ConnectionFault
  | .nodeInput id node port edges => .nodeInput id (change node) port edges
  | .nodeOutput id node port => .nodeOutput id (change node) port
  | .rootInput port => .rootInput port
  | .rootOutput port edges => .rootOutput port edges

def ConnectionError.mapNode (change : Node → Node) : ConnectionError → ConnectionError
  | .deadline => .deadline
  | .faults found => .faults (found.map (ConnectionFault.mapNode change))

namespace Relabelling

variable (how : Relabelling)

/-- The graph of the changed plan, with the same edges. -/
def graph (graph : PortGraph) : PortGraph :=
  { graph with toGraphPlan := how.plan graph.toGraphPlan }

theorem getElem?_nodes (plan : GraphPlan) (id : Nat) :
    (how.plan plan).nodes[id]? = plan.nodes[id]?.map how.node := by
  rw [how.nodes, Array.getElem?_map]

theorem toList_nodes (plan : GraphPlan) :
    (how.plan plan).nodes.toList = plan.nodes.toList.map how.node := by
  rw [how.nodes, Array.toList_map]

theorem size_nodes (plan : GraphPlan) : (how.plan plan).nodes.size = plan.nodes.size := by
  rw [how.nodes, Array.size_map]

/-! ## Putting a graph together -/

theorem sourcePorts (plan : GraphPlan) (number : Nat) (vertex : Vertex) :
    (how.plan plan).sourcePorts number vertex = plan.sourcePorts number vertex := by
  cases vertex with
  | inputs => simp only [GraphPlan.sourcePorts, how.inputs]
  | outputs => rfl
  | node id =>
      rw [GraphPlan.sourcePorts, GraphPlan.sourcePorts, how.getElem?_nodes]
      cases plan.nodes[id]? with
      | none => rfl
      | some node =>
          exact congrArg (fun ports => Except.ok (List.length ports)) (how.nodeOutputs node)

theorem targetPorts (plan : GraphPlan) (number : Nat) (vertex : Vertex) :
    (how.plan plan).targetPorts number vertex = plan.targetPorts number vertex := by
  cases vertex with
  | inputs => rfl
  | outputs => simp only [GraphPlan.targetPorts, how.outputs]
  | node id =>
      rw [GraphPlan.targetPorts, GraphPlan.targetPorts, how.getElem?_nodes]
      cases plan.nodes[id]? with
      | none => rfl
      | some node =>
          exact congrArg (fun ports => Except.ok (List.length ports)) (how.nodeInputs node)

theorem connect (graph : PortGraph) (edge : Edge) :
    (how.graph graph).connect edge = (graph.connect edge).map how.graph := by
  have checked : (how.graph graph).checkEdge graph.edges.size edge =
      graph.checkEdge graph.edges.size edge := by
    unfold GraphPlan.checkEdge
    simp only [Relabelling.graph, how.sourcePorts, how.targetPorts]
  unfold PortGraph.connect
  dsimp only
  rw [show (how.graph graph).edges = graph.edges from rfl, checked]
  cases graph.checkEdge graph.edges.size edge <;> rfl

theorem connectAll (graph : PortGraph) (edges : List Edge) :
    (how.graph graph).connectAll edges = (graph.connectAll edges).map how.graph := by
  induction edges generalizing graph with
  | nil => rfl
  | cons edge rest ih =>
      rw [PortGraph.connectAll, PortGraph.connectAll, how.connect]
      cases graph.connect edge with
      | error error => rfl
      | ok next => exact ih next

/-- Edges fit the changed plan or not, as they did before. -/
theorem build (plan : GraphPlan) (edges : List Edge) :
    PortGraph.build (how.plan plan) edges = (PortGraph.build plan edges).map how.graph := by
  have outset : PortGraph.ofPlan (how.plan plan) = how.graph (.ofPlan plan) := by
    simp only [PortGraph.ofPlan, Relabelling.graph, how.size_nodes]
  rw [PortGraph.build, outset, how.connectAll, PortGraph.build]

/-! ## Judging the connections -/

theorem portFaults {judge other : Nat → String → Option ConnectionFault}
    (same : ∀ port name, other port name = (judge port name).map (ConnectionFault.mapNode how.node))
    (names : List String) :
    PortGraph.portFaults other names =
      (PortGraph.portFaults judge names).map (ConnectionFault.mapNode how.node) := by
  simp [PortGraph.portFaults, List.map_filterMap, same]

theorem nodeFaults (graph : PortGraph) (id : Nat) (node : Node) :
    (how.graph graph).nodeFaults id (how.node node) =
      (graph.nodeFaults id node).map (ConnectionFault.mapNode how.node) := by
  have incoming : (how.graph graph).incoming = graph.incoming := rfl
  have outgoing : (how.graph graph).outgoing = graph.outgoing := rfl
  unfold PortGraph.nodeFaults
  rw [List.map_append, incoming, outgoing, how.nodeInputs, how.nodeOutputs]
  congr 1
  · refine how.portFaults (fun port name => ?_) _
    dsimp only
    split <;> rfl
  · refine how.portFaults (fun port name => ?_) _
    split <;> rfl

theorem rootFaults (graph : PortGraph) :
    (how.graph graph).rootFaults =
      graph.rootFaults.map (ConnectionFault.mapNode how.node) := by
  have incoming : (how.graph graph).incoming = graph.incoming := rfl
  have outgoing : (how.graph graph).outgoing = graph.outgoing := rfl
  have inputs : (how.graph graph).inputs = graph.inputs := how.inputs graph.toGraphPlan
  have outputs : (how.graph graph).outputs = graph.outputs := how.outputs graph.toGraphPlan
  unfold PortGraph.rootFaults
  rw [List.map_append, incoming, outgoing, inputs, outputs]
  congr 1
  · refine how.portFaults (fun port name => ?_) _
    split <;> rfl
  · refine how.portFaults (fun port name => ?_) _
    dsimp only
    split <;> rfl

theorem connectionFaults (graph : PortGraph) :
    (how.graph graph).connectionFaults =
      graph.connectionFaults.map (ConnectionFault.mapNode how.node) := by
  have nodes : (how.graph graph).nodes.toList = graph.nodes.toList.map how.node :=
    how.toList_nodes graph.toGraphPlan
  unfold PortGraph.connectionFaults
  rw [List.map_append, how.rootFaults, nodes, List.zipIdx_map, List.flatMap_map, List.map_flatMap]
  simp only [Prod.map, id, how.nodeFaults]

/-- The same ports are found not to be connected. -/
theorem checkConnections (graph : PortGraph) (expired : Bool) :
    (how.graph graph).checkConnections expired =
      (graph.checkConnections expired).mapError (ConnectionError.mapNode how.node) := by
  have nodes : (how.graph graph).nodes.isEmpty = graph.nodes.isEmpty := by
    simp [Relabelling.graph, Array.isEmpty, how.size_nodes]
  unfold PortGraph.checkConnections
  rw [nodes, how.connectionFaults]
  split
  · rfl
  · cases graph.connectionFaults <;> rfl

/-! ## Wires -/

theorem sources (graph : PortGraph) : (how.graph graph).sources = graph.sources := by
  have nodes : (how.graph graph).nodes.toList = graph.nodes.toList.map how.node :=
    how.toList_nodes graph.toGraphPlan
  have inputs : (how.graph graph).inputs = graph.inputs := how.inputs graph.toGraphPlan
  rw [PortGraph.sources, nodes, inputs, List.zipIdx_map, List.flatMap_map]
  simp only [Prod.map, id, how.nodeOutputs]
  rfl

theorem wireStarts (graph : PortGraph) : (how.graph graph).wireStarts = graph.wireStarts := by
  have nodes : (how.graph graph).nodes.toList = graph.nodes.toList.map how.node :=
    how.toList_nodes graph.toGraphPlan
  have inputs : (how.graph graph).inputs = graph.inputs := how.inputs graph.toGraphPlan
  have starts : ∀ (nodes : List Node) (next : Wire),
      PortGraph.firstWires next (nodes.map how.node) = PortGraph.firstWires next nodes := by
    intro nodes
    induction nodes with
    | nil => intro next; rfl
    | cons node rest ih =>
        intro next
        rw [List.map_cons, PortGraph.firstWires, PortGraph.firstWires, how.nodeOutputs, ih]
  rw [PortGraph.wireStarts, nodes, inputs, starts]
  rfl

theorem wire? (graph : PortGraph) (starts : Array Wire) (source : Endpoint) :
    (how.graph graph).wire? starts source = graph.wire? starts source := by
  obtain ⟨vertex, port⟩ := source
  have inputs : (how.graph graph).inputs = graph.inputs := how.inputs graph.toGraphPlan
  have found (id : Nat) : (how.graph graph).nodes[id]? = graph.nodes[id]?.map how.node :=
    how.getElem?_nodes graph.toGraphPlan id
  cases vertex with
  | inputs => simp only [PortGraph.wire?, inputs]
  | outputs => rfl
  | node id =>
      simp only [PortGraph.wire?, found]
      cases graph.nodes[id]? with
      | none => rfl
      | some node => cases starts[id]? <;> simp [how.nodeOutputs]

theorem feedingWire? (graph : PortGraph) (starts : Array Wire) (target : Endpoint) :
    (how.graph graph).feedingWire? starts target = graph.feedingWire? starts target := by
  have wires : (how.graph graph).wire? starts = graph.wire? starts :=
    funext (how.wire? graph starts)
  rw [PortGraph.feedingWire?, wires]
  rfl

/-! ## Sites -/

/-- The site of the changed node. -/
def site (site : Site) : Site :=
  { site with
    node := how.node site.node
    primitive := how.primitive site.primitive }

theorem site? (graph : PortGraph) (starts : Array Wire) (id : Nat) (node : Node) :
    (how.graph graph).site? starts id (how.node node) =
      (graph.site? starts id node).map how.site := by
  have kinds := how.kinds node
  have wire : (how.graph graph).wire? starts = graph.wire? starts :=
    funext (how.wire? graph starts)
  have feedingWire : (how.graph graph).feedingWire? starts = graph.feedingWire? starts :=
    funext (how.feedingWire? graph starts)
  unfold PortGraph.site?
  rw [wire, feedingWire, how.nodeInputs, how.nodeOutputs]
  cases hkind : node.kind with
  | truncated definition generators =>
      cases hchanged : (how.node node).kind with
      | truncated _ _ => rfl
      | primitive _ => simp [hkind, hchanged, NodeKind.primitive?] at kinds
  | primitive primitive =>
      cases hchanged : (how.node node).kind with
      | truncated _ _ => simp [hkind, hchanged, NodeKind.primitive?] at kinds
      | primitive changed =>
          obtain rfl : changed = how.primitive primitive := by
            simpa [hkind, hchanged, NodeKind.primitive?] using kinds
          dsimp only
          split <;> rfl

/-- The sites of the changed graph are those of the changed nodes. -/
theorem sites (graph : PortGraph) : (how.graph graph).sites = graph.sites.map how.site := by
  have nodes : (how.graph graph).nodes.toList = graph.nodes.toList.map how.node :=
    how.toList_nodes graph.toGraphPlan
  rw [PortGraph.sites, how.wireStarts, nodes, List.zipIdx_map, List.filterMap_map,
    PortGraph.sites, List.map_filterMap]
  congr 1
  funext ⟨node, id⟩
  exact how.site? graph _ id node

end Relabelling

end FlowDiagram

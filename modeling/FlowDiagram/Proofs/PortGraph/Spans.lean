import FlowDiagram.Connection
import FlowDiagram.Dot
import FlowDiagram.Json.Forms
import FlowDiagram.PortGraph.Print
import FlowDiagram.Proofs.PortGraph.Relabelling
import FlowDiagram.Proofs.Resolution.Spans

/-!
# Port graphs without spans

The nodes and the root of a graph keep spans for the sake of diagnostics.  A graph is put together,
looked at, judged and shown in the same way without them.
-/

namespace FlowDiagram

def Provenance.withoutSpan (provenance : Provenance) : Provenance :=
  { provenance with span := .nowhere }

def Node.withoutSpan (node : Node) : Node :=
  { node with provenance := node.provenance.withoutSpan }

def GraphPlan.withoutSpans (plan : GraphPlan) : GraphPlan :=
  { plan with
    rootSpan := .nowhere
    nodes := plan.nodes.map Node.withoutSpan }

def PortGraph.withoutSpans (graph : PortGraph) : PortGraph :=
  { graph with toGraphPlan := graph.toGraphPlan.withoutSpans }

/-- The relabelling that takes the spans away. -/
def Relabelling.spanless : Relabelling where
  plan := GraphPlan.withoutSpans
  node := Node.withoutSpan
  primitive := id
  inputs _ := rfl
  outputs _ := rfl
  nodes _ := rfl
  nodeInputs _ := rfl
  nodeOutputs _ := rfl
  kinds _ := (congrFun Option.map_id _).symm

/-! ## Showing a graph -/

namespace PortGraph

variable (graph : PortGraph)

theorem getElem?_nodes_withoutSpans (id : Nat) :
    graph.withoutSpans.nodes[id]? = graph.nodes[id]?.map Node.withoutSpan :=
  Relabelling.spanless.getElem?_nodes graph.toGraphPlan id

/-- Whatever is told of every node by itself. -/
theorem mapIdx_nodes_withoutSpans {α : Type} {tell : Nat → Node → α}
    (same : ∀ id node, tell id node.withoutSpan = tell id node) :
    graph.withoutSpans.nodes.mapIdx tell = graph.nodes.mapIdx tell := by
  refine Array.ext_getElem? fun id => ?_
  rw [Array.getElem?_mapIdx, Array.getElem?_mapIdx, getElem?_nodes_withoutSpans, Option.map_map]
  simp only [Function.comp_def, same]

theorem text_withoutSpans : graph.withoutSpans.text = graph.text := by
  have source : ∀ endpoint, graph.withoutSpans.sourceText endpoint = graph.sourceText endpoint := by
    rintro ⟨vertex, port⟩
    cases vertex with
    | node id =>
        simp only [sourceText, getElem?_nodes_withoutSpans, Option.map_map]
        rfl
    | _ => rfl
  have target : ∀ endpoint, graph.withoutSpans.targetText endpoint = graph.targetText endpoint := by
    rintro ⟨vertex, port⟩
    cases vertex with
    | node id =>
        simp only [targetText, getElem?_nodes_withoutSpans, Option.map_map]
        rfl
    | _ => rfl
  have edgeLine : graph.withoutSpans.edgeLine = graph.edgeLine := by
    funext edge
    rw [PortGraph.edgeLine, source, target, PortGraph.edgeLine]
  rw [text, mapIdx_nodes_withoutSpans graph fun id node => rfl, edgeLine]
  rfl

theorem datum_withoutSpans : graph.withoutSpans.datum = graph.datum := by
  rw [datum, mapIdx_nodes_withoutSpans graph fun id node => rfl]
  rfl

theorem json_withoutSpans : graph.withoutSpans.json = graph.json := by
  simp only [json, datum_withoutSpans]

end PortGraph

/-! ## Drawing a graph -/

namespace Dot

/-- The same place for something else. -/
def Placed.map {α β : Type} (tell : α → β) (place : Placed α) : Placed β :=
  ⟨place.scope, tell place.content⟩

theorem within_map {α β : Type} (tell : α → β) (name : String) (placed : List (Placed α)) :
    within name (placed.map (Placed.map tell)) = (within name placed).map (Placed.map tell) := by
  unfold within
  rw [List.filterMap_map, List.map_filterMap]
  congr 1
  funext ⟨scope, content⟩
  cases scope with
  | nil => rfl
  | cons step rest =>
      simp only [Function.comp_apply, Placed.map]
      split <;> rfl

theorem here_map {α β : Type} (tell : α → β) (placed : List (Placed α)) :
    here (placed.map (Placed.map tell)) = (here placed).map tell := by
  simp [here, List.filter_map, Function.comp_def, Placed.map]

theorem boxNames_map (tell : Nat × Node → Nat × Node) (nodes : List (Placed (Nat × Node))) :
    boxNames (nodes.map (Placed.map tell)) = boxNames nodes := by
  simp [boxNames, List.filterMap_map, Function.comp_def, Placed.map]

/-- A node in its place, without its span. -/
def spanless : Nat × Node → Nat × Node
  | (id, node) => (id, node.withoutSpan)

theorem boxLines_spanless (depth : Nat) (indent : String) (path : List String)
    (definitions : List (Placed String)) (nodes : List (Placed (Nat × Node))) :
    boxLines depth indent path definitions (nodes.map (Placed.map spanless)) =
      boxLines depth indent path definitions nodes := by
  induction depth generalizing indent path definitions nodes with
  | zero =>
      rw [boxLines, boxLines, here_map, List.map_map]
      rfl
  | succ depth ih =>
      rw [boxLines, boxLines, boxNames_map, here_map, List.map_map]
      simp only [within_map, ih]
      rfl

/-- The nodes of a graph in their boxes. -/
def placedNodes (graph : PortGraph) : List (Placed (Nat × Node)) :=
  graph.nodes.toList.zipIdx.map fun (node, id) => placedNode id node

theorem placedNodes_withoutSpans (graph : PortGraph) :
    placedNodes graph.withoutSpans = (placedNodes graph).map (Placed.map spanless) := by
  simp [placedNodes, PortGraph.withoutSpans, GraphPlan.withoutSpans, List.zipIdx_map,
    Function.comp_def, placedNode, Placed.map, spanless, Node.withoutSpan,
    Provenance.withoutSpan]

theorem nodeLines_withoutSpans (graph : PortGraph) :
    nodeLines graph.withoutSpans = nodeLines graph := by
  have depth : ((placedNodes graph).map (Placed.map spanless)).map (·.scope.length) =
      (placedNodes graph).map (·.scope.length) := by
    rw [List.map_map]
    rfl
  change boxLines (((placedNodes graph.withoutSpans).map (·.scope.length)).foldl max 0) _ _ _
    (placedNodes graph.withoutSpans) = _
  rw [placedNodes_withoutSpans, depth, boxLines_spanless]
  rfl

theorem edgeLine_withoutSpans (graph : PortGraph) :
    edgeLine graph.withoutSpans = edgeLine graph := by
  have tail : ∀ endpoint, tailName? graph.withoutSpans endpoint = tailName? graph endpoint := by
    rintro ⟨vertex, port⟩
    cases vertex with
    | node id =>
        simp only [tailName?, graph.getElem?_nodes_withoutSpans, Option.bind_map]
        rfl
    | _ => rfl
  have head : ∀ endpoint, headName? graph.withoutSpans endpoint = headName? graph endpoint := by
    rintro ⟨vertex, port⟩
    cases vertex with
    | node id =>
        simp only [headName?, graph.getElem?_nodes_withoutSpans, Option.bind_map]
        rfl
    | _ => rfl
  have attributes : edgeAttributes graph.withoutSpans = edgeAttributes graph := by
    funext edge
    simp only [edgeAttributes, tail, head]
  unfold edgeLine
  rw [attributes]

end Dot

theorem PortGraph.dot_withoutSpans (graph : PortGraph) (signature : Option Signature) :
    graph.withoutSpans.dot signature = graph.dot signature := by
  rw [dot, Dot.nodeLines_withoutSpans, Dot.edgeLine_withoutSpans]
  rfl

/-! ## Judging the connections -/

def ConnectionFault.withoutSpans : ConnectionFault → ConnectionFault
  | .nodeInput id node port edges => .nodeInput id node.withoutSpan port edges
  | .nodeOutput id node port => .nodeOutput id node.withoutSpan port
  | .rootInput port => .rootInput port
  | .rootOutput port edges => .rootOutput port edges

def ConnectionError.withoutSpans : ConnectionError → ConnectionError
  | .deadline => .deadline
  | .faults found => .faults (found.map ConnectionFault.withoutSpans)

theorem ConnectionError.mapNode_spanless (error : ConnectionError) :
    error.mapNode Node.withoutSpan = error.withoutSpans := by
  have same : ConnectionFault.mapNode Node.withoutSpan = ConnectionFault.withoutSpans := by
    funext fault
    cases fault <;> rfl
  cases error with
  | deadline => rfl
  | faults found => rw [mapNode, same, withoutSpans]

/-- The same ports are found not to be connected. -/
theorem PortGraph.checkConnections_withoutSpans (graph : PortGraph) (expired : Bool) :
    graph.withoutSpans.checkConnections expired =
      (graph.checkConnections expired).mapError ConnectionError.withoutSpans := by
  have same : ConnectionError.withoutSpans = ConnectionError.mapNode Node.withoutSpan :=
    funext fun error => error.mapNode_spanless.symm
  rw [same]
  exact Relabelling.spanless.checkConnections graph expired

theorem ConnectionError.diagnostics_withoutSpans (graph : PortGraph) (error : ConnectionError) :
    error.withoutSpans.diagnostics graph.withoutSpans =
      (error.diagnostics graph).map Diagnostic.withoutPlaces := by
  have each : ∀ fault : ConnectionFault, fault.withoutSpans.diagnostic graph.withoutSpans =
      (fault.diagnostic graph).withoutPlaces := by
    intro fault
    cases fault <;> rfl
  cases error with
  | deadline => rfl
  | faults found => simp [withoutSpans, diagnostics, each, Function.comp_def]

end FlowDiagram

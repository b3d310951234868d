import FlowDiagram.Proofs.Dot.Balance
import FlowDiagram.Proofs.Dot.Contents

/-!
# Graphs from their drawings

The drawing of a port graph is read as one that shows the graph: each of its ports on the margins
and each of its nodes is stated once, the nodes in nested blocks that stand for the paths that they
lie in, and the edges are stated in order, with their ends and the names of the ports there.
-/

namespace FlowDiagram

/-! ## Ends -/

/-- Where an edge starts or ends, but for the port of a node. -/
def Endpoint.end (endpoint : Endpoint) : Dot.End :=
  match endpoint.vertex with
  | .inputs => .input endpoint.port
  | .outputs => .output endpoint.port
  | .node id => .node id

/-- The ports on the margins of a graph, and its nodes. -/
def PortGraph.ends (graph : PortGraph) : List Dot.End :=
  (List.range graph.inputs.length).map .input ++ (List.range graph.outputs.length).map .output ++
    (List.range graph.nodes.size).map .node

/-- A path below the root leads to where a node lies. -/
def PortGraph.Encloses (graph : PortGraph) (path : List String) : Prop :=
  path ≠ [] ∧ ∃ node ∈ graph.nodes.toList, path <+: node.provenance.path.dropLast

namespace Dot

/--
A drawing shows a graph with the types of its ports, if it is told which path each block stands for;
a block without a name stands for none.
-/
structure Shows (graph : PortGraph) (signature : Option Signature) (drawing : Drawing)
    (pathOf : Nat → List String) : Prop where
  name : labelText drawing.name = some graph.root
  /-- Each port on a margin and each node has one statement of its own, and nothing else has. -/
  ends : ((declared (drawing.located pathOf)).map fun vertex => End.ofId? vertex.id).Perm
    (graph.ends.map some)
  distinctEnds : graph.ends.Nodup
  inputs : ∀ port name, graph.inputs[port]? = some name →
    ∃ vertex ∈ declared (drawing.located pathOf), End.ofId? vertex.id = some (.input port) ∧
      vertex.scope = [] ∧ shown? vertex.attributes "label" =
        some (some (portText name (signature.bind (·.input? name))))
  outputs : ∀ port name, graph.outputs[port]? = some name →
    ∃ vertex ∈ declared (drawing.located pathOf), End.ofId? vertex.id = some (.output port) ∧
      vertex.scope = [] ∧ shown? vertex.attributes "label" =
        some (some (portText name (signature.bind (·.output? name))))
  /-- A node stands in the blocks of its path without the last step. -/
  nodes : ∀ id node, graph.nodes[id]? = some node →
    ∃ vertex ∈ declared (drawing.located pathOf), End.ofId? vertex.id = some (.node id) ∧
      vertex.scope = enclosing node.provenance.path.dropLast ∧
      shown? vertex.attributes "label" = some (some (nodeText node)) ∧
      shown? vertex.attributes "tooltip" = some (some (pathText node.provenance.path))
  /-- Several ports on a margin are put into a block without a name besides. -/
  mentions : (mentioned (drawing.located pathOf)).map
      (fun vertex => (vertex.scope, End.ofId? vertex.id)) =
    (if 1 < graph.inputs.length then
        (List.range graph.inputs.length).map fun port => ([[]], some (.input port)) else []) ++
      if 1 < graph.outputs.length then
        (List.range graph.outputs.length).map fun port => ([[]], some (.output port)) else []
  blocks : ∀ number block, drawing.blocks[number]? = some block →
    block.scope.map pathOf = enclosing (pathOf number).dropLast ∧
      block.name = if pathOf number = [] then none else some (blockName (pathOf number))
  /-- There is a block for each path that leads to where a node lies, and for no other. -/
  boxes : ∀ path ≠ [], (∃ number < drawing.blocks.length, pathOf number = path) ↔
    graph.Encloses path
  distinctBoxes : ∀ first < drawing.blocks.length, ∀ second < drawing.blocks.length,
    pathOf first ≠ [] → pathOf first = pathOf second → first = second
  labels : ∀ number < drawing.blocks.length, pathOf number ≠ [] →
    (((drawing.located pathOf).filterMap Located.label?).filter
        fun label => label.1 = enclosing (pathOf number)).map (fun label => labelText label.2) =
      [some (boxText (definitions graph) (pathOf number))]
  /-- The edges are stated in order, with the names of the ports where a node has several. -/
  edges : ((drawing.located pathOf).filterMap Located.edge?).map (fun edge =>
      (edge.scope, End.ofId? edge.tail, End.ofId? edge.head,
        shown? edge.attributes "taillabel", shown? edge.attributes "headlabel")) =
    graph.edges.toList.map fun edge =>
      ([], some edge.source.end, some edge.target.end,
        (tailName? graph edge.source).map some, (headName? graph edge.target).map some)

section Telling

variable {α β : Type} {located : α → Located} {tell : Located → Option β}

end Telling

theorem noDeeper_boxDepth (graph : PortGraph) : NoDeeper (boxDepth graph) (placedNodes graph) := by
  have most : ∀ (lengths : List Nat) (first : Nat), first ≤ lengths.foldl max first ∧
      ∀ length ∈ lengths, length ≤ lengths.foldl max first := by
    intro lengths
    induction lengths with
    | nil => simp
    | cons length rest ih =>
        intro first
        obtain ⟨start, each⟩ := ih (max first length)
        refine ⟨(Nat.le_max_left _ _).trans start, List.forall_mem_cons.mpr ⟨?_, each⟩⟩
        exact (Nat.le_max_right _ _).trans start
  intro place member
  exact (most _ 0).2 _ (List.mem_map_of_mem member)

section Given

variable {vertices : List VertexStatement}

end Given

section Declared

variable {graph : PortGraph} {port id : Nat} {name : String} {node : Node}

end Declared

theorem eq_of_mem_rankEntries {ids : List String} {entry : BlockEntry}
    (member : entry ∈ rankEntries ids) : entry = ⟨[], [], none⟩ := by
  unfold rankEntries at member
  split at member
  · exact List.mem_singleton.mp member
  · cases member

/-- The paths of the boxes that nodes lie in, in the order in which the boxes are drawn. -/
def boxPaths (graph : PortGraph) : List (List String) :=
  (nodeEntries (boxDepth graph) [] (placedNodes graph)).map (·.path)

theorem nodup_boxPaths (graph : PortGraph) : (boxPaths graph).Nodup :=
  nodup_paths_nodeEntries _ _ _

/-- A path has a box if it leads to where a node lies. -/
theorem mem_boxPaths {graph : PortGraph} {path : List String} :
    path ∈ boxPaths graph ↔ graph.Encloses path := by
  rw [boxPaths, mem_paths_nodeEntries (noDeeper_boxDepth graph)]
  constructor
  · rintro ⟨steps, some_, rfl, place, member, leads⟩
    obtain ⟨⟨node, id⟩, found, rfl⟩ := List.mem_map.mp member
    exact ⟨some_, node, List.fst_mem_of_mem_zipIdx found, leads⟩
  · rintro ⟨box, node, member, leads⟩
    obtain ⟨id, inside, found⟩ := List.mem_iff_getElem.mp member
    refine ⟨path, box, rfl, placedNode id node, List.mem_map.mpr ⟨(node, id), ?_, rfl⟩, leads⟩
    exact List.mem_zipIdx_iff_getElem?.mpr (found ▸ List.getElem?_eq_getElem inside)

theorem enclosing_injective {first second : List String}
    (same : enclosing first = enclosing second) : first = second := by
  have last : ∀ path : List String, path ≠ [] → (enclosing path).getLast? = some path := by
    intro path box
    rw [← List.dropLast_append_getLast box, enclosing_append, List.getLast?_concat]
  have length : first.length = second.length := by
    simpa [enclosing] using congrArg List.length same
  by_cases box : first = []
  · subst box
    exact (List.eq_nil_of_length_eq_zero length.symm).symm
  · have alsoBox : second ≠ [] := by
      rintro rfl
      exact box (List.eq_nil_of_length_eq_zero length)
    have lasts := congrArg List.getLast? same
    rw [last first box, last second alsoBox] at lasts
    exact Option.some.inj lasts

end Dot

/-! ## The graph recovered -/

end FlowDiagram

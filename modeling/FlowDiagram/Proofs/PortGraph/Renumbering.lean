import FlowDiagram.Proofs.PortGraph.Building
import Mathlib.Logic.Equiv.Defs

/-!
# Nodes under other numbers

The nodes of a graph can be put in another order.  Where the ends of the edges are moved along, the
same graph is built but for the numbers: the same sources feed the same targets in the same order.
-/

namespace FlowDiagram

/-! ## Moving ends -/

/-- The vertex of a graph in a graph where the node `id` is the node `place id`. -/
def Vertex.move (place : Nat → Nat) : Vertex → Vertex
  | .node id => .node (place id)
  | root => root

def Endpoint.move (place : Nat → Nat) (endpoint : Endpoint) : Endpoint :=
  { endpoint with vertex := endpoint.vertex.move place }

def Edge.move (place : Nat → Nat) (edge : Edge) : Edge :=
  ⟨edge.source.move place, edge.target.move place⟩

section

variable (place : Equiv.Perm Nat)

theorem Vertex.move_symm_move (vertex : Vertex) : (vertex.move place).move place.symm = vertex := by
  cases vertex <;> simp [Vertex.move]

theorem Endpoint.move_symm_move (endpoint : Endpoint) :
    (endpoint.move place).move place.symm = endpoint := by
  simp [Endpoint.move, Vertex.move_symm_move]

theorem Endpoint.move_injective : Function.Injective (Endpoint.move place) :=
  Function.LeftInverse.injective (Endpoint.move_symm_move place)

theorem Edge.move_symm_move (edge : Edge) : (edge.move place).move place.symm = edge := by
  simp [Edge.move, Endpoint.move_symm_move]

end

/-! ## Plans -/

/-- A plan with the same boundary, and the same nodes under other numbers. -/
structure GraphPlan.Renumbered (plan other : GraphPlan) (place : Equiv.Perm Nat) : Prop where
  inputs : other.inputs = plan.inputs
  outputs : other.outputs = plan.outputs
  nodes : ∀ id : Nat, other.nodes[place id]? = plan.nodes[id]?

namespace GraphPlan.Renumbered

variable {plan other : GraphPlan} {place : Equiv.Perm Nat}

theorem symm (renumbered : plan.Renumbered other place) : other.Renumbered plan place.symm where
  inputs := renumbered.inputs.symm
  outputs := renumbered.outputs.symm
  nodes id := by rw [← renumbered.nodes, Equiv.apply_symm_apply]

theorem hasSource_iff (renumbered : plan.Renumbered other place) {source : Endpoint} :
    other.HasSource (source.move place) ↔ plan.HasSource source := by
  obtain ⟨vertex, port⟩ := source
  cases vertex with
  | inputs => simp [HasSource, Endpoint.move, Vertex.move, renumbered.inputs]
  | outputs => simp [HasSource, Endpoint.move, Vertex.move]
  | node id => simp [HasSource, Endpoint.move, Vertex.move, renumbered.nodes]

theorem hasTarget_iff (renumbered : plan.Renumbered other place) {target : Endpoint} :
    other.HasTarget (target.move place) ↔ plan.HasTarget target := by
  obtain ⟨vertex, port⟩ := target
  cases vertex with
  | inputs => simp [HasTarget, Endpoint.move, Vertex.move]
  | outputs => simp [HasTarget, Endpoint.move, Vertex.move, renumbered.outputs]
  | node id => simp [HasTarget, Endpoint.move, Vertex.move, renumbered.nodes]

end GraphPlan.Renumbered

/-! ## Graphs -/

namespace PortGraph

/-- A graph with the same nodes under other numbers, and the same edges in the same order. -/
structure Renumbered (graph other : PortGraph) (place : Equiv.Perm Nat) : Prop where
  plan : graph.toGraphPlan.Renumbered other.toGraphPlan place
  edges : other.edges.toList = graph.edges.toList.map (Edge.move place)
  indexed : graph.Indexed
  otherIndexed : other.Indexed

variable {graph other : PortGraph} {place : Equiv.Perm Nat}

theorem Renumbered.symm (renumbered : graph.Renumbered other place) :
    other.Renumbered graph place.symm where
  plan := renumbered.plan.symm
  edges := by
    rw [renumbered.edges, List.map_map]
    exact (List.map_id'' (Edge.move_symm_move place) _).symm
  indexed := renumbered.otherIndexed
  otherIndexed := renumbered.indexed

/-- What can be built can be built with the nodes under other numbers. -/
theorem build_renumbered {plan otherPlan : GraphPlan} {edges : List Edge}
    (built : build plan edges = .ok graph) (renumbered : plan.Renumbered otherPlan place) :
    ∃ other, build otherPlan (edges.map (Edge.move place)) = .ok other ∧
      graph.Renumbered other place := by
  obtain ⟨same, listed, fit⟩ := build_eq_ok built
  have fitThere : ∀ edge ∈ edges.map (Edge.move place), otherPlan.Fits edge := by
    intro edge member
    obtain ⟨edge, inside, rfl⟩ := List.mem_map.mp member
    obtain ⟨source, target⟩ := fit edge inside
    exact ⟨renumbered.hasSource_iff.mpr source, renumbered.hasTarget_iff.mpr target⟩
  obtain ⟨other, builtThere⟩ := build_ok_iff.mpr fitThere
  obtain ⟨sameThere, listedThere, -⟩ := build_eq_ok builtThere
  refine ⟨other, builtThere, ?_, ?_, build_indexed built, build_indexed builtThere⟩
  · rwa [same, sameThere]
  · rw [listed, listedThere]

/-- The same sources feed a target in the same order. -/
theorem Renumbered.predecessors_move (renumbered : graph.Renumbered other place)
    (target : Endpoint) :
    other.predecessors (target.move place) =
      (graph.predecessors target).map (Endpoint.move place) := by
  have sameEnd (edge : Edge) :
      (edge.move place).target = target.move place ↔ edge.target = target :=
    (Endpoint.move_injective place).eq_iff
  rw [renumbered.otherIndexed.predecessors_eq, renumbered.indexed.predecessors_eq,
    renumbered.edges, List.filter_map, List.map_map, List.map_map]
  simp only [Function.comp_def, sameEnd]
  rfl

end PortGraph

end FlowDiagram

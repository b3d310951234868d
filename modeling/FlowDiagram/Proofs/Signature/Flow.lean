import FlowDiagram.PortGraph
import Mathlib.Data.Set.Finite.List

/-!
# Flows

A flow of a port graph gives each wire the set of symbols that pass along it.  A wire starts at a
source and goes on to all targets that an edge joins to it.  Every primitive has its law, and a
truncated node has none.
-/

namespace FlowDiagram

/-- What a primitive makes of the flows that go in: the law between the flows at its ports. -/
def Primitive.Lawful : Primitive → List (Set Symbol) → List (Set Symbol) → Prop
  | .add symbol, [input], [output] => symbol ∉ input ∧ output = insert symbol input
  | .remove symbol, [input], [output] => symbol ∈ input ∧ output = input \ {symbol}
  | .spawn symbol, [input], [output] => output = insert symbol input
  | .union _, inputs, [output] | .join, inputs, [output] =>
    output = {symbol | ∃ input ∈ inputs, symbol ∈ input}
  | .split, [input], [first, second] => first = input ∧ second = input
  | _, _, _ => False

/-- A law still holds when no symbols count but some that include the primitive's own. -/
theorem Primitive.Lawful.inter {primitive : Primitive} {inputs outputs : List (Set Symbol)}
    (lawful : primitive.Lawful inputs outputs) {named : Set Symbol}
    (own : ∀ symbol, primitive.symbol? = some symbol → symbol ∈ named) :
    primitive.Lawful (inputs.map (· ∩ named)) (outputs.map (· ∩ named)) := by
  have union : ∀ output : Set Symbol, output = {symbol | ∃ input ∈ inputs, symbol ∈ input} →
      output ∩ named = {symbol | ∃ input ∈ inputs.map (· ∩ named), symbol ∈ input} := by
    rintro output rfl
    ext symbol
    simp only [Set.mem_inter_iff, Set.mem_ofPred_eq, List.mem_map, exists_exists_and_eq_and]
    exact ⟨fun ⟨⟨input, member, there⟩, counts⟩ => ⟨input, member, there, counts⟩,
      fun ⟨input, member, there, counts⟩ => ⟨⟨input, member, there⟩, counts⟩⟩
  unfold Primitive.Lawful at lawful
  split at lawful
  · obtain ⟨absent, rfl⟩ := lawful
    exact ⟨fun present => absent present.1, Set.insert_inter_of_mem (own _ rfl)⟩
  · obtain ⟨present, rfl⟩ := lawful
    exact ⟨⟨present, own _ rfl⟩, Set.sdiff_inter_right_comm _ _ _⟩
  · subst lawful
    exact Set.insert_inter_of_mem (own _ rfl)
  · exact union _ lawful
  · exact union _ lawful
  · obtain ⟨rfl, rfl⟩ := lawful
    exact ⟨rfl, rfl⟩
  · exact lawful.elim

namespace PortGraph

/-- The symbols that reach a target along the edges that end there. -/
def received (graph : PortGraph) (carried : Endpoint → Set Symbol) (target : Endpoint) :
    Set Symbol :=
  {symbol | ∃ edge ∈ graph.edges, edge.target = target ∧ symbol ∈ carried edge.source}

/-- The symbols carried from each source obey the law of every primitive of a graph. -/
def Flow (graph : PortGraph) (carried : Endpoint → Set Symbol) : Prop :=
  ∀ (id : Nat) (node : Node) (primitive : Primitive),
    graph.nodes[id]? = some node → node.kind = .primitive primitive →
    primitive.Lawful
      ((List.range node.inputs.length).map fun port => graph.received carried (.node id port))
      ((List.range node.outputs.length).map fun port => carried (.node id port))

/-- The symbols on which the primitives of a graph act. -/
def named (graph : PortGraph) : List Symbol :=
  graph.nodes.toList.filterMap fun node =>
    match node.kind with
    | .primitive box => box.symbol?
    | .truncated .. => none

theorem received_inter (graph : PortGraph) (carried : Endpoint → Set Symbol) (target : Endpoint)
    (named : Set Symbol) :
    graph.received (fun source => carried source ∩ named) target =
      graph.received carried target ∩ named := by
  ext symbol
  simp only [received, Set.mem_ofPred_eq, Set.mem_inter_iff]
  constructor
  · rintro ⟨edge, member, ends, carries, counts⟩
    exact ⟨⟨edge, member, ends, carries⟩, counts⟩
  · rintro ⟨⟨edge, member, ends, carries⟩, counts⟩
    exact ⟨edge, member, ends, carries, counts⟩

/-- A flow is still one when no symbols count but some that the primitives act on among others. -/
theorem Flow.inter {graph : PortGraph} {carried : Endpoint → Set Symbol}
    (flow : graph.Flow carried) {counting : Set Symbol}
    (own : ∀ symbol ∈ graph.named, symbol ∈ counting) :
    graph.Flow fun source => carried source ∩ counting := by
  intro id node primitive found kind
  have acts : ∀ symbol, primitive.symbol? = some symbol → symbol ∈ counting := by
    intro symbol acts
    refine own symbol (List.mem_filterMap.mpr
      ⟨node, Array.mem_toList_iff.mpr (Array.mem_of_getElem? found), ?_⟩)
    rw [kind]
    exact acts
  have inter := (flow id node primitive found kind).inter acts
  simp only [List.map_map] at inter
  simp only [received_inter]
  exact inter

/-- A graph that has a flow has one along whose wires only finitely many symbols pass. -/
theorem Flow.exists_finite {graph : PortGraph} {carried : Endpoint → Set Symbol}
    (flow : graph.Flow carried) :
    ∃ finite : Endpoint → Set Symbol, graph.Flow finite ∧ ∀ source, (finite source).Finite :=
  ⟨fun source => carried source ∩ {symbol | symbol ∈ graph.named}, flow.inter fun _ => id,
    fun _ => (List.finite_toSet graph.named).subset Set.inter_subset_right⟩

end PortGraph

end FlowDiagram

import FlowDiagram.Proofs.Expansion.Unfolded
import FlowDiagram.Proofs.Signature.Wires
import FlowDiagram.Proofs.Unfolding.Paths

/-!
# Checked expansions

An expanded graph whose connections have been checked is connected: its primitive nodes have the
ports of their primitives, as the uses that they stand for do.
-/

namespace FlowDiagram

theorem Primitive.inputs_rename (bind : Symbol → Symbol) (box : Primitive) :
    (box.rename bind).inputs = box.inputs := by
  cases box <;> rfl

theorem Primitive.outputs_rename (bind : Symbol → Symbol) (box : Primitive) :
    (box.rename bind).outputs = box.outputs := by
  cases box <;> rfl

/-- Only the use of a primitive becomes a node of one. -/
theorem Scope.target_of_become {program : ResolvedProgram} {depth : Nat} {scope : Scope}
    {node : Node} {number next : Nat} {use : ResolvedUse} {primitive : Primitive}
    (become : scope.become program depth number use = some (.node node, next))
    (kind : node.kind = .primitive primitive) :
    ∃ box : Primitive, use.target = .primitive box ∧ primitive = box.rename scope.bind := by
  cases Scope.becomes_of_become become with
  | @primitive box target => exact ⟨box, target, (NodeKind.primitive.inj kind).symm⟩
  | truncated target found bound many => cases kind

variable {program : ResolvedProgram} {root : program.Index} {generators : Option (List Symbol)}
  {limits : UnfoldingLimits} {graph : PortGraph}

/-- A primitive node has the ports of its primitive. -/
theorem ResolvedProgram.nodes_fit_of_expand (sound : program.Sound)
    (expanded : program.expand root generators limits = .ok graph) {id : Nat} {node : Node}
    {primitive : Primitive} (found : graph.nodes[id]? = some node)
    (kind : node.kind = .primitive primitive) :
    node.inputs.length = primitive.inputs ∧ node.outputs.length = primitive.outputs ∧
      0 < primitive.inputs := by
  obtain ⟨binding, unfolding, -, shown⟩ := shown_of_expand sound expanded
  have placed : unfolding.nodes[id]? = some node := by
    rw [shown.plan] at found
    exact found
  obtain ⟨site, hsite⟩ := shown.traced.site_of_node placed
  obtain ⟨frame, use, before, after, other, huse, become, hother, -⟩ :=
    shown.traced.node_of_part (shown.traced.part_of_node hsite)
  obtain rfl : node = other := Option.some.inj (placed.symm.trans hother)
  obtain ⟨hframe, listed⟩ := Unfolding.use?_eq_some_iff.mp huse
  obtain ⟨box, htarget, rfl⟩ := Scope.target_of_become become kind
  obtain ⟨inputs, outputs, -⟩ := Scope.become_eq_node become
  have fits := (shown.traced.body_sound sound hframe).uses_fit use (List.mem_of_getElem? listed)
  rw [ResolvedUse.Fits, htarget] at fits
  rw [inputs, outputs, Primitive.inputs_rename, Primitive.outputs_rename]
  exact fits

theorem ResolvedProgram.connected_of_expand (sound : program.Sound)
    (expanded : program.expand root generators limits = .ok graph)
    (checked : graph.checkConnections false = .ok ()) : graph.Connected := by
  obtain ⟨binding, unfolding, -, shown⟩ := shown_of_expand sound expanded
  exact ⟨shown.indexed, shown.edges_fit, fun _ => PortGraph.fed_of_checkConnections checked,
    fun _ _ _ => nodes_fit_of_expand sound expanded⟩

end FlowDiagram

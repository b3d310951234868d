import FlowDiagram.Proofs.PortGraph.Building

/-!
# Constructing a port graph call by call

Nodes, edges and instances reach a builder in any order, and no edge is looked at before the graph
is built.  Then either all edges fit the nodes, and the graph finds at every endpoint just the
edges there; or some edge does not fit, and the error is about the first such.
-/

namespace FlowDiagram

/-! ## Errors -/

namespace GraphPlan

/-- The error that says why the edge number `number` cannot start at this endpoint. -/
def SourceFault (plan : GraphPlan) (number : Nat) (source : Endpoint) (error : GraphError) : Prop :=
  match source.vertex with
  | .inputs => plan.inputs.length ≤ source.port ∧ error = .portOutOfRange number source.port
  | .outputs => error = .startsAtOutput number
  | .node id =>
    plan.nodes[id]? = none ∧ error = .danglingNode number id ∨
      ∃ node, plan.nodes[id]? = some node ∧ node.outputs.length ≤ source.port ∧
        error = .portOutOfRange number source.port

/-- The error that says why the edge number `number` cannot end at this endpoint. -/
def TargetFault (plan : GraphPlan) (number : Nat) (target : Endpoint) (error : GraphError) : Prop :=
  match target.vertex with
  | .inputs => error = .targetsInput number
  | .outputs => plan.outputs.length ≤ target.port ∧ error = .portOutOfRange number target.port
  | .node id =>
    plan.nodes[id]? = none ∧ error = .danglingNode number id ∨
      ∃ node, plan.nodes[id]? = some node ∧ node.inputs.length ≤ target.port ∧
        error = .portOutOfRange number target.port

/-- What is wrong with an edge; its target is blamed only when its source is there. -/
def EdgeFault (plan : GraphPlan) (number : Nat) (edge : Edge) (error : GraphError) : Prop :=
  plan.SourceFault number edge.source error ∨
    plan.HasSource edge.source ∧ plan.TargetFault number edge.target error

variable {plan : GraphPlan} {number : Nat} {error : GraphError}

theorem checkPort_eq_error_iff {port declared : Nat} :
    checkPort number port declared = .error error ↔
      declared ≤ port ∧ error = .portOutOfRange number port := by
  unfold checkPort
  split
  · rename_i inside
    exact ⟨nofun, fun outside => absurd inside (Nat.not_lt.mpr outside.1)⟩
  · rename_i outside
    rw [Except.error.injEq, eq_comm]
    exact (and_iff_right (Nat.not_lt.mp outside)).symm

theorem error_bind_eq_error_iff {ports : Nat → Except GraphError Unit} {other : GraphError} :
    ((Except.error other : Except GraphError Nat) >>= ports) = .error error ↔ error = other :=
  (Except.error.injEq other error).to_iff.trans eq_comm

theorem source_error_iff (source : Endpoint) :
    (plan.sourcePorts number source.vertex >>= checkPort number source.port) = .error error ↔
      plan.SourceFault number source error := by
  unfold sourcePorts SourceFault
  cases source.vertex with
  | inputs => exact checkPort_eq_error_iff
  | outputs => exact error_bind_eq_error_iff
  | node id =>
      dsimp only
      cases plan.nodes[id]? with
      | none =>
          simp only [reduceCtorEq, false_and, exists_false, or_false, true_and]
          exact error_bind_eq_error_iff
      | some node =>
          simp only [reduceCtorEq, false_and, false_or, Option.some.injEq, exists_eq_left']
          exact checkPort_eq_error_iff

theorem target_error_iff (target : Endpoint) :
    (plan.targetPorts number target.vertex >>= checkPort number target.port) = .error error ↔
      plan.TargetFault number target error := by
  unfold targetPorts TargetFault
  cases target.vertex with
  | inputs => exact error_bind_eq_error_iff
  | outputs => exact checkPort_eq_error_iff
  | node id =>
      dsimp only
      cases plan.nodes[id]? with
      | none =>
          simp only [reduceCtorEq, false_and, exists_false, or_false, true_and]
          exact error_bind_eq_error_iff
      | some node =>
          simp only [reduceCtorEq, false_and, false_or, Option.some.injEq, exists_eq_left']
          exact checkPort_eq_error_iff

theorem checkEdge_eq_error_iff {edge : Edge} :
    plan.checkEdge number edge = .error error ↔ plan.EdgeFault number edge error := by
  rw [plan.checkEdge_eq, EdgeFault, ← plan.source_ok_iff number, ← source_error_iff,
    ← target_error_iff]
  cases plan.sourcePorts number edge.source.vertex >>= checkPort number edge.source.port with
  | error other => simp [bind, Except.bind]
  | ok value => simp [bind, Except.bind]

theorem EdgeFault.not_fits {edge : Edge} (fault : plan.EdgeFault number edge error) :
    ¬ plan.Fits edge := by
  rw [← checkEdge_eq_error_iff] at fault
  rw [← plan.checkEdge_eq_ok_iff number, fault]
  exact nofun

end GraphPlan

namespace PortGraph

theorem connect_eq_error_iff {graph : PortGraph} {edge : Edge} {error : GraphError} :
    graph.connect edge = .error error ↔ graph.EdgeFault graph.edges.size edge error := by
  rw [← GraphPlan.checkEdge_eq_error_iff]
  unfold connect
  cases hcheck : graph.checkEdge graph.edges.size edge <;>
    simp [hcheck, bind, Except.bind, pure, Except.pure]

/-- Connecting stops at the first edge with a fault, and tells the number of that edge. -/
theorem connectAll_eq_error_iff {graph : PortGraph} {edges : List Edge} {error : GraphError} :
    graph.connectAll edges = .error error ↔
      ∃ before edge after, edges = before ++ edge :: after ∧
        (∀ earlier ∈ before, graph.Fits earlier) ∧
        graph.EdgeFault (graph.edges.size + before.length) edge error := by
  induction edges generalizing graph with
  | nil => simp [connectAll]
  | cons first rest ih =>
      unfold connectAll
      cases hconnect : graph.connect first with
      | ok next =>
          obtain ⟨fits, rfl⟩ := connect_eq_ok_iff.mp hconnect
          refine ih.trans ⟨?_, ?_⟩
          · rintro ⟨before, edge, after, rfl, fit, fault⟩
            refine ⟨first :: before, edge, after, rfl, List.forall_mem_cons.mpr ⟨fits, fit⟩, ?_⟩
            simpa [Nat.add_comm, Nat.add_left_comm] using fault
          · rintro ⟨before, edge, after, split, fit, fault⟩
            cases before with
            | nil =>
                obtain ⟨rfl, rfl⟩ := List.cons.inj split
                exact absurd fits fault.not_fits
            | cons other before =>
                obtain ⟨rfl, rfl⟩ := List.cons.inj split
                refine ⟨before, edge, after, rfl, (List.forall_mem_cons.mp fit).2, ?_⟩
                simpa [Nat.add_comm, Nat.add_left_comm] using fault
      | error other =>
          have first_fault := connect_eq_error_iff.mp hconnect
          constructor
          · rintro ⟨⟩
            exact ⟨[], first, rest, rfl, by simp, first_fault⟩
          · rintro ⟨before, edge, after, split, fit, fault⟩
            cases before with
            | nil =>
                obtain ⟨rfl, rfl⟩ := List.cons.inj split
                exact hconnect.symm.trans (connect_eq_error_iff.mpr fault)
            | cons other before =>
                obtain ⟨rfl, rfl⟩ := List.cons.inj split
                exact absurd (fit first (by simp)) first_fault.not_fits

theorem build_eq_error_iff {plan : GraphPlan} {edges : List Edge} {error : GraphError} :
    build plan edges = .error error ↔
      ∃ before edge after, edges = before ++ edge :: after ∧
        (∀ earlier ∈ before, plan.Fits earlier) ∧ plan.EdgeFault before.length edge error := by
  rw [build, connectAll_eq_error_iff]
  simp [ofPlan]

end PortGraph

/-! ## Looking around -/

/--
What a graph finds at an endpoint, be it of a source, of a target or of neither: the numbers of the
edges there, each once and in increasing order.  Hence the two directions agree.
-/
structure PortGraph.FindsEdges (graph : PortGraph) : Prop where
  outgoing_increasing : ∀ source, (graph.outgoing source).Pairwise (· < ·)
  mem_outgoing : ∀ source number, number ∈ graph.outgoing source ↔
    ∃ edge, graph.edges[number]? = some edge ∧ edge.source = source
  incoming_increasing : ∀ target, (graph.incoming target).Pairwise (· < ·)
  mem_incoming : ∀ target number, number ∈ graph.incoming target ↔
    ∃ edge, graph.edges[number]? = some edge ∧ edge.target = target
  count_predecessors : ∀ source target,
    (graph.predecessors target).count source = (graph.successors source).count target

theorem PortGraph.Indexed.findsEdges {graph : PortGraph} (indexed : graph.Indexed) :
    graph.FindsEdges where
  outgoing_increasing source := by
    rw [indexed.outgoing_eq]
    exact edgeNumbers_increasing ..
  mem_outgoing source number := by
    rw [indexed.outgoing_eq, mem_edgeNumbers, ← Array.getElem?_toList]
  incoming_increasing target := by
    rw [indexed.incoming_eq]
    exact edgeNumbers_increasing ..
  mem_incoming target number := by
    rw [indexed.incoming_eq, mem_edgeNumbers, ← Array.getElem?_toList]
  count_predecessors source target := by
    -- both count the edges from the source to the target
    rw [indexed.predecessors_eq, indexed.successors_eq, List.count_eq_countP, List.count_eq_countP,
      List.countP_map, List.countP_map, List.countP_filter, List.countP_filter]
    refine List.countP_congr fun edge _ => ?_
    simp [and_comm]

/-! ## Calls -/

/-- A call that adds something to a builder. -/
inductive BuilderCall where
  | node (node : Node)
  | edge (edge : Edge)
  | unfolded (added : Instance)

namespace BuilderCall

def node? : BuilderCall → Option Node
  | node added => some added
  | _ => none

def edge? : BuilderCall → Option Edge
  | edge added => some added
  | _ => none

def unfolded? : BuilderCall → Option Instance
  | unfolded added => some added
  | _ => none

end BuilderCall

namespace GraphBuilder

/-- What a call makes of a builder. -/
def call (builder : GraphBuilder) : BuilderCall → GraphBuilder
  | .node node => (builder.addNode node).2
  | .edge edge => builder.addEdge edge
  | .unfolded added => builder.addInstance added

/-- The builder after some calls. -/
def afterCalls (builder : GraphBuilder) (calls : List BuilderCall) : GraphBuilder :=
  calls.foldl call builder

/-- Nodes, edges and instances are kept apart, each in the order of the calls. -/
theorem afterCalls_eq (builder : GraphBuilder) (calls : List BuilderCall) :
    builder.afterCalls calls =
      { builder with
        nodes := builder.nodes ++ calls.filterMap BuilderCall.node?
        edges := builder.edges ++ calls.filterMap BuilderCall.edge?
        instances := builder.instances ++ calls.filterMap BuilderCall.unfolded? } := by
  induction calls generalizing builder with
  | nil => simp [afterCalls]
  | cons first rest ih =>
      have step : builder.afterCalls (first :: rest) = (builder.call first).afterCalls rest := rfl
      rw [step, ih]
      cases first <;>
        simp [call, addNode, addEdge, addInstance, List.filterMap_cons, BuilderCall.node?,
          BuilderCall.edge?, BuilderCall.unfolded?]

/-- The calls that make a builder, after the boundary of the root is known. -/
def ofCalls (root : String) (inputs outputs : List String) (generators : List Symbol)
    (rootSpan : Span) (calls : List BuilderCall) : GraphBuilder :=
  (((new root inputs outputs).withGenerators generators).withRootSpan rootSpan).afterCalls calls

/-- What the calls give but for the edges. -/
def planOf (root : String) (inputs outputs : List String) (generators : List Symbol)
    (rootSpan : Span) (calls : List BuilderCall) : GraphPlan where
  root
  rootSpan
  generators
  inputs
  outputs
  nodes := (calls.filterMap BuilderCall.node?).toArray
  instances := calls.filterMap BuilderCall.unfolded?

section

variable (root : String) (inputs outputs : List String) (generators : List Symbol)
  (rootSpan : Span) (calls : List BuilderCall)

theorem build_ofCalls :
    (ofCalls root inputs outputs generators rootSpan calls).build =
      PortGraph.build (planOf root inputs outputs generators rootSpan calls)
        (calls.filterMap BuilderCall.edge?) := by
  simp [ofCalls, afterCalls_eq, build, plan, planOf, new, withGenerators, withRootSpan]

/-- The number given for a new node is the one it has in the end. -/
theorem getElem?_addNode {before after : List BuilderCall} {node : Node}
    (split : calls = before ++ .node node :: after) :
    (planOf root inputs outputs generators rootSpan calls).nodes[
      ((ofCalls root inputs outputs generators rootSpan before).addNode node).1]? =
        some node := by
  subst split
  simp [ofCalls, afterCalls_eq, addNode, planOf, new, withGenerators, withRootSpan,
    List.filterMap_cons, BuilderCall.node?]

/--
Whatever calls are made on a builder, the graph is built exactly when every edge that came runs
from an input of the root or an output of a node to an output of the root or an input of a node.
Otherwise the error tells what is wrong with the first edge that does not, its source before its
target.  The graph has what came in the order in which it came, edges being numbered in that order,
and finds at every endpoint the edges there and no others.
-/
theorem building_exact :
    let builder := ofCalls root inputs outputs generators rootSpan calls
    let plan := planOf root inputs outputs generators rootSpan calls
    let edges := calls.filterMap BuilderCall.edge?
    ((∃ graph, builder.build = .ok graph) ↔ ∀ edge ∈ edges, plan.Fits edge) ∧
    (∀ error, builder.build = .error error ↔
      ∃ before edge after, edges = before ++ edge :: after ∧
        (∀ earlier ∈ before, plan.Fits earlier) ∧ plan.EdgeFault before.length edge error) ∧
    (∀ before node after, calls = before ++ .node node :: after →
      plan.nodes[((ofCalls root inputs outputs generators rootSpan before).addNode node).1]? =
        some node) ∧
    ∀ graph, builder.build = .ok graph →
      graph.toGraphPlan = plan ∧ graph.edges.toList = edges ∧ graph.FindsEdges := by
  intro builder plan edges
  have same : builder.build = PortGraph.build plan edges := build_ofCalls ..
  rw [same]
  refine ⟨PortGraph.build_ok_iff, fun error => PortGraph.build_eq_error_iff, ?_, ?_⟩
  · intro before node after split
    exact getElem?_addNode root inputs outputs generators rootSpan calls split
  · intro graph built
    obtain ⟨samePlan, sameEdges, -⟩ := PortGraph.build_eq_ok built
    exact ⟨samePlan, sameEdges, (PortGraph.build_indexed built).findsEdges⟩

end

/-- An edge the wrong way round is refused for its source. -/
example : ((new "main" ["X"] ["Y"]).addEdge ⟨.output 0, .input 0⟩).build =
    .error (.startsAtOutput 0) := rfl

end GraphBuilder

end FlowDiagram

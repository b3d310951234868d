import FlowDiagram.Proofs.Expansion.Feeding
import Mathlib.Algebra.GroupWithZero.Nat

/-!
# Incoming edges

At most one edge of an expanded graph ends at each target: links that end at one place are refused
body by body, and going back along links through boundary ports never branches.  So a check of the
connections finds no port at which several edges end, and once it finds nothing, there are as many
edges as targets.
-/

namespace FlowDiagram

/-! ## Targets -/

namespace PortGraph

variable {graph : PortGraph}

/-- The targets of a graph: the inputs of the nodes, then the outputs of the root. -/
def targets (graph : PortGraph) : List Endpoint :=
  (graph.nodes.toList.zipIdx.flatMap fun (node, id) =>
    (List.range node.inputs.length).map (Endpoint.node id)) ++
    (List.range graph.outputs.length).map Endpoint.output

theorem mem_targets_iff {target : Endpoint} : target ∈ graph.targets ↔ graph.HasTarget target := by
  obtain ⟨vertex, port⟩ := target
  simp only [targets, List.mem_append, List.mem_flatMap, List.mem_map, List.mem_range, Prod.exists,
    List.mem_zipIdx_iff_getElem?, Array.getElem?_toList, Endpoint.node, Endpoint.output,
    Endpoint.mk.injEq]
  cases vertex with
  | inputs => simp [GraphPlan.HasTarget]
  | outputs => simp [GraphPlan.HasTarget]
  | node id => simp [GraphPlan.HasTarget, and_comm]

theorem nodup_targets (graph : PortGraph) : graph.targets.Nodup := by
  refine List.nodup_append.mpr ⟨nodup_nodePorts (fun node : Node => node.inputs.length) _, ?_, ?_⟩
  · exact List.nodup_range.map fun first second same => (Endpoint.mk.inj same).2
  · intro first isNode second isRoot same
    obtain ⟨numbered, -, isPort⟩ := List.mem_flatMap.mp isNode
    obtain ⟨port, -, rfl⟩ := List.mem_map.mp isPort
    obtain ⟨other, -, rfl⟩ := List.mem_map.mp isRoot
    cases same

theorem length_targets (graph : PortGraph) :
    graph.targets.length =
      (graph.nodes.toList.map fun node => node.inputs.length).sum + graph.outputs.length := by
  have numbered : graph.nodes.toList.zipIdx.map (fun pair => pair.1.inputs.length) =
      graph.nodes.toList.map fun node => node.inputs.length := by
    rw [← List.zipIdx_map_fst 0 graph.nodes.toList, List.map_map]
    simp
  simp [targets, List.length_flatMap, numbered]

/-! ## Checked graphs -/

/-- At most one edge ends at each target. -/
def SinglyFed (graph : PortGraph) : Prop :=
  (graph.edges.toList.map (·.target)).Nodup

/-- Where at most one edge ends at each target, no more is found there. -/
theorem SinglyFed.incoming_le (single : graph.SinglyFed) (indexed : graph.Indexed)
    (target : Endpoint) : (graph.incoming target).length ≤ 1 := by
  rw [indexed.incoming_eq, length_edgeNumbers]
  have count := List.nodup_iff_count_le_one.mp single target
  rwa [List.count_eq_countP, List.countP_map, List.countP_eq_length_filter] at count

/-- No edge ends where none is found. -/
theorem Indexed.target_ne (indexed : graph.Indexed) {target : Endpoint}
    (idle : (graph.incoming target).length = 0) : ∀ edge ∈ graph.edges, edge.target ≠ target := by
  rw [indexed.incoming_eq, length_edgeNumbers, List.length_eq_zero_iff,
    List.filter_eq_nil_iff] at idle
  intro edge member
  simpa using idle edge (Array.mem_toList_iff.mpr member)

/-- No edge starts where none is found. -/
theorem Indexed.source_ne (indexed : graph.Indexed) {source : Endpoint}
    (idle : graph.outgoing source = []) : ∀ edge ∈ graph.edges, edge.source ≠ source := by
  rw [indexed.outgoing_eq, ← List.length_eq_zero_iff, length_edgeNumbers,
    List.length_eq_zero_iff, List.filter_eq_nil_iff] at idle
  intro edge member
  simpa using idle edge (Array.mem_toList_iff.mpr member)

end PortGraph

/-- A fault of a port at which no edge ends, or none starts. -/
def ConnectionFault.Idle (graph : PortGraph) : ConnectionFault → Prop
  | .nodeInput id node name edges =>
    edges = 0 ∧ ∃ port, graph.nodes[id]? = some node ∧ node.inputs[port]? = some name ∧
      ∀ edge ∈ graph.edges, edge.target ≠ .node id port
  | .nodeOutput id node name =>
    ∃ port, graph.nodes[id]? = some node ∧ node.outputs[port]? = some name ∧
      ∀ edge ∈ graph.edges, edge.source ≠ .node id port
  | .rootInput name =>
    ∃ port, graph.inputs[port]? = some name ∧ ∀ edge ∈ graph.edges, edge.source ≠ .input port
  | .rootOutput name edges =>
    edges = 0 ∧ ∃ port, graph.outputs[port]? = some name ∧
      ∀ edge ∈ graph.edges, edge.target ≠ .output port

namespace PortGraph

variable {graph : PortGraph}

theorem mem_portFaults_iff {judge : Nat → String → Option ConnectionFault} {names : List String}
    {fault : ConnectionFault} :
    fault ∈ portFaults judge names ↔
      ∃ port name, names[port]? = some name ∧ judge port name = some fault := by
  simp only [portFaults, List.mem_filterMap, Prod.exists, List.mem_zipIdx_iff_getElem?]
  exact exists_comm

/-- Where at most one edge ends at a target, a target with another number of edges has none. -/
theorem SinglyFed.idle (single : graph.SinglyFed) (indexed : graph.Indexed) {target : Endpoint}
    (faulty : (graph.incoming target).length ≠ 1) :
    (graph.incoming target).length = 0 ∧ ∀ edge ∈ graph.edges, edge.target ≠ target := by
  have few := single.incoming_le indexed target
  have none_ : (graph.incoming target).length = 0 := by omega
  exact ⟨none_, indexed.target_ne none_⟩

/-- Where at most one edge ends at each target, all faults are of ports that nothing joins. -/
theorem SinglyFed.faults_idle (single : graph.SinglyFed) (indexed : graph.Indexed) :
    ∀ fault ∈ graph.connectionFaults, fault.Idle graph := by
  intro fault member
  rcases List.mem_append.mp member with atNode | atRoot
  · obtain ⟨⟨node, id⟩, numbered, atNode⟩ := List.mem_flatMap.mp atNode
    have found : graph.nodes[id]? = some node := by
      simpa using List.mem_zipIdx_iff_getElem?.mp numbered
    rcases List.mem_append.mp atNode with atInput | atOutput
    · obtain ⟨port, name, hname, judged⟩ := mem_portFaults_iff.mp atInput
      obtain ⟨faulty, same⟩ := Option.ite_none_left_eq_some.mp judged
      cases same
      obtain ⟨none_, idle⟩ := single.idle indexed faulty
      exact ⟨none_, port, found, hname, idle⟩
    · obtain ⟨port, name, hname, judged⟩ := mem_portFaults_iff.mp atOutput
      obtain ⟨faulty, same⟩ := Option.ite_none_right_eq_some.mp judged
      cases same
      exact ⟨port, found, hname, indexed.source_ne faulty⟩
  · rcases List.mem_append.mp atRoot with atInput | atOutput
    · obtain ⟨port, name, hname, judged⟩ := mem_portFaults_iff.mp atInput
      obtain ⟨faulty, same⟩ := Option.ite_none_right_eq_some.mp judged
      cases same
      exact ⟨port, hname, indexed.source_ne faulty⟩
    · obtain ⟨port, name, hname, judged⟩ := mem_portFaults_iff.mp atOutput
      obtain ⟨faulty, same⟩ := Option.ite_none_left_eq_some.mp judged
      cases same
      obtain ⟨none_, idle⟩ := single.idle indexed faulty
      exact ⟨none_, port, hname, idle⟩

theorem connectionFaults_of_check {expired : Bool} {faults : List ConnectionFault}
    (refused : graph.checkConnections expired = .error (.faults faults)) :
    graph.connectionFaults = faults := by
  unfold checkConnections at refused
  split at refused
  · cases refused
  · split at refused
    · cases refused
    · cases refused
      rfl

/-- What has been checked before time was up is as if there were no end to it. -/
theorem checkConnections_false {expired : Bool}
    (checked : graph.checkConnections expired = .ok ()) :
    graph.checkConnections false = .ok () := by
  unfold checkConnections at checked
  split at checked
  · cases checked
  · simpa [checkConnections] using checked

/-- Where one edge ends at each target, there are as many edges as targets. -/
theorem SinglyFed.size_edges (single : graph.SinglyFed) (indexed : graph.Indexed)
    (fed : ∀ target, graph.HasTarget target → (graph.incoming target).length = 1) :
    graph.edges.size =
      (graph.nodes.toList.map fun node => node.inputs.length).sum + graph.outputs.length := by
  have same : ∀ target, target ∈ graph.edges.toList.map (·.target) ↔ target ∈ graph.targets := by
    intro target
    rw [mem_targets_iff]
    constructor
    · intro ends
      obtain ⟨edge, member, rfl⟩ := List.mem_map.mp ends
      exact (indexed.fits edge member).2
    · intro found
      by_contra unfed
      have idle : edgeNumbers Edge.target graph.edges.toList target = [] := by
        rw [← List.length_eq_zero_iff, length_edgeNumbers, List.length_eq_zero_iff,
          List.filter_eq_nil_iff]
        intro edge member ends
        exact unfed (List.mem_map.mpr ⟨edge, member, by simpa using ends⟩)
      have one := fed target found
      rw [indexed.incoming_eq, idle] at one
      cases one
  have paired := (List.perm_ext_iff_of_nodup single graph.nodup_targets).mpr same
  have count := paired.length_eq
  rwa [List.length_map, Array.length_toList, length_targets] at count

end PortGraph

/-! ## Expanded graphs -/

/-- A port from which links start is that of one source. -/
theorem Unfolding.Traced.start_unique {program : ResolvedProgram} {depth : Nat} {root : Scope}
    {unfolding : Unfolding} (traced : Traced program depth root [] unfolding) {inputs : Nat}
    {source other : Endpoint} {place : Place}
    (starts : (source, place) ∈ unfolding.starts inputs)
    (otherStarts : (other, place) ∈ unfolding.starts inputs) : source = other := by
  rcases mem_starts_iff.mp starts with
    ⟨port, -, rfl, rfl⟩ | ⟨id, _, site, port, -, hsite, -, rfl, rfl⟩
  · rcases mem_starts_iff.mp otherStarts with
      ⟨_, -, rfl, same⟩ | ⟨_, _, _, _, -, -, -, -, same⟩
    · obtain rfl := LinkEnd.boundary.inj (Place.mk.inj same).2
      rfl
    · cases (Place.mk.inj same).2
  · rcases mem_starts_iff.mp otherStarts with
      ⟨_, -, -, same⟩ | ⟨otherId, _, otherSite, _, -, hother, -, rfl, same⟩
    · cases (Place.mk.inj same).2
    · obtain ⟨sameFrame, sameEnd⟩ := Place.mk.inj same
      obtain ⟨sameUse, rfl⟩ := LinkEnd.use.inj sameEnd
      obtain rfl : site = otherSite := by
        cases site
        cases otherSite
        simp_all
      -- a use that has become a node has become no other
      cases (traced.part_of_node hsite).symm.trans (traced.part_of_node hother)
      rfl

/-- Different sources of an expanded graph are different ports. -/
theorem Unfolding.ShownBy.sourcePort?_injective {program : ResolvedProgram}
    (sound : program.Sound) {depth : Nat} {root : Scope} {binding : List Symbol}
    {unfolding : Unfolding} {graph : PortGraph} (rootPath : root.path = [])
    (shown : unfolding.ShownBy program depth root binding graph) {source other : Endpoint}
    {port : Port} (found : graph.sourcePort? source = some port)
    (foundOther : graph.sourcePort? other = some port) : source = other := by
  obtain ⟨place, starts, atPlace⟩ := shown.start_of_port rootPath found
  obtain ⟨otherPlace, otherStarts, atOther⟩ := shown.start_of_port rootPath foundOther
  obtain rfl := shown.traced.source_injective sound rootPath atPlace atOther
  exact shown.traced.start_unique starts otherStarts

/-- Edges of an expanded graph that end at one target are the same. -/
theorem ResolvedProgram.singlyFed_of_expand {program : ResolvedProgram} (sound : program.Sound)
    {root : program.Index} {generators : Option (List Symbol)} {limits : UnfoldingLimits}
    {graph : PortGraph} (expanded : program.expand root generators limits = .ok graph) :
    graph.SinglyFed := by
  obtain ⟨binding, unfolding, -, shown⟩ := shown_of_expand sound expanded
  have known := definition_mem root
  refine List.Nodup.map_on ?_ (shown.nodup_edges sound)
  intro edge member other otherMember sameTarget
  obtain ⟨first, target, hfirst, htarget, linked⟩ :=
    (shown.mem_edges_iff sound rfl).mp (Array.mem_toList_iff.mp member)
  obtain ⟨second, otherTarget, hsecond, hotherTarget, otherLinked⟩ :=
    (shown.mem_edges_iff sound rfl).mp (Array.mem_toList_iff.mp otherMember)
  rw [sameTarget, hotherTarget] at htarget
  cases htarget
  -- one of the two sources comes before the other, and nothing comes before a source
  have same : first = second := by
    rcases PortGraph.Linked.comparable sound known linked otherLinked with before | after
    · exact shown.eq_of_before sound rfl hsecond before
    · exact (shown.eq_of_before sound rfl hfirst after).symm
  have sameSource := shown.sourcePort?_injective sound rfl hfirst (same ▸ hsecond)
  cases edge
  cases other
  simp_all

/--
At most one edge of an expanded graph ends at each target.  Of its ports a check of the connections
refuses only those that no edge joins, and once nothing is refused there is one edge for each input
of a node and each output of the root.
-/
theorem ResolvedProgram.one_edge_per_target {program : Program} {root : program.resolved.Index}
    {generators : Option (List Symbol)} {limits : UnfoldingLimits} {graph : PortGraph}
    (expanded : program.resolved.expand root generators limits = .ok graph) :
    graph.SinglyFed ∧
      (∀ target, graph.HasTarget target → (graph.incoming target).length ≤ 1) ∧
      (∀ expired faults, graph.checkConnections expired = .error (.faults faults) →
        ∀ fault ∈ faults, fault.Idle graph) ∧
      ∀ expired, graph.checkConnections expired = .ok () →
        graph.edges.size =
          (graph.nodes.toList.map fun node => node.inputs.length).sum + graph.outputs.length := by
  have single := singlyFed_of_expand program.resolved_sound expanded
  obtain ⟨binding, unfolding, -, shown⟩ := shown_of_expand program.resolved_sound expanded
  refine ⟨single, fun target _ => single.incoming_le shown.indexed target, ?_, ?_⟩
  · intro expired faults refused
    rw [← PortGraph.connectionFaults_of_check refused]
    exact single.faults_idle shown.indexed
  · intro expired checked
    exact single.size_edges shown.indexed fun _ =>
      PortGraph.fed_of_checkConnections (PortGraph.checkConnections_false checked)

/-- Links that fan out within an instance, and an output that only a ring of junctions feeds. -/
def fanning : Program :=
  .ofLines [
    "def main = [X | Y, Z, W]",
    "  use fork [X | Y, Z] as F",
    "  use *a [X | Y] as S",
    "  link X >-> F.X, F.Y >-> S.X, F.Z >-> Y, S.Y >-> Z, S.Y >-> W",
    "def ring = [X | Y]",
    "  use fork [X | Y, Z] as F",
    "  link F.Y >-> F.X, F.Z >-> Y",
    "def fork = [X | Y, Z]",
    "  link X >-> Y, X >-> Z"]

theorem length_fanning : 1 < fanning.resolved.definitions.length := by
  decide +kernel

/-- One input and three outputs are fed by four edges; the ring feeds nothing. -/
theorem ResolvedProgram.one_edge_per_target_fanning :
    ∃ (main ring : fanning.resolved.Index) (graph bare : PortGraph),
      fanning.resolved.expand main none ⟨0, 8, false⟩ = .ok graph ∧
      fanning.resolved.expand ring none ⟨0, 8, false⟩ = .ok bare ∧
      graph.checkConnections false = .ok () ∧
      bare.connectionFaults = [.rootInput "X", .rootOutput "Y" 0] ∧
      graph.SinglyFed ∧ graph.edges.size = 1 + 3 ∧
      ∀ fault ∈ [ConnectionFault.rootInput "X", .rootOutput "Y" 0], fault.Idle bare := by
  have checking :
      (fanning.resolved.expand ⟨0, Nat.zero_lt_of_lt length_fanning⟩ none
        ⟨0, 8, false⟩).toOption.map
        (fun graph => ((graph.checkConnections false).toOption,
          (graph.nodes.toList.map fun node => node.inputs.length).sum, graph.outputs.length)) =
            some (some (), 1, 3) ∧
      (fanning.resolved.expand ⟨1, length_fanning⟩ none ⟨0, 8, false⟩).toOption.map
        (·.connectionFaults) = some [.rootInput "X", .rootOutput "Y" 0] := by
    decide +kernel
  obtain ⟨graph, found, results⟩ := Option.map_eq_some_iff.mp checking.1
  obtain ⟨checks, inputs, outputs⟩ := by simpa only [Prod.mk.injEq] using results
  obtain ⟨bare, bareFound, faults⟩ := Option.map_eq_some_iff.mp checking.2
  have expanded := eq_ok_of_toOption found
  have bareExpanded := eq_ok_of_toOption bareFound
  have checked := eq_ok_of_toOption checks
  obtain ⟨single, -, -, counted⟩ := ResolvedProgram.one_edge_per_target expanded
  obtain ⟨-, -, idle, -⟩ := ResolvedProgram.one_edge_per_target bareExpanded
  have refused : bare.checkConnections false =
      .error (.faults [.rootInput "X", .rootOutput "Y" 0]) := by
    simp [PortGraph.checkConnections, faults]
  refine ⟨_, _, graph, bare, expanded, bareExpanded, checked, faults, single, ?_,
    idle _ _ refused⟩
  rw [counted false checked, inputs, outputs]

end FlowDiagram

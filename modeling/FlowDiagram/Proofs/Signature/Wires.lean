import FlowDiagram.Connection
import FlowDiagram.Proofs.PortGraph.Building
import FlowDiagram.Proofs.Signature.Site

/-!
# Wires and sites of a connected graph

Each source has a wire of its own.  In a graph whose ports are all connected as they should be,
every target is fed by one wire, every primitive node has its site, and a flow of the graph is the
same as a flow of its sites.
-/

namespace FlowDiagram.PortGraph

/-! ## The number of a wire -/

/-- The sources at nodes whose numbers go on from `id`. -/
def nodeSources (nodes : List Node) (id : Nat) : List Endpoint :=
  (nodes.zipIdx id).flatMap fun (node, id) =>
    (List.range node.outputs.length).map (Endpoint.node id)

theorem sources_eq (graph : PortGraph) :
    graph.sources =
      (List.range graph.inputs.length).map Endpoint.input ++ nodeSources graph.nodes.toList 0 := rfl

theorem length_firstWires (next : Wire) (nodes : List Node) :
    (firstWires next nodes).length = nodes.length := by
  induction nodes generalizing next with
  | nil => rfl
  | cons node rest ih => simp [firstWires, ih]

theorem le_of_firstWires {next start index : Nat} {nodes : List Node}
    (found : (firstWires next nodes)[index]? = some start) : next ≤ start := by
  induction nodes generalizing next index with
  | nil => simp [firstWires] at found
  | cons node rest ih =>
      cases index with
      | zero =>
          cases found
          exact Nat.le_refl _
      | succ index => exact Nat.le_trans (Nat.le_add_right ..) (ih found)

/-- The sources at the nodes stand in the order of their wires. -/
theorem nodeSources_getElem? {nodes : List Node} {first wire : Nat} (next : Nat)
    {source : Endpoint} :
    (nodeSources nodes first)[wire]? = some source ↔
      ∃ (index : Nat) (node : Node) (start port : Nat), nodes[index]? = some node ∧
        (firstWires next nodes)[index]? = some start ∧ port < node.outputs.length ∧
        next + wire = start + port ∧ source = .node (first + index) port := by
  induction nodes generalizing first next wire with
  | nil => simp [nodeSources]
  | cons node rest ih =>
      have split : nodeSources (node :: rest) first =
          (List.range node.outputs.length).map (Endpoint.node first) ++
            nodeSources rest (first + 1) := rfl
      rw [split, List.getElem?_append]
      simp only [List.length_map, List.length_range]
      by_cases here : wire < node.outputs.length
      · rw [if_pos here]
        constructor
        · intro found
          simp only [List.getElem?_map, List.getElem?_range here, Option.map_some,
            Option.some.injEq] at found
          exact ⟨0, node, next, wire, rfl, rfl, here, rfl, found.symm⟩
        · rintro ⟨index, other, start, port, hnode, hstart, inside, same, rfl⟩
          cases index with
          | zero =>
              cases hnode
              cases hstart
              obtain rfl : wire = port := by omega
              simp [here]
          | succ index =>
              have later : (firstWires (next + node.outputs.length) rest)[index]? = some start :=
                hstart
              have le := le_of_firstWires later
              omega
      · rw [if_neg here, ih (next + node.outputs.length)]
        constructor
        · rintro ⟨index, other, start, port, hnode, hstart, inside, same, rfl⟩
          refine ⟨index + 1, other, start, port, hnode, hstart, inside, by omega, ?_⟩
          rw [Nat.add_assoc, Nat.add_comm 1]
        · rintro ⟨index, other, start, port, hnode, hstart, inside, same, rfl⟩
          cases index with
          | zero =>
              cases hnode
              cases hstart
              omega
          | succ index =>
              refine ⟨index, other, start, port, hnode, hstart, inside, by omega, ?_⟩
              rw [Nat.add_assoc, Nat.add_comm 1]

theorem sources_getElem? {graph : PortGraph} {source : Endpoint} {wire : Nat} :
    graph.sources[wire]? = some source ↔
      (wire < graph.inputs.length ∧ source = .input wire) ∨
        ∃ (id : Nat) (node : Node) (start port : Nat), graph.nodes[id]? = some node ∧
          graph.wireStarts[id]? = some start ∧ port < node.outputs.length ∧
          wire = start + port ∧ source = .node id port := by
  have starts : ∀ id : Nat, graph.wireStarts[id]? =
      (firstWires graph.inputs.length graph.nodes.toList)[id]? := by simp [wireStarts]
  rw [sources_eq, List.getElem?_append]
  simp only [List.length_map, List.length_range, starts]
  by_cases here : wire < graph.inputs.length
  · rw [if_pos here]
    simp only [List.getElem?_map, List.getElem?_range here, Option.map_some, Option.some.injEq]
    constructor
    · exact fun same => .inl ⟨here, same.symm⟩
    · rintro (⟨-, rfl⟩ | ⟨id, node, start, port, -, hstart, -, rfl, -⟩)
      · rfl
      · have le := le_of_firstWires hstart
        omega
  · rw [if_neg here, nodeSources_getElem? graph.inputs.length]
    simp only [Array.getElem?_toList, Nat.zero_add]
    constructor
    · rintro ⟨id, node, start, port, hnode, hstart, inside, same, rfl⟩
      exact .inr ⟨id, node, start, port, hnode, hstart, inside, by omega, rfl⟩
    · rintro (⟨inside, -⟩ | ⟨id, node, start, port, hnode, hstart, inside, rfl, rfl⟩)
      · exact absurd inside here
      · exact ⟨id, node, start, port, hnode, hstart, inside, by omega, rfl⟩

/-- The wire of a source has the number of its place among the sources. -/
theorem wire?_eq_some_iff {graph : PortGraph} {source : Endpoint} {wire : Wire} :
    graph.wire? graph.wireStarts source = some wire ↔ graph.sources[wire]? = some source := by
  rw [sources_getElem?]
  obtain ⟨vertex, port⟩ := source
  unfold wire?
  cases vertex with
  | inputs =>
      simp only [Endpoint.input, Endpoint.node, Endpoint.mk.injEq, reduceCtorEq, false_and,
        and_false, exists_false, or_false, true_and]
      split <;> grind
  | outputs => simp [Endpoint.input, Endpoint.node]
  | node id =>
      simp only [Endpoint.input, Endpoint.node, Endpoint.mk.injEq, reduceCtorEq, false_and,
        and_false, false_or, Vertex.node.injEq]
      constructor
      · intro found
        split at found
        · rename_i node start hnode hstart
          split at found
          · cases found
            exact ⟨id, node, start, port, hnode, hstart, ‹_›, rfl, rfl, rfl⟩
          · cases found
        · cases found
      · rintro ⟨_, node, start, _, hnode, hstart, inside, rfl, rfl, rfl⟩
        simp [hnode, hstart, inside]

theorem exists_wire_of_source {graph : PortGraph} {source : Endpoint}
    (found : graph.HasSource source) : ∃ wire : Wire, graph.sources[wire]? = some source := by
  obtain ⟨vertex, port⟩ := source
  cases vertex with
  | inputs => exact ⟨port, sources_getElem?.mpr (.inl ⟨found, rfl⟩)⟩
  | outputs => exact found.elim
  | node id =>
      obtain ⟨node, hnode, inside⟩ := found
      have below : id < graph.wireStarts.size := by
        have bound := (Array.getElem?_eq_some_iff.mp hnode).1
        simpa [wireStarts, length_firstWires] using bound
      exact ⟨graph.wireStarts[id] + port, sources_getElem?.mpr (.inr ⟨id, node, _, port, hnode,
        Array.getElem?_eq_getElem below, inside, rfl, rfl⟩)⟩

/-! ## What feeds a target -/

/--
A graph whose ports are all connected as they should be, and whose primitive nodes have the ports
of their primitives.
-/
structure Connected (graph : PortGraph) : Prop where
  indexed : graph.Indexed
  edges_fit : ∀ edge ∈ graph.edges.toList, graph.Fits edge
  fed : ∀ target, graph.HasTarget target → (graph.incoming target).length = 1
  nodes_fit : ∀ (id : Nat) (node : Node) (primitive : Primitive), graph.nodes[id]? = some node →
    node.kind = .primitive primitive → node.inputs.length = primitive.inputs ∧
      node.outputs.length = primitive.outputs ∧ 0 < primitive.inputs

theorem judge_of_portFaults {judge : Nat → String → Option ConnectionFault} {names : List String}
    (faultless : portFaults judge names = []) {port : Nat} (inside : port < names.length) :
    judge port names[port] = none :=
  List.filterMap_eq_nil_iff.mp faultless (names[port], port)
    (List.mem_zipIdx_iff_getElem?.mpr (List.getElem?_eq_getElem inside))

/-- Where the connections have been checked, one edge ends at each target. -/
theorem fed_of_checkConnections {graph : PortGraph}
    (checked : graph.checkConnections false = .ok ()) {target : Endpoint}
    (found : graph.HasTarget target) : (graph.incoming target).length = 1 := by
  have faultless : graph.connectionFaults = [] := by
    unfold checkConnections at checked
    simp only [Bool.false_and, Bool.false_eq_true, if_false] at checked
    split at checked
    · assumption
    · cases checked
  obtain ⟨nodes, root⟩ := List.append_eq_nil_iff.mp faultless
  obtain ⟨vertex, port⟩ := target
  cases vertex with
  | inputs => exact found.elim
  | outputs =>
      have judged := judge_of_portFaults (List.append_eq_nil_iff.mp root).2 found
      simp only [ite_eq_left_iff, reduceCtorEq, imp_false, not_not] at judged
      exact judged
  | node id =>
      obtain ⟨node, hnode, inside⟩ := found
      have member : (node, id) ∈ graph.nodes.toList.zipIdx :=
        List.mem_zipIdx_iff_getElem?.mpr (by simpa using hnode)
      have here := List.flatMap_eq_nil_iff.mp nodes (node, id) member
      have judged := judge_of_portFaults (List.append_eq_nil_iff.mp here).1 inside
      simp only [ite_eq_left_iff, reduceCtorEq, imp_false, not_not] at judged
      exact judged

theorem length_edgeNumbers (pick : Edge → Endpoint) (edges : List Edge) (endpoint : Endpoint) :
    (edgeNumbers pick edges endpoint).length =
      (edges.filter fun edge => pick edge = endpoint).length := by
  unfold edgeNumbers
  conv => rhs; rw [← List.zipIdx_map_fst 0 edges, List.filter_map]
  rw [List.length_map, List.length_map]
  rfl

/-- The flows along the wires, given those from the sources. -/
def alongWires (graph : PortGraph) (carried : Endpoint → Set Symbol) (wire : Wire) : Set Symbol :=
  ((graph.sources[wire]?).map carried).getD ∅

/-- The flows from the sources, given those along the wires. -/
def fromSources (graph : PortGraph) (carried : Wire → Set Symbol) (source : Endpoint) :
    Set Symbol :=
  ((graph.wire? graph.wireStarts source).map carried).getD ∅

variable {graph : PortGraph}

theorem alongWires_fromSources (carried : Wire → Set Symbol) {wire : Wire}
    (inside : wire < graph.sources.length) :
    graph.alongWires (graph.fromSources carried) wire = carried wire := by
  have starts := List.getElem?_eq_getElem inside
  simp [alongWires, fromSources, starts, wire?_eq_some_iff.mpr starts]

/-- One source feeds a target, and its wire is the one that feeds the target. -/
theorem Connected.feedingSource (connected : graph.Connected) {target : Endpoint}
    (found : graph.HasTarget target) :
    ∃ source, (∀ other, ⟨other, target⟩ ∈ graph.edges ↔ other = source) ∧
      graph.HasSource source ∧
      graph.feedingWire? graph.wireStarts target = graph.wire? graph.wireStarts source := by
  have single := connected.fed target found
  rw [connected.indexed.incoming_eq, length_edgeNumbers] at single
  obtain ⟨edge, only⟩ := List.length_eq_one_iff.mp single
  have ends : ∀ other, other ∈ graph.edges ∧ other.target = target ↔ other = edge := by
    intro other
    have listed : other ∈ graph.edges.toList.filter (fun edge => edge.target = target) ↔
        other = edge := by rw [only, List.mem_singleton]
    simpa using listed
  obtain ⟨member, rfl⟩ := (ends edge).mpr rfl
  refine ⟨edge.source, fun other => ⟨fun inside => ?_, ?_⟩, ?_, ?_⟩
  · exact congrArg Edge.source ((ends ⟨other, edge.target⟩).mp ⟨inside, rfl⟩)
  · rintro rfl
    exact member
  · exact (connected.edges_fit edge (Array.mem_toList_iff.mpr member)).1
  · unfold feedingWire?
    rw [connected.indexed.predecessors_eq, only]
    rfl

/-- The one wire that feeds a target brings all that the target receives. -/
theorem Connected.feedingWire (connected : graph.Connected) {target : Endpoint}
    (found : graph.HasTarget target) :
    ∃ wire, graph.feedingWire? graph.wireStarts target = some wire ∧
      wire < graph.sources.length ∧
      ∀ carried, graph.received carried target = graph.alongWires carried wire := by
  obtain ⟨source, feeds, exists_, fed⟩ := connected.feedingSource found
  obtain ⟨wire, starts⟩ := exists_wire_of_source exists_
  refine ⟨wire, fed.trans (wire?_eq_some_iff.mpr starts),
    (List.getElem?_eq_some_iff.mp starts).1, fun carried => ?_⟩
  ext symbol
  simp only [received, alongWires, starts, Option.map_some, Option.getD_some, Set.mem_ofPred_eq]
  constructor
  · rintro ⟨⟨other, _⟩, inside, rfl, carries⟩
    exact (feeds other).mp inside ▸ carries
  · exact fun carries => ⟨⟨source, target⟩, (feeds source).mpr rfl, rfl, carries⟩

theorem wire_of_source {source : Endpoint} (found : graph.HasSource source) :
    ∃ wire, graph.wire? graph.wireStarts source = some wire ∧ wire < graph.sources.length ∧
      ∀ carried, carried source = graph.alongWires carried wire := by
  obtain ⟨wire, starts⟩ := exists_wire_of_source found
  refine ⟨wire, wire?_eq_some_iff.mpr starts, (List.getElem?_eq_some_iff.mp starts).1, ?_⟩
  intro carried
  simp [alongWires, starts]

/-! ## Sites -/

theorem allPresent_eq_some_iff {α : Type} {values : List (Option α)} {present : List α} :
    allPresent values = some present ↔ values = present.map some := by
  induction values generalizing present with
  | nil => cases present <;> simp [allPresent]
  | cons value rest ih =>
      cases value with
      | none => cases present <;> simp [allPresent]
      | some value => cases present <;> simp [allPresent, ih, and_comm]

/-- A site is a primitive node with the wires that feed its inputs and start at its outputs. -/
structure IsSite (graph : PortGraph) (site : Site) : Prop where
  node : graph.nodes[site.id]? = some site.node
  kind : site.node.kind = .primitive site.primitive
  inputs : ((List.range site.node.inputs.length).map fun port =>
    graph.feedingWire? graph.wireStarts (.node site.id port)) = site.inputs.map some
  outputs : ((List.range site.node.outputs.length).map fun port =>
    graph.wire? graph.wireStarts (.node site.id port)) = site.outputs.map some

theorem mem_sites_iff {site : Site} : site ∈ graph.sites ↔ graph.IsSite site := by
  unfold sites
  simp only [List.mem_filterMap, Prod.exists, List.mem_zipIdx_iff_getElem?, Array.getElem?_toList]
  constructor
  · rintro ⟨node, id, hnode, shown⟩
    unfold site? at shown
    split at shown
    · cases shown
    · rename_i hkind
      dsimp only at shown
      split at shown
      · rename_i inputs outputs hinputs houtputs
        cases shown
        exact ⟨hnode, hkind, allPresent_eq_some_iff.mp hinputs,
          allPresent_eq_some_iff.mp houtputs⟩
      · cases shown
  · intro isSite
    refine ⟨site.node, site.id, isSite.node, ?_⟩
    unfold site?
    simp only [isSite.kind, allPresent_eq_some_iff.mpr isSite.inputs,
      allPresent_eq_some_iff.mpr isSite.outputs]

/-- The wires of a site are wires of the graph. -/
theorem sites_inside (graph : PortGraph) :
    ∀ site ∈ graph.sites, ∀ wire ∈ site.wires, wire < graph.sources.length := by
  intro site member wire touched
  have isSite := mem_sites_iff.mp member
  have inside {source : Endpoint} (starts : graph.wire? graph.wireStarts source = some wire) :
      wire < graph.sources.length :=
    (List.getElem?_eq_some_iff.mp (wire?_eq_some_iff.mp starts)).1
  rcases List.mem_append.mp touched with entering | leaving
  · have told : some wire ∈ site.inputs.map some := List.mem_map_of_mem entering
    rw [← isSite.inputs] at told
    obtain ⟨port, -, feeds⟩ := List.mem_map.mp told
    obtain ⟨source, -, starts⟩ := Option.bind_eq_some_iff.mp feeds
    exact inside starts
  · have told : some wire ∈ site.outputs.map some := List.mem_map_of_mem leaving
    rw [← isSite.outputs] at told
    obtain ⟨port, -, starts⟩ := List.mem_map.mp told
    exact inside starts

theorem exists_wires {ports : List Nat} {wire? : Nat → Option Wire}
    (each : ∀ port ∈ ports, ∃ wire, wire? port = some wire) :
    ∃ wires : List Wire, ports.map wire? = wires.map some := by
  induction ports with
  | nil => exact ⟨[], rfl⟩
  | cons port rest ih =>
      obtain ⟨wire, found⟩ := each port List.mem_cons_self
      obtain ⟨wires, later⟩ := ih fun other member => each other (List.mem_cons_of_mem port member)
      exact ⟨wire :: wires, by simp [found, later]⟩

/-- What passes at ports passes along the wires there. -/
theorem map_of_wires {ports : List Nat} {wire? : Nat → Option Wire} {wires : List Wire}
    {passes : Nat → Set Symbol} {along : Wire → Set Symbol}
    (listed : ports.map wire? = wires.map some)
    (each : ∀ port ∈ ports, ∃ wire, wire? port = some wire ∧ passes port = along wire) :
    ports.map passes = wires.map along := by
  have read : ∀ port ∈ ports, passes port = ((wire? port).map along).getD ∅ := by
    intro port member
    obtain ⟨wire, found, same⟩ := each port member
    simp [found, same]
  calc ports.map passes
      = (ports.map wire?).map (fun wire => (wire.map along).getD ∅) := by
        rw [List.map_map]
        exact List.map_congr_left read
    _ = wires.map along := by
        rw [listed, List.map_map]
        rfl

variable {id : Nat} {node : Node}

theorem hasTarget_of_node (found : graph.nodes[id]? = some node) :
    ∀ port ∈ List.range node.inputs.length, graph.HasTarget (.node id port) :=
  fun _ member => ⟨node, found, List.mem_range.mp member⟩

theorem hasSource_of_node (found : graph.nodes[id]? = some node) :
    ∀ port ∈ List.range node.outputs.length, graph.HasSource (.node id port) :=
  fun _ member => ⟨node, found, List.mem_range.mp member⟩

/-- In a connected graph, the wires of a site bring what is received and take what is carried. -/
theorem Connected.flows_of_site (connected : graph.Connected) {site : Site}
    (isSite : graph.IsSite site) (carried : Endpoint → Set Symbol) :
    (List.range site.node.inputs.length).map
        (fun port => graph.received carried (.node site.id port)) =
          site.inputs.map (graph.alongWires carried) ∧
      (List.range site.node.outputs.length).map (fun port => carried (.node site.id port)) =
        site.outputs.map (graph.alongWires carried) := by
  constructor
  · refine map_of_wires isSite.inputs fun port member => ?_
    obtain ⟨wire, feeds, -, brings⟩ :=
      connected.feedingWire (hasTarget_of_node isSite.node port member)
    exact ⟨wire, feeds, brings carried⟩
  · refine map_of_wires isSite.outputs fun port member => ?_
    obtain ⟨wire, starts, -, takes⟩ := wire_of_source (hasSource_of_node isSite.node port member)
    exact ⟨wire, starts, takes carried⟩

/-- In a connected graph, every primitive node has its site. -/
theorem Connected.site_of_node (connected : graph.Connected) {primitive : Primitive}
    (found : graph.nodes[id]? = some node) (kind : node.kind = .primitive primitive) :
    ∃ site ∈ graph.sites, site.id = id ∧ site.node = node ∧ site.primitive = primitive := by
  have fed : ∀ port ∈ List.range node.inputs.length,
      ∃ wire, graph.feedingWire? graph.wireStarts (.node id port) = some wire := by
    intro port member
    obtain ⟨wire, feeds, -⟩ := connected.feedingWire (hasTarget_of_node found port member)
    exact ⟨wire, feeds⟩
  have starting : ∀ port ∈ List.range node.outputs.length,
      ∃ wire, graph.wire? graph.wireStarts (.node id port) = some wire := by
    intro port member
    obtain ⟨wire, starts, -⟩ := wire_of_source (hasSource_of_node found port member)
    exact ⟨wire, starts⟩
  obtain ⟨inputs, hinputs⟩ := exists_wires fed
  obtain ⟨outputs, houtputs⟩ := exists_wires starting
  exact ⟨⟨id, node, primitive, inputs, outputs⟩,
    mem_sites_iff.mpr ⟨found, kind, hinputs, houtputs⟩, rfl, rfl, rfl⟩

/-- The sites of a connected graph have the wires that their primitives need. -/
theorem Connected.sites_fit (connected : graph.Connected) :
    ∀ site ∈ graph.sites, site.Fits graph.sources.length := by
  intro site member
  have isSite := mem_sites_iff.mp member
  obtain ⟨inputs, outputs, fed⟩ :=
    connected.nodes_fit site.id site.node site.primitive isSite.node isSite.kind
  have inputCount := congrArg List.length isSite.inputs
  have outputCount := congrArg List.length isSite.outputs
  simp only [List.length_map, List.length_range] at inputCount outputCount
  exact ⟨inputCount.symm.trans inputs, outputCount.symm.trans outputs, fed,
    graph.sites_inside site member⟩

/-- A flow of a connected graph is one along the wires of its sites. -/
theorem Connected.flow_iff (connected : graph.Connected) {carried : Endpoint → Set Symbol} :
    graph.Flow carried ↔ ∀ site ∈ graph.sites, site.primitive.Lawful
      (site.inputs.map (graph.alongWires carried))
      (site.outputs.map (graph.alongWires carried)) := by
  constructor
  · intro flow site member
    have isSite := mem_sites_iff.mp member
    obtain ⟨inputs, outputs⟩ := connected.flows_of_site isSite carried
    exact inputs ▸ outputs ▸ flow site.id site.node site.primitive isSite.node isSite.kind
  · intro lawful id node primitive found kind
    obtain ⟨site, member, rfl, rfl, rfl⟩ := connected.site_of_node found kind
    obtain ⟨inputs, outputs⟩ := connected.flows_of_site (mem_sites_iff.mp member) carried
    exact inputs ▸ outputs ▸ lawful site member

/-- Along the wires of a connected graph, what obeys the laws of its sites is a flow of it. -/
theorem Connected.flow_fromSources (connected : graph.Connected) {carried : Wire → Set Symbol}
    (lawful : ∀ site ∈ graph.sites,
      site.primitive.Lawful (site.inputs.map carried) (site.outputs.map carried)) :
    graph.Flow (graph.fromSources carried) := by
  refine connected.flow_iff.mpr fun site member => ?_
  have fits := connected.sites_fit site member
  have inputs := List.map_congr_left fun wire touched =>
    alongWires_fromSources carried (fits.inside wire (List.mem_append_left _ touched))
  have outputs := List.map_congr_left fun wire touched =>
    alongWires_fromSources carried (fits.inside wire (List.mem_append_right _ touched))
  rw [inputs, outputs]
  exact lawful site member

end FlowDiagram.PortGraph

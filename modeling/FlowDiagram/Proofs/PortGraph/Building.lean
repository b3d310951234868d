import FlowDiagram.PortGraph

/-!
# Building a port graph

A plan and a list of edges make a graph exactly when every edge runs from an existing source to an
existing target.  The graph then has the edges of the list in their order, and looking around at a
port finds the edges at that port and no others.
-/

namespace FlowDiagram

/-! ## Edges that fit -/

/-- An edge can start at this endpoint. -/
def GraphPlan.HasSource (plan : GraphPlan) (source : Endpoint) : Prop :=
  match source.vertex with
  | .inputs => source.port < plan.inputs.length
  | .outputs => False
  | .node id => ∃ node, plan.nodes[id]? = some node ∧ source.port < node.outputs.length

/-- An edge can end at this endpoint. -/
def GraphPlan.HasTarget (plan : GraphPlan) (target : Endpoint) : Prop :=
  match target.vertex with
  | .inputs => False
  | .outputs => target.port < plan.outputs.length
  | .node id => ∃ node, plan.nodes[id]? = some node ∧ target.port < node.inputs.length

/-- Both ends of an edge are there. -/
def GraphPlan.Fits (plan : GraphPlan) (edge : Edge) : Prop :=
  plan.HasSource edge.source ∧ plan.HasTarget edge.target

theorem GraphPlan.checkPort_eq_ok_iff {edge port declared : Nat} :
    GraphPlan.checkPort edge port declared = .ok () ↔ port < declared := by
  unfold GraphPlan.checkPort
  split <;> simp_all

theorem GraphPlan.source_ok_iff (plan : GraphPlan) (number : Nat) (source : Endpoint) :
    (plan.sourcePorts number source.vertex >>= GraphPlan.checkPort number source.port) = .ok () ↔
      plan.HasSource source := by
  unfold GraphPlan.sourcePorts GraphPlan.HasSource
  cases source.vertex with
  | inputs => exact GraphPlan.checkPort_eq_ok_iff
  | outputs => exact ⟨nofun, nofun⟩
  | node id =>
      dsimp only
      cases plan.nodes[id]? with
      | none => exact ⟨nofun, nofun⟩
      | some node =>
          simp only [Option.some.injEq, exists_eq_left']
          exact GraphPlan.checkPort_eq_ok_iff

theorem GraphPlan.target_ok_iff (plan : GraphPlan) (number : Nat) (target : Endpoint) :
    (plan.targetPorts number target.vertex >>= GraphPlan.checkPort number target.port) = .ok () ↔
      plan.HasTarget target := by
  unfold GraphPlan.targetPorts GraphPlan.HasTarget
  cases target.vertex with
  | inputs => exact ⟨nofun, nofun⟩
  | outputs => exact GraphPlan.checkPort_eq_ok_iff
  | node id =>
      dsimp only
      cases plan.nodes[id]? with
      | none => exact ⟨nofun, nofun⟩
      | some node =>
          simp only [Option.some.injEq, exists_eq_left']
          exact GraphPlan.checkPort_eq_ok_iff

/-- The source is looked at first, and its error is the one told. -/
theorem GraphPlan.checkEdge_eq (plan : GraphPlan) (number : Nat) (edge : Edge) :
    plan.checkEdge number edge =
      ((plan.sourcePorts number edge.source.vertex >>=
          GraphPlan.checkPort number edge.source.port) >>= fun _ =>
        plan.targetPorts number edge.target.vertex >>=
          GraphPlan.checkPort number edge.target.port) := by
  unfold GraphPlan.checkEdge
  cases plan.sourcePorts number edge.source.vertex <;> rfl

theorem GraphPlan.checkEdge_eq_ok_iff (plan : GraphPlan) (number : Nat) (edge : Edge) :
    plan.checkEdge number edge = .ok () ↔ plan.Fits edge := by
  rw [plan.checkEdge_eq, GraphPlan.Fits, ← plan.source_ok_iff number, ← plan.target_ok_iff number]
  cases plan.sourcePorts number edge.source.vertex >>=
      GraphPlan.checkPort number edge.source.port with
  | error error => exact ⟨nofun, nofun⟩
  | ok value => exact ⟨fun ok => ⟨rfl, ok⟩, fun both => both.2⟩

/-! ## The edges of a built graph -/

namespace PortGraph

theorem connect_eq_ok_iff {graph next : PortGraph} {edge : Edge} :
    graph.connect edge = .ok next ↔ graph.Fits edge ∧
      next = { graph with
        edges := graph.edges.push edge
        leaving := graph.leaving.add edge.source graph.edges.size
        entering := graph.entering.add edge.target graph.edges.size } := by
  rw [← graph.checkEdge_eq_ok_iff graph.edges.size]
  unfold connect
  cases hcheck : graph.checkEdge graph.edges.size edge with
  | error error =>
      simp [hcheck, bind, Except.bind]
  | ok value =>
      simp only [hcheck, bind, Except.bind, pure, Except.pure, Except.ok.injEq, true_and]
      exact eq_comm

/-- Edges are added in their order, and nothing else changes but the incidences. -/
theorem connectAll_eq_ok {graph final : PortGraph} {edges : List Edge}
    (connected : graph.connectAll edges = .ok final) :
    final.toGraphPlan = graph.toGraphPlan ∧
      final.edges.toList = graph.edges.toList ++ edges ∧ ∀ edge ∈ edges, graph.Fits edge := by
  induction edges generalizing graph with
  | nil =>
      cases connected
      simp
  | cons edge rest ih =>
      unfold connectAll at connected
      cases hconnect : graph.connect edge with
      | error error => simp [hconnect] at connected
      | ok next =>
          rw [hconnect] at connected
          obtain ⟨fits, rfl⟩ := connect_eq_ok_iff.mp hconnect
          obtain ⟨plan, listed, later⟩ := ih connected
          refine ⟨plan, by simpa using listed, ?_⟩
          simpa using ⟨fits, later⟩

theorem connectAll_total (graph : PortGraph) {edges : List Edge}
    (fit : ∀ edge ∈ edges, graph.Fits edge) : ∃ final, graph.connectAll edges = .ok final := by
  induction edges generalizing graph with
  | nil => exact ⟨graph, rfl⟩
  | cons edge rest ih =>
      have first := connect_eq_ok_iff.mpr ⟨fit edge (by simp), rfl⟩
      unfold connectAll
      rw [first]
      exact ih _ fun other member => fit other (by simp [member])

/-- A built graph has the plan and the edges that it was built from. -/
theorem build_eq_ok {plan : GraphPlan} {edges : List Edge} {graph : PortGraph}
    (built : build plan edges = .ok graph) :
    graph.toGraphPlan = plan ∧ graph.edges.toList = edges ∧ ∀ edge ∈ edges, plan.Fits edge := by
  obtain ⟨same, listed, fit⟩ := connectAll_eq_ok built
  exact ⟨same, by simpa [ofPlan] using listed, fit⟩

/-- Building succeeds exactly when both ends of every edge are there. -/
theorem build_ok_iff {plan : GraphPlan} {edges : List Edge} :
    (∃ graph, build plan edges = .ok graph) ↔ ∀ edge ∈ edges, plan.Fits edge := by
  constructor
  · rintro ⟨graph, built⟩
    exact (build_eq_ok built).2.2
  · intro fit
    exact connectAll_total (ofPlan plan) fit

end PortGraph

/-! ## Looking around -/

/-- The numbers of the edges whose end is this endpoint, in increasing order. -/
def edgeNumbers (pick : Edge → Endpoint) (edges : List Edge) (endpoint : Endpoint) : List Nat :=
  (edges.zipIdx.filter fun (edge, _) => pick edge = endpoint).map (·.2)

theorem edgeNumbers_append_singleton (pick : Edge → Endpoint) (edges : List Edge) (edge : Edge)
    (endpoint : Endpoint) :
    edgeNumbers pick (edges ++ [edge]) endpoint =
      edgeNumbers pick edges endpoint ++ if pick edge = endpoint then [edges.length] else [] := by
  unfold edgeNumbers
  rw [List.zipIdx_append]
  by_cases same : pick edge = endpoint <;> simp [same]

theorem mem_edgeNumbers {pick : Edge → Endpoint} {edges : List Edge} {endpoint : Endpoint}
    {number : Nat} : number ∈ edgeNumbers pick edges endpoint ↔
      ∃ edge, edges[number]? = some edge ∧ pick edge = endpoint := by
  unfold edgeNumbers
  simp only [List.mem_map, List.mem_filter, Prod.exists, decide_eq_true_eq,
    List.mem_zipIdx_iff_getElem?]
  constructor
  · rintro ⟨edge, _, ⟨listed, picked⟩, rfl⟩
    exact ⟨edge, listed, picked⟩
  · rintro ⟨edge, listed, picked⟩
    exact ⟨edge, number, ⟨listed, picked⟩, rfl⟩

theorem edgeNumbers_eq_nil {pick : Edge → Endpoint} {edges : List Edge} {endpoint : Endpoint}
    (absent : ∀ edge ∈ edges, pick edge ≠ endpoint) : edgeNumbers pick edges endpoint = [] := by
  rw [List.eq_nil_iff_forall_not_mem]
  intro number member
  obtain ⟨edge, listed, picked⟩ := mem_edgeNumbers.mp member
  exact absent edge (List.mem_of_getElem? listed) picked

theorem edgeNumbers_increasing (pick : Edge → Endpoint) (edges : List Edge)
    (endpoint : Endpoint) : (edgeNumbers pick edges endpoint).Pairwise (· < ·) := by
  have all : (edges.zipIdx.map (·.2)).Pairwise (· < ·) := by
    rw [List.zipIdx_map_snd]
    exact List.pairwise_lt_range' _
  exact all.sublist (List.filter_sublist.map _)

/-- What is recorded at a vertex. -/
def Incidence.recorded (incidence : Incidence) : Vertex → List (Nat × Nat)
  | .node id => (incidence.nodes[id]?).getD []
  | _ => incidence.root

/-- The vertices at which edges of one direction can end, in a graph with so many nodes. -/
def Vertex.Within (vertex root : Vertex) (nodes : Nat) : Prop :=
  match vertex with
  | .node id => id < nodes
  | other => other = root

theorem Incidence.size_add (incidence : Incidence) (endpoint : Endpoint) (edge : Nat) :
    (incidence.add endpoint edge).nodes.size = incidence.nodes.size := by
  unfold Incidence.add
  split <;> simp

theorem Incidence.at?_cons (port edge : Nat) (records : List (Nat × Nat)) (wanted : Nat) :
    Incidence.at? ((port, edge) :: records) wanted =
      Incidence.at? records wanted ++ if port = wanted then [edge] else [] := by
  unfold Incidence.at?
  by_cases same : port = wanted <;> simp [same]

/--
Recording an edge at one endpoint changes what is found there, and nowhere else.  The endpoints of
the root share one record, so only one sort of them may occur.
-/
theorem Incidence.at?_recorded_add {incidence : Incidence} {root : Vertex}
    {added endpoint : Endpoint} (edge : Nat)
    (addedWithin : added.vertex.Within root incidence.nodes.size)
    (within : endpoint.vertex.Within root incidence.nodes.size) :
    Incidence.at? ((incidence.add added edge).recorded endpoint.vertex) endpoint.port =
      Incidence.at? (incidence.recorded endpoint.vertex) endpoint.port ++
        if added = endpoint then [edge] else [] := by
  obtain ⟨vertex, port⟩ := endpoint
  obtain ⟨addedVertex, addedPort⟩ := added
  cases addedVertex with
  | node addedId =>
      cases vertex with
      | node id =>
          have below : id < incidence.nodes.size := within
          by_cases same : addedId = id
          · subst same
            simp [Incidence.add, Incidence.recorded, below, Array.getElem_modify,
              Incidence.at?_cons]
          · simp [Incidence.add, Incidence.recorded, below, Array.getElem_modify, same]
      | inputs => simp [Incidence.add, Incidence.recorded]
      | outputs => simp [Incidence.add, Incidence.recorded]
  | inputs =>
      obtain rfl : Vertex.inputs = root := addedWithin
      cases vertex with
      | node id => simp [Incidence.add, Incidence.recorded]
      | inputs => simp [Incidence.add, Incidence.recorded, Incidence.at?_cons]
      | outputs => cases within
  | outputs =>
      obtain rfl : Vertex.outputs = root := addedWithin
      cases vertex with
      | node id => simp [Incidence.add, Incidence.recorded]
      | inputs => cases within
      | outputs => simp [Incidence.add, Incidence.recorded, Incidence.at?_cons]

/-- An incidence tells which of the edges end at each endpoint. -/
def Incidence.Tells (incidence : Incidence) (root : Vertex) (nodes : Nat)
    (pick : Edge → Endpoint) (edges : List Edge) : Prop :=
  incidence.nodes.size = nodes ∧ ∀ endpoint : Endpoint, endpoint.vertex.Within root nodes →
    Incidence.at? (incidence.recorded endpoint.vertex) endpoint.port =
      edgeNumbers pick edges endpoint

theorem Incidence.empty_tells (root : Vertex) (nodes : Nat) (pick : Edge → Endpoint) :
    (Incidence.empty nodes).Tells root nodes pick [] := by
  refine ⟨by simp [Incidence.empty], fun endpoint within => ?_⟩
  obtain ⟨vertex, port⟩ := endpoint
  cases vertex with
  | node id =>
      have below : id < nodes := within
      simp [Incidence.empty, Incidence.recorded, Incidence.at?, edgeNumbers, below]
  | inputs => rfl
  | outputs => rfl

theorem Incidence.Tells.add {incidence : Incidence} {root : Vertex} {nodes : Nat}
    {pick : Edge → Endpoint} {edges : List Edge}
    (tells : incidence.Tells root nodes pick edges) (edge : Edge)
    (picked : (pick edge).vertex.Within root nodes) :
    (incidence.add (pick edge) edges.length).Tells root nodes pick (edges ++ [edge]) := by
  obtain ⟨size, finds⟩ := tells
  refine ⟨by rw [Incidence.size_add, size], fun endpoint within => ?_⟩
  rw [Incidence.at?_recorded_add edges.length (size ▸ picked) (size ▸ within),
    finds endpoint within, edgeNumbers_append_singleton]

namespace PortGraph

/-- The incidences of a graph tell its edges. -/
structure Indexed (graph : PortGraph) : Prop where
  leaving : graph.leaving.Tells .inputs graph.nodes.size Edge.source graph.edges.toList
  entering : graph.entering.Tells .outputs graph.nodes.size Edge.target graph.edges.toList
  fits : ∀ edge ∈ graph.edges.toList, graph.Fits edge

theorem source_within {plan : GraphPlan} {source : Endpoint} (found : plan.HasSource source) :
    source.vertex.Within .inputs plan.nodes.size := by
  unfold GraphPlan.HasSource at found
  unfold Vertex.Within
  cases hvertex : source.vertex with
  | inputs => rfl
  | outputs => simp [hvertex] at found
  | node id =>
      obtain ⟨node, hnode, -⟩ : ∃ node, plan.nodes[id]? = some node ∧ _ := by
        simpa [hvertex] using found
      exact (Array.getElem?_eq_some_iff.mp hnode).1

theorem target_within {plan : GraphPlan} {target : Endpoint} (found : plan.HasTarget target) :
    target.vertex.Within .outputs plan.nodes.size := by
  unfold GraphPlan.HasTarget at found
  unfold Vertex.Within
  cases hvertex : target.vertex with
  | outputs => rfl
  | inputs => simp [hvertex] at found
  | node id =>
      obtain ⟨node, hnode, -⟩ : ∃ node, plan.nodes[id]? = some node ∧ _ := by
        simpa [hvertex] using found
      exact (Array.getElem?_eq_some_iff.mp hnode).1

theorem Indexed.connect {graph next : PortGraph} (indexed : graph.Indexed) {edge : Edge}
    (connected : graph.connect edge = .ok next) : next.Indexed := by
  obtain ⟨fits, rfl⟩ := connect_eq_ok_iff.mp connected
  refine ⟨?_, ?_, ?_⟩
  · simpa using indexed.leaving.add edge (source_within fits.1)
  · simpa using indexed.entering.add edge (target_within fits.2)
  · intro other member
    rcases Array.mem_push.mp (Array.mem_toList_iff.mp member) with old | new
    · exact indexed.fits other (Array.mem_toList_iff.mpr old)
    · rw [new]
      exact fits

theorem Indexed.connectAll {graph final : PortGraph} (indexed : graph.Indexed)
    {edges : List Edge} (connected : graph.connectAll edges = .ok final) : final.Indexed := by
  induction edges generalizing graph with
  | nil =>
      cases connected
      exact indexed
  | cons edge rest ih =>
      unfold PortGraph.connectAll at connected
      split at connected
      · rename_i next hconnect
        exact ih (indexed.connect hconnect) connected
      · cases connected

theorem build_indexed {plan : GraphPlan} {edges : List Edge} {graph : PortGraph}
    (built : build plan edges = .ok graph) : graph.Indexed := by
  have initial : (ofPlan plan).Indexed := by
    refine ⟨?_, ?_, by simp [ofPlan]⟩
    · exact Incidence.empty_tells _ _ _
    · exact Incidence.empty_tells _ _ _
  exact initial.connectAll built

/-- Looking around at an endpoint finds the numbers of the edges that start there. -/
theorem Indexed.outgoing_eq {graph : PortGraph} (indexed : graph.Indexed) (source : Endpoint) :
    graph.outgoing source = edgeNumbers Edge.source graph.edges.toList source := by
  by_cases within : source.vertex.Within .inputs graph.nodes.size
  · rw [← indexed.leaving.2 source within]
    unfold outgoing Incidence.recorded
    cases hvertex : source.vertex with
    | inputs => rfl
    | node id => rfl
    | outputs => simp [Vertex.Within, hvertex] at within
  · -- no edge starts at a vertex that is not there, and nothing is recorded for it
    rw [edgeNumbers_eq_nil fun edge member => by
      rintro rfl
      exact within (source_within (indexed.fits edge member).1)]
    unfold outgoing
    cases hvertex : source.vertex with
    | inputs => simp [Vertex.Within, hvertex] at within
    | outputs => rfl
    | node id =>
        have beyond : graph.leaving.nodes.size ≤ id := by
          simpa [Vertex.Within, hvertex, indexed.leaving.1] using within
        simp [Array.getElem?_eq_none beyond, Incidence.at?]

/-- Looking around at an endpoint finds the numbers of the edges that end there. -/
theorem Indexed.incoming_eq {graph : PortGraph} (indexed : graph.Indexed) (target : Endpoint) :
    graph.incoming target = edgeNumbers Edge.target graph.edges.toList target := by
  by_cases within : target.vertex.Within .outputs graph.nodes.size
  · rw [← indexed.entering.2 target within]
    unfold incoming Incidence.recorded
    cases hvertex : target.vertex with
    | inputs => simp [Vertex.Within, hvertex] at within
    | node id => rfl
    | outputs => rfl
  · rw [edgeNumbers_eq_nil fun edge member => by
      rintro rfl
      exact within (target_within (indexed.fits edge member).2)]
    unfold incoming
    cases hvertex : target.vertex with
    | inputs => rfl
    | outputs => simp [Vertex.Within, hvertex] at within
    | node id =>
        have beyond : graph.entering.nodes.size ≤ id := by
          simpa [Vertex.Within, hvertex, indexed.entering.1] using within
        simp [Array.getElem?_eq_none beyond, Incidence.at?]

theorem filterMap_edgeNumbers (pick other : Edge → Endpoint) (edges : Array Edge)
    (endpoint : Endpoint) :
    (edgeNumbers pick edges.toList endpoint).filterMap (fun edge => edges[edge]?.map other) =
      (edges.toList.filter fun edge => pick edge = endpoint).map other := by
  have looked : ∀ pair ∈ edges.toList.zipIdx, edges[pair.2]? = some pair.1 := by
    intro pair member
    simpa using List.mem_zipIdx_iff_getElem?.mp member
  unfold edgeNumbers
  rw [List.filterMap_map]
  have onPairs : ∀ pairs : List (Edge × Nat), (∀ pair ∈ pairs, edges[pair.2]? = some pair.1) →
      (pairs.filter fun pair => pick pair.1 = endpoint).filterMap
          ((fun edge => edges[edge]?.map other) ∘ fun pair => pair.2) =
        ((pairs.map (·.1)).filter fun edge => pick edge = endpoint).map other := by
    intro pairs
    induction pairs with
    | nil => simp
    | cons pair rest ih =>
        intro found
        have first := found pair (by simp)
        have later := ih fun other member => found other (by simp [member])
        by_cases same : pick pair.1 = endpoint <;> simp_all
  simpa using onPairs _ looked

/-- The sources of the edges that end at an endpoint, in the order of the edges. -/
theorem Indexed.predecessors_eq {graph : PortGraph} (indexed : graph.Indexed)
    (target : Endpoint) :
    graph.predecessors target =
      (graph.edges.toList.filter fun edge => edge.target = target).map Edge.source := by
  unfold predecessors
  rw [indexed.incoming_eq]
  exact filterMap_edgeNumbers Edge.target Edge.source graph.edges target

/-- The targets of the edges that start at an endpoint, in the order of the edges. -/
theorem Indexed.successors_eq {graph : PortGraph} (indexed : graph.Indexed)
    (source : Endpoint) :
    graph.successors source =
      (graph.edges.toList.filter fun edge => edge.source = source).map Edge.target := by
  unfold successors
  rw [indexed.outgoing_eq]
  exact filterMap_edgeNumbers Edge.source Edge.target graph.edges source

end PortGraph

end FlowDiagram

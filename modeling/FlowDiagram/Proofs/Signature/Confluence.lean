import FlowDiagram.Proofs.PortGraph.Renumbering
import FlowDiagram.Proofs.Signature.Order

/-!
# Inference does not depend on the order of work

The turns that inference takes come to an end where all sites are at rest, and every other order
that comes to rest says the same of the graph.  When the nodes are put in another order, so are the
turns, the wires and the sites, and inference says the same of the graph.
-/

namespace FlowDiagram.PortGraph

/-! ## Nodes in another order -/

section Renumbering

variable {graph other : PortGraph} {place : Equiv.Perm Nat}

theorem hasSource_of_wire {source : Endpoint} {wire : Wire}
    (starts : graph.sources[wire]? = some source) : graph.HasSource source := by
  rcases sources_getElem?.mp starts with
    ⟨inside, rfl⟩ | ⟨id, node, _, port, found, -, inside, -, rfl⟩
  · exact inside
  · exact ⟨node, found, inside⟩

/-- The wire in place of a wire when the nodes are put in another order. -/
abbrev wireMoved (graph other : PortGraph) (place : Nat → Nat) : Wire → Wire :=
  graph.wireAlong other (Endpoint.move place)

theorem Renumbered.wire?_move (renumbered : graph.Renumbered other place) (source : Endpoint) :
    other.wire? other.wireStarts (source.move place) =
      (graph.wire? graph.wireStarts source).map (graph.wireMoved other place) := by
  cases starts : graph.wire? graph.wireStarts source with
  | some wire =>
      have found := hasSource_of_wire (wire?_eq_some_iff.mp starts)
      exact wireAlong_eq starts (renumbered.plan.hasSource_iff.mpr found)
  | none =>
      refine Option.eq_none_iff_forall_ne_some.mpr fun there startsThere => ?_
      have foundThere := hasSource_of_wire (wire?_eq_some_iff.mp startsThere)
      obtain ⟨wire, found⟩ := exists_wire_of_source (renumbered.plan.hasSource_iff.mp foundThere)
      cases starts.symm.trans (wire?_eq_some_iff.mpr found)

theorem Renumbered.feedingWire?_move (renumbered : graph.Renumbered other place)
    (target : Endpoint) :
    other.feedingWire? other.wireStarts (target.move place) =
      (graph.feedingWire? graph.wireStarts target).map (graph.wireMoved other place) := by
  unfold feedingWire?
  rw [renumbered.predecessors_move, List.head?_map]
  cases (graph.predecessors target).head? with
  | none => rfl
  | some source => exact renumbered.wire?_move source

/-- When the nodes are put in another order, each wire has one in its place. -/
theorem Renumbered.follows (renumbered : graph.Renumbered other place) :
    graph.Follows other id (graph.wireMoved other place) where
  sites site member := by
    have isSite := mem_sites_iff.mp member
    refine ⟨⟨place site.id, site.node, site.primitive,
      site.inputs.map (graph.wireMoved other place),
      site.outputs.map (graph.wireMoved other place)⟩, mem_sites_iff.mpr ?_,
      site.primitive.rename_id.symm, rfl, rfl⟩
    constructor
    case node => exact (renumbered.plan.nodes site.id).trans isSite.node
    case kind => exact isSite.kind
    case inputs =>
      have moved : ((List.range site.node.inputs.length).map fun port =>
          other.feedingWire? other.wireStarts (.node (place site.id) port)) =
          ((List.range site.node.inputs.length).map fun port =>
            graph.feedingWire? graph.wireStarts (.node site.id port)).map
              (Option.map (graph.wireMoved other place)) := by
        rw [List.map_map]
        exact List.map_congr_left fun port _ => renumbered.feedingWire?_move (.node site.id port)
      rw [moved, isSite.inputs, List.map_map, List.map_map]
      rfl
    case outputs =>
      have moved : ((List.range site.node.outputs.length).map fun port =>
          other.wire? other.wireStarts (.node (place site.id) port)) =
          ((List.range site.node.outputs.length).map fun port =>
            graph.wire? graph.wireStarts (.node site.id port)).map
              (Option.map (graph.wireMoved other place)) := by
        rw [List.map_map]
        exact List.map_congr_left fun port _ => renumbered.wire?_move (.node site.id port)
      rw [moved, isSite.outputs, List.map_map, List.map_map]
      rfl
  inputs port _ := renumbered.wire?_move (.input port)
  outputs port _ := renumbered.feedingWire?_move (.output port)

/-- The wire in place of a wire has that in its place when the nodes are put back. -/
theorem Renumbered.wireMoved_back (renumbered : graph.Renumbered other place) {wire : Wire}
    (inside : wire < graph.sources.length) :
    other.wireMoved graph place.symm (graph.wireMoved other place wire) = wire := by
  have starts := wire?_eq_some_iff.mpr (List.getElem?_eq_getElem inside)
  have moved := renumbered.wire?_move graph.sources[wire]
  have back := renumbered.symm.wire?_move (graph.sources[wire].move place)
  rw [Endpoint.move_symm_move, moved, starts] at back
  exact (Option.some.inj back).symm

/-- The signature of a graph, where the same is known of the wires in place of the wires. -/
theorem Follows.signature_eq {along : Wire → Wire} {facts there : Facts}
    (follows : graph.Follows other id along) (inputs : other.inputs = graph.inputs)
    (outputs : other.outputs = graph.outputs)
    (same : ∀ wire, wire < graph.sources.length → there.get (along wire) = facts.get wire) :
    other.signature there = graph.signature facts := by
  have type (source : Option Endpoint) :
      (((source.bind (graph.wire? graph.wireStarts)).map along).map there.get).getD .unknown =
        ((source.bind (graph.wire? graph.wireStarts)).map facts.get).getD .unknown := by
    cases starts : source.bind (graph.wire? graph.wireStarts) with
    | none => rfl
    | some wire =>
        obtain ⟨_, -, found⟩ := Option.bind_eq_some_iff.mp starts
        exact same wire (List.getElem?_eq_some_iff.mp (wire?_eq_some_iff.mp found)).1
  unfold signature
  rw [inputs, outputs]
  refine congrArg₂ Signature.mk ?_ ?_
  · refine List.map_congr_left ?_
    rintro ⟨name, port⟩ member
    have inside := (List.getElem?_eq_some_iff.mp (List.mem_zipIdx_iff_getElem?.mp member)).1
    simp only [follows.inputs port inside]
    exact congrArg (PortSignature.mk name) (type (some (.input port)))
  · refine List.map_congr_left ?_
    rintro ⟨name, port⟩ member
    have inside := (List.getElem?_eq_some_iff.mp (List.mem_zipIdx_iff_getElem?.mp member)).1
    simp only [follows.outputs port inside]
    exact congrArg (PortSignature.mk name) (type (graph.predecessors (.output port)).head?)

/-- When the nodes are put in another order, a graph has its signature still. -/
theorem Renumbered.infer_eq_ok (renumbered : graph.Renumbered other place) {signature : Signature}
    (inferred : graph.infer false = .ok signature) : other.infer false = .ok signature := by
  obtain ⟨faultless, rfl⟩ := infer_eq_ok_iff.mp inferred
  have back := renumbered.symm.follows
  have knownBack := back.known Function.injective_id faultless
  have faultlessThere :=
    back.faultless_of_known (other.size_facts _) (graph.size_facts _) knownBack faultless
  have known := renumbered.follows.known Function.injective_id faultlessThere
  refine infer_eq_ok_iff.mpr ⟨faultlessThere, Eq.symm ?_⟩
  refine renumbered.follows.signature_eq renumbered.plan.inputs renumbered.plan.outputs ?_
  intro wire inside
  refine PortType.eq_of_known fun sort symbol => ⟨fun there => ?_, known wire sort symbol⟩
  have here := knownBack _ sort symbol there
  rwa [renumbered.wireMoved_back inside] at here

theorem Renumbered.infer_ok_iff (renumbered : graph.Renumbered other place)
    {signature : Signature} :
    other.infer false = .ok signature ↔ graph.infer false = .ok signature :=
  ⟨renumbered.symm.infer_eq_ok, renumbered.infer_eq_ok⟩

end Renumbering

/-! ## Any order of work -/

/--
Whatever the order of work, inference says the same of a graph that was built from a plan and its
edges: whether there is a type error and, if there is none, what the signature is.
-/
structure OrderIndependent (plan : GraphPlan) (edges : List Edge) (graph : PortGraph) : Prop where
  /-- The turns of inference come to an end. -/
  ends : TurnsEnd graph.sites (sitesAt graph.sources.length graph.sites)
    (.unknown graph.sources.length) (.all graph.sites.length) (graph.facts graph.sites)
  /-- One more turn of any site changes nothing then. -/
  atRest : ∀ site ∈ graph.sites,
    (graph.facts graph.sites).apply site.primitive site.inputs site.outputs =
      graph.facts graph.sites
  /-- So it is if the sites wait in another order at first. -/
  waiting : ∀ sites : List Site, sites.Perm graph.sites →
    TurnsEnd sites (sitesAt graph.sources.length sites) (.unknown graph.sources.length)
        (.all sites.length) (graph.facts sites) ∧
      (∀ site ∈ graph.sites, site.AtRest (graph.facts sites)) ∧ graph.Concurs (graph.facts sites)
  /-- Any turns may be taken that bring all sites to rest. -/
  turns : ∀ order ⊆ graph.sites, (∀ site ∈ graph.sites, site.AtRest (graph.after order)) →
    graph.Concurs (graph.after order)
  /-- If each site has a turn again and again, nothing changes any more from some time on. -/
  fair : ∀ order, graph.Fair order → ∃ last, ∀ later, last ≤ later →
    graph.after (firstTurns order later) = graph.after (firstTurns order last) ∧
      (∀ site ∈ graph.sites, site.AtRest (graph.after (firstTurns order later))) ∧
        graph.Concurs (graph.after (firstTurns order later))
  /-- Some sweep over all sites changes nothing. -/
  sweepsEnd : ∃ rounds, graph.swept (rounds + 1) = graph.swept rounds
  /-- The first sweep that changes nothing may be the last. -/
  sweeps : ∀ rounds, graph.swept (rounds + 1) = graph.swept rounds →
    (∀ site ∈ graph.sites, site.AtRest (graph.swept rounds)) ∧ graph.Concurs (graph.swept rounds)
  /-- The nodes may have other numbers, and so the wires and the sites. -/
  numbers : ∀ (place : Equiv.Perm Nat) (other : GraphPlan), plan.Renumbered other place →
    ∃ moved, build other (edges.map (Edge.move place)) = .ok moved ∧
      ∀ signature, moved.infer false = .ok signature ↔ graph.infer false = .ok signature

variable {graph : PortGraph}

theorem concurs_facts {sites : List Site} (same : sites.Perm graph.sites) :
    (∀ site ∈ graph.sites, site.AtRest (graph.facts sites)) ∧
      graph.Concurs (graph.facts sites) := by
  obtain ⟨order, within, turned⟩ := graph.facts_eq_after same.subset
  have atRest : ∀ site ∈ graph.sites, site.AtRest (graph.facts sites) := fun site member =>
    graph.facts_atRest (fun site member => graph.sites_inside site (same.subset member)) site
      (same.symm.subset member)
  refine ⟨atRest, ?_⟩
  rw [turned] at atRest ⊢
  exact concurs_after (List.Subset.trans within same.subset) atRest

/-- What inference says of a graph does not depend on the order of work. -/
theorem infer_order_independent {plan : GraphPlan} {edges : List Edge}
    (built : build plan edges = .ok graph) : OrderIndependent plan edges graph where
  ends := graph.facts_turnsEnd graph.sites_inside
  atRest := (concurs_facts (.refl graph.sites)).1
  waiting sites same := by
    refine ⟨graph.facts_turnsEnd fun site member => ?_, concurs_facts same⟩
    exact graph.sites_inside site (same.subset member)
  turns order within atRest := concurs_after within atRest
  fair order fair := by
    obtain ⟨last, constant⟩ := fair.exists_last
    refine ⟨last, fun later from_last => ?_⟩
    obtain ⟨same, atRest⟩ := constant later from_last
    exact ⟨same, atRest, concurs_after (fair.firstTurns_subset later) atRest⟩
  sweepsEnd := graph.exists_idle_sweep
  sweeps rounds idle := by
    have atRest := atRest_of_idle_sweep idle
    refine ⟨atRest, ?_⟩
    rw [swept_eq_after] at atRest ⊢
    exact concurs_after (graph.sweptOrder_subset rounds) atRest
  numbers place other renumbered := by
    obtain ⟨moved, builtThere, moves⟩ := build_renumbered built renumbered
    exact ⟨moved, builtThere, fun signature => moves.infer_ok_iff⟩

/-! ### Orders that learn different facts -/

/-- A primitive node of the diagram below. -/
def starvedNode (primitive : Primitive) (inputs outputs : List String) : Node :=
  ⟨.primitive primitive, inputs, outputs, ⟨[], "main", 0, false, ⟨0, 0⟩⟩⟩

/--
A merge whose output has to carry a symbol that neither of its inputs may carry.  One of the nodes
has a port more than its primitive.
-/
def starvedPlan : GraphPlan where
  root := "main"
  rootSpan := ⟨0, 0⟩
  generators := []
  inputs := ["X", "Z"]
  outputs := ["Y"]
  nodes := #[starvedNode .join ["L", "R"] ["O"], starvedNode (.remove "a") ["I"] ["O"],
    starvedNode (.add "a") ["I"] ["O", "P"], starvedNode (.add "a") ["I"] ["O"]]
  instances := []

def starvedEdges : List Edge := [
  ⟨.input 0, .node 0 0⟩, ⟨.input 1, .node 0 1⟩, ⟨.node 0 0, .node 1 0⟩, ⟨.node 1 0, .output 0⟩,
  ⟨.input 0, .node 2 0⟩, ⟨.input 1, .node 3 0⟩]

/-- The turns of the sites with some numbers. -/
def turnsOf (graph : PortGraph) (numbers : List Nat) : List Site :=
  numbers.filterMap (graph.sites[·]?)

theorem turnsOf_subset (graph : PortGraph) (numbers : List Nat) :
    graph.turnsOf numbers ⊆ graph.sites := by
  intro site member
  obtain ⟨_, -, found⟩ := List.mem_filterMap.mp member
  exact List.mem_of_getElem? found

instance (facts : Facts) (site : Site) : Decidable (site.AtRest facts) :=
  inferInstanceAs (Decidable (facts.turn site = facts))

/-- If the merge has its turn early, it supplies the symbol; both orders end with a type error. -/
theorem infer_order_independent_starved :
    ∃ graph, build starvedPlan starvedEdges = .ok graph ∧
      graph.after (graph.turnsOf [1, 2, 0, 3, 0, 1, 2, 3]) ≠
        graph.after (graph.turnsOf [1, 2, 3, 0, 1, 2, 3]) ∧
      graph.Concurs (graph.after (graph.turnsOf [1, 2, 0, 3, 0, 1, 2, 3])) ∧
      graph.Concurs (graph.after (graph.turnsOf [1, 2, 3, 0, 1, 2, 3])) ∧
      ¬ (∃ signature, graph.infer false = .ok signature) ∧
      OrderIndependent starvedPlan starvedEdges graph := by
  have looking : (build starvedPlan starvedEdges).toOption.map (fun graph =>
      let early := graph.after (graph.turnsOf [1, 2, 0, 3, 0, 1, 2, 3])
      let late := graph.after (graph.turnsOf [1, 2, 3, 0, 1, 2, 3])
      decide (early ≠ late ∧ (∀ site ∈ graph.sites, site.AtRest early) ∧
        (∀ site ∈ graph.sites, site.AtRest late) ∧ graph.typingFaults graph.sites early ≠ [])) =
        some true := by
    decide +kernel
  obtain ⟨graph, found, seen⟩ := Option.map_eq_some_iff.mp looking
  obtain ⟨differ, atRest, lateAtRest, faulty⟩ := of_decide_eq_true seen
  have built := eq_ok_of_toOption found
  have independent := infer_order_independent built
  have early := independent.turns _ (graph.turnsOf_subset _) atRest
  have late := independent.turns _ (graph.turnsOf_subset _) lateAtRest
  have fails : ¬ ∃ signature, graph.infer false = .ok signature :=
    fun inferred => faulty (early.faultless_iff.mpr inferred)
  exact ⟨graph, built, differ, early, late, fails, independent⟩

end FlowDiagram.PortGraph

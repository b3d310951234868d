import FlowDiagram.Compilation.Run
import FlowDiagram.Proofs.Signature.Exclusion
import FlowDiagram.Proofs.Signature.Lacking

/-!
# How far inclusion is exact

What a signature includes at a port passes there in every flow.  Conversely, what passes in every
flow need not be included: where a merge must let a symbol out that several of its inputs may bring,
none of them is told to bring it, even when all of them can only together with the port.  But for
such merges, inclusion is exact.
-/

namespace FlowDiagram

namespace PortGraph

variable {graph : PortGraph} {symbol : Symbol} {start wire : Wire}

/-! ## What every flow carries -/

/--
A merge that every flow makes let a symbol out, which beside each input another may bring, while
all inputs are to lack it with the wire `start`.
-/
structure Corners (graph : PortGraph) (symbol : Symbol) (start : Wire) (site : Site) : Prop where
  listed : site ∈ graph.sites
  merges : site.primitive.IsMerge
  demanded : ∀ output ∈ site.outputs, ∀ carried, graph.Flow carried →
    symbol ∈ graph.alongWires carried output
  contested : ∀ before only after, site.inputs = before ++ only :: after →
    ∃ other ∈ before ++ after, ∃ carried, graph.Flow carried ∧
      symbol ∈ graph.alongWires carried other
  lack : ∀ input ∈ site.inputs, graph.LacksWith symbol start input

/-- What a flow bears out is closed under the rules of all sites. -/
theorem Connected.ofFlow_closedAt (connected : graph.Connected) {carried : Endpoint → Set Symbol}
    (flow : graph.Flow carried) :
    ∀ site ∈ graph.sites, (View.ofFlow (graph.alongWires carried)).ClosedAt site :=
  fun site listed => View.ofFlow_closed (connected.flow_iff.mp flow site listed)

/-- No flow can lack a symbol on a wire with which a merge lacks it that must let it out. -/
theorem Corners.carried {site : Site} (corners : graph.Corners symbol start site)
    (connected : graph.Connected) {carried : Endpoint → Set Symbol} (flow : graph.Flow carried) :
    symbol ∈ graph.alongWires carried start := by
  have closed := connected.ofFlow_closedAt flow
  have fits := connected.sites_fit site corners.listed
  obtain ⟨output, only⟩ := fits.exists_output corners.merges
  have leaves : output ∈ site.outputs := only ▸ List.mem_singleton_self output
  have rule := (closed site corners.listed).merges fits corners.merges leaves
  by_contra absent
  have lacked := rule.lackedByAll fits.inputs_ne_nil symbol fun input enters =>
    (corners.lack input enters).lacked connected.sites_fit closed (View.ofFlow_false.mpr absent)
  exact View.ofFlow_false.mp lacked (corners.demanded output leaves carried flow)

/-- Every flow carries along a wire what is known to be carried there. -/
theorem Connected.carried_of_includes (connected : graph.Connected)
    (known : symbol ∈ ((graph.facts graph.sites).get wire).includes)
    {carried : Endpoint → Set Symbol} (flow : graph.Flow carried) :
    symbol ∈ graph.alongWires carried wire := by
  have within : (graph.facts graph.sites).Within (View.ofFlow (graph.alongWires carried)) :=
    graph.facts_within (connected.ofFlow_closedAt flow)
  exact (within.describes wire).1 symbol known

/-- A wire known to carry a symbol that it is to lack with another tells of that, or of a merge. -/
theorem Connected.known_or_cornered (connected : graph.Connected)
    (faultless : graph.typingFaults graph.sites (graph.facts graph.sites) = [])
    (known : symbol ∈ ((graph.facts graph.sites).get wire).includes)
    (lacks : graph.LacksWith symbol start wire) :
    symbol ∈ ((graph.facts graph.sites).get start).includes ∨
      ∃ site, graph.Corners symbol start site := by
  have size := graph.size_facts graph.sites
  have closed := closed_of_faultless size (graph.facts_atRest graph.sites_inside) faultless
  have consistent := consistent_of_faultless size faultless
  rcases lacks.carried_or_contested connected.sites_fit closed consistent known with
    here | ⟨site, listed, merges, demanded, contested, lack⟩
  · exact .inl here
  · refine .inr ⟨site, listed, merges, ?_, ?_, lack⟩
    · exact fun output leaves carried flow =>
        connected.carried_of_includes (demanded output leaves) flow
    · intro before only after split
      obtain ⟨other, beside, possible⟩ := contested before only after split
      have enters : other ∈ site.inputs := by
        rw [split]
        simp only [List.mem_append, List.mem_cons] at beside ⊢
        exact beside.imp_right .inr
      have inside := (connected.sites_fit site listed).inside other (List.mem_append_left _ enters)
      obtain ⟨carried, flow, -, present⟩ :=
        connected.exists_flow_of_possible faultless inside (fun _ => rfl) possible
      exact ⟨other, beside, carried, flow, present⟩

/-- Every flow carries along a wire what is known to be carried, and what merges bring about. -/
theorem Connected.carried_by_all_iff (connected : graph.Connected)
    (faultless : graph.typingFaults graph.sites (graph.facts graph.sites) = [])
    (inside : wire < graph.sources.length) :
    (∀ carried, graph.Flow carried → symbol ∈ graph.alongWires carried wire) ↔
      symbol ∈ ((graph.facts graph.sites).get wire).includes ∨
        ∃ site, graph.Corners symbol wire site := by
  constructor
  · intro always
    by_contra neither
    have consistent := consistent_of_faultless (graph.size_facts graph.sites) faultless
    have carries : ∀ other, ∀ known ∈ ((graph.facts graph.sites).get other).includes,
        known ∈ graph.flowWithout symbol wire other := by
      intro other known member
      refine ⟨?_, fun _ => consistent other known member⟩
      rintro rfl lacks
      exact neither (connected.known_or_cornered faultless member lacks)
    have closed := closed_of_faultless (graph.size_facts graph.sites)
      (graph.facts_atRest graph.sites_inside) faultless
    have flow := connected.flow_fromSources fun site listed =>
      lawful_without listed (connected.sites_fit site listed) (closed site listed) carries
    have present := always _ flow
    rw [alongWires_fromSources _ inside, mem_flowWithout_self] at present
    exact present .start
  · rintro (known | ⟨site, corners⟩) carried flow
    · exact connected.carried_of_includes known flow
    · exact corners.carried connected flow

end PortGraph

/-! ## Signatures -/

/-- A signature includes at each port of the boundary what passes there in every flow. -/
structure Signature.IncludesExactly (signature : Signature) (graph : PortGraph) : Prop where
  inputs : ∀ port name type, signature.inputs[port]? = some ⟨name, type⟩ → ∀ symbol,
    (∀ carried, graph.Flow carried → symbol ∈ carried (.input port)) → symbol ∈ type.includes
  outputs : ∀ port name type, signature.outputs[port]? = some ⟨name, type⟩ → ∀ symbol,
    (∀ carried, graph.Flow carried → symbol ∈ graph.received carried (.output port)) →
      symbol ∈ type.includes

/--
A signature has each port on the boundary of a graph, and of the symbols that pass there in every
flow it includes all but those that merges bring about.
-/
structure Signature.IncludesButCornered (signature : Signature) (graph : PortGraph) : Prop where
  inputs : ∀ (port : Nat) (name : String), graph.inputs[port]? = some name →
    ∃ type wire, signature.inputs[port]? = some ⟨name, type⟩ ∧
      graph.wire? graph.wireStarts (.input port) = some wire ∧
      ∀ symbol, (∀ carried, graph.Flow carried → symbol ∈ carried (.input port)) ↔
        symbol ∈ type.includes ∨ ∃ site, graph.Corners symbol wire site
  outputs : ∀ (port : Nat) (name : String), graph.outputs[port]? = some name →
    ∃ type wire, signature.outputs[port]? = some ⟨name, type⟩ ∧
      graph.feedingWire? graph.wireStarts (.output port) = some wire ∧
      ∀ symbol, (∀ carried, graph.Flow carried → symbol ∈ graph.received carried (.output port)) ↔
        symbol ∈ type.includes ∨ ∃ site, graph.Corners symbol wire site

theorem PortGraph.Connected.signature_includesButCornered {graph : PortGraph}
    (connected : graph.Connected)
    (faultless : graph.typingFaults graph.sites (graph.facts graph.sites) = []) :
    (graph.signature (graph.facts graph.sites)).IncludesButCornered graph where
  inputs port name found := by
    have source : graph.HasSource (.input port) := (List.getElem?_eq_some_iff.mp found).1
    obtain ⟨wire, starts, inside, takes⟩ := PortGraph.wire_of_source source
    refine ⟨(graph.facts graph.sites).get wire, wire, ?_, starts, fun symbol => ?_⟩
    · simp [PortGraph.signature, found, starts]
    · simp only [takes]
      exact connected.carried_by_all_iff faultless inside
  outputs port name found := by
    have target : graph.HasTarget (.output port) := (List.getElem?_eq_some_iff.mp found).1
    obtain ⟨wire, feeds, inside, brings⟩ := connected.feedingWire target
    refine ⟨(graph.facts graph.sites).get wire, wire, ?_, feeds, fun symbol => ?_⟩
    · simp [PortGraph.signature, found, feeds]
    · simp only [brings]
      exact connected.carried_by_all_iff faultless inside

/--
The signature inferred for an expanded and checked graph includes at each port of the boundary
exactly the symbols that every flow of the graph carries there, but for those that every flow
carries because of a merge: it must let the symbol out, more than one of its inputs may bring it,
and none of them can when the port lacks it.
-/
theorem ResolvedProgram.includes_iff_always_passes {program : Program}
    {root : program.resolved.Index} {generators : Option (List Symbol)} {limits : UnfoldingLimits}
    {graph : PortGraph} {checkExpired inferExpired : Bool} {signature : Signature}
    (expanded : program.resolved.expand root generators limits = .ok graph)
    (checked : graph.checkConnections checkExpired = .ok ())
    (inferred : graph.infer inferExpired = .ok signature) :
    signature.IncludesButCornered graph := by
  have connected := connected_of_expand program.resolved_sound expanded
    (PortGraph.checkConnections_false checked)
  obtain ⟨faultless, rfl⟩ := PortGraph.infer_eq_ok_iff.mp (PortGraph.infer_false inferred)
  exact connected.signature_includesButCornered faultless

/-- A flow is copied, merged with its copy, and only then rid of a symbol. -/
def rejoining : Program :=
  .ofLines [
    "def main = [X | Y]",
    "  use <> [X | Y, Z] as Fork",
    "  use U\x7b2\x7d [X, Z | Y] as Merge",
    "  use -a [X | Y] as Rem",
    "  link X >-> Fork.X, Fork.Y >-> Merge.X, Fork.Z >-> Merge.Z, Merge.Y >-> Rem.X, Rem.Y >-> Y"]

/-- The signature of the rejoining program, which requires nothing of what goes in. -/
def rejoiningSignature : Signature :=
  ⟨[⟨"X", .unknown⟩], [⟨"Y", ⟨.empty, .singleton "a"⟩⟩]⟩

/-- What the merge must let out for the symbol to be removed comes in along two wires. -/
theorem rejoining_inferred :
    ∃ (root : rejoining.resolved.Index) (graph : PortGraph),
      rejoining.resolved.expand root none ⟨0, 8, false⟩ = .ok graph ∧
      graph.checkConnections false = .ok () ∧ graph.infer false = .ok rejoiningSignature ∧
      graph.inputs = ["X"] ∧
      graph.sites.map (fun site => (site.primitive, site.inputs, site.outputs)) =
        [(.split, [0], [1, 2]), (.union 2, [1, 2], [3]), (.remove "a", [3], [4])] := by
  have inferring : (rejoining.resolved.named? "main").any (fun root =>
      (rejoining.resolved.expand root none ⟨0, 8, false⟩).toOption.any fun graph =>
        decide ((graph.checkConnections false).toOption = some ()) &&
        decide ((graph.infer false).toOption = some rejoiningSignature) &&
        decide (graph.inputs = ["X"]) &&
        decide (graph.sites.map (fun site => (site.primitive, site.inputs, site.outputs)) =
          [(.split, [0], [1, 2]), (.union 2, [1, 2], [3]), (.remove "a", [3], [4])])) = true := by
    decide +kernel
  simp only [Option.any_eq_true, Bool.and_eq_true, decide_eq_true_eq] at inferring
  obtain ⟨root, -, graph, found, ⟨⟨checks, infers⟩, inputs⟩, sites⟩ := inferring
  exact ⟨root, graph, eq_ok_of_toOption found, eq_ok_of_toOption checks, eq_ok_of_toOption infers,
    inputs, sites⟩

/-- Every flow of the rejoining program brings the symbol that is removed. -/
theorem rejoining_carries {graph : PortGraph} (connected : graph.Connected)
    (inputs : graph.inputs = ["X"])
    (sites : graph.sites.map (fun site => (site.primitive, site.inputs, site.outputs)) =
      [(.split, [0], [1, 2]), (.union 2, [1, 2], [3]), (.remove "a", [3], [4])])
    {carried : Endpoint → Set Symbol} (flow : graph.Flow carried) :
    "a" ∈ carried (.input 0) := by
  have law : ∀ primitive entering leaving, (primitive, entering, leaving) ∈
      graph.sites.map (fun site => (site.primitive, site.inputs, site.outputs)) →
      primitive.Lawful (entering.map (graph.alongWires carried))
        (leaving.map (graph.alongWires carried)) := by
    intro primitive entering leaving listed
    obtain ⟨site, member, same⟩ := List.mem_map.mp listed
    cases same
    exact connected.flow_iff.mp flow site member
  rw [sites] at law
  obtain ⟨first, second⟩ : graph.alongWires carried 1 = graph.alongWires carried 0 ∧
      graph.alongWires carried 2 = graph.alongWires carried 0 := law .split [0] [1, 2] (by simp)
  have merged : graph.alongWires carried 3 =
      {symbol | ∃ input ∈ [graph.alongWires carried 1, graph.alongWires carried 2],
        symbol ∈ input} := law (.union 2) [1, 2] [3] (by simp)
  obtain ⟨needed, -⟩ : "a" ∈ graph.alongWires carried 3 ∧ _ :=
    law (.remove "a") [3] [4] (by simp)
  have starts : graph.sources[0]? = some (.input 0) :=
    PortGraph.sources_getElem?.mpr (.inl ⟨by simp [inputs], rfl⟩)
  have entered : "a" ∈ graph.alongWires carried 0 := by
    rw [merged, first, second] at needed
    simpa using needed
  simpa [PortGraph.alongWires, starts] using entered

/-- What the rejoining program requires to come in is not included there. -/
theorem ResolvedProgram.not_includesExactly_rejoining :
    ∃ (root : rejoining.resolved.Index) (graph : PortGraph),
      rejoining.resolved.expand root none ⟨0, 8, false⟩ = .ok graph ∧
      graph.checkConnections false = .ok () ∧ graph.infer false = .ok rejoiningSignature ∧
      ¬ rejoiningSignature.IncludesExactly graph := by
  obtain ⟨root, graph, expanded, checked, inferred, inputs, sites⟩ := rejoining_inferred
  refine ⟨root, graph, expanded, checked, inferred, fun exactly => ?_⟩
  have connected := connected_of_expand rejoining.resolved_sound expanded checked
  have included := exactly.inputs 0 "X" .unknown rfl "a" fun carried flow =>
    rejoining_carries connected inputs sites flow
  exact SymbolSet.not_mem_empty "a" included

/-- In the rejoining program a merge has the one symbol pass that is required and not included. -/
theorem ResolvedProgram.includes_iff_always_passes_rejoining :
    ∃ (root : rejoining.resolved.Index) (graph : PortGraph),
      rejoining.resolved.expand root none ⟨0, 8, false⟩ = .ok graph ∧
      graph.checkConnections false = .ok () ∧ graph.infer false = .ok rejoiningSignature ∧
      rejoiningSignature.IncludesButCornered graph := by
  obtain ⟨root, graph, expanded, checked, inferred, -⟩ := rejoining_inferred
  exact ⟨root, graph, expanded, checked, inferred,
    ResolvedProgram.includes_iff_always_passes expanded checked inferred⟩

end FlowDiagram

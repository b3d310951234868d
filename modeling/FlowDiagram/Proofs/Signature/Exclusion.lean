import FlowDiagram.Proofs.Expansion.Incoming
import FlowDiagram.Proofs.Signature.Inference

/-!
# Exclusion is exact

The symbols that the wires of a graph are not known to lack make up a flow of it, the largest one.
So a signature excludes at a port of the boundary all the symbols that never pass there and no
other.
-/

namespace FlowDiagram

/-- Of the symbols that pass in the flows of a graph, a type excludes just those that never do. -/
structure PortType.ExcludesExactly (type : PortType) (graph : PortGraph)
    (passing : (Endpoint → Set Symbol) → Set Symbol) : Prop where
  excludes_iff : ∀ symbol,
    symbol ∈ type.excludes ↔ ¬ ∃ carried, graph.Flow carried ∧ symbol ∈ passing carried
  /-- What is not excluded passes in a flow of finitely many symbols. -/
  finite : ∀ symbol, symbol ∉ type.excludes →
    ∃ carried, graph.Flow carried ∧ (∀ source, (carried source).Finite) ∧
      symbol ∈ passing carried

/-- A signature has each port on the boundary of a graph, and its exclusions are exact there. -/
structure Signature.ExcludesExactly (signature : Signature) (graph : PortGraph) : Prop where
  inputs : ∀ (port : Nat) (name : String), graph.inputs[port]? = some name →
    ∃ type, signature.inputs[port]? = some ⟨name, type⟩ ∧
      type.ExcludesExactly graph fun carried => carried (.input port)
  outputs : ∀ (port : Nat) (name : String), graph.outputs[port]? = some name →
    ∃ type, signature.outputs[port]? = some ⟨name, type⟩ ∧
      type.ExcludesExactly graph fun carried => graph.received carried (.output port)

namespace PortGraph

variable {graph : PortGraph}

/-- What has been inferred before time was up is as if there were no end to it. -/
theorem infer_false {expired : Bool} {signature : Signature}
    (inferred : graph.infer expired = .ok signature) : graph.infer false = .ok signature := by
  unfold infer at inferred
  dsimp only at inferred
  split at inferred
  · cases inferred
  · simpa [infer] using inferred

/-! ## The largest flow -/

/-- The symbols that the wires of a graph are not known to lack, from the sources on. -/
def possibleFlow (graph : PortGraph) : Endpoint → Set Symbol :=
  graph.fromSources (graph.facts graph.sites).possible

/-- Without a fault, what is not known to be lacked is a flow. -/
theorem Connected.flow_possible (connected : graph.Connected)
    (faultless : graph.typingFaults graph.sites (graph.facts graph.sites) = []) :
    graph.Flow graph.possibleFlow :=
  connected.flow_fromSources fun site member =>
    graph.facts_settled connected.sites_fit site member fun wire _ =>
      consistent_of_faultless (graph.size_facts graph.sites) faultless wire

/-- No flow carries more than what is not known to be lacked. -/
theorem Connected.flow_subset_possible (connected : graph.Connected)
    {carried : Endpoint → Set Symbol} (flow : graph.Flow carried) (wire : Wire) :
    graph.alongWires carried wire ⊆ (graph.facts graph.sites).possible wire := by
  have lawful := connected.flow_iff.mp flow
  have within : (graph.facts graph.sites).Within (View.ofFlow (graph.alongWires carried)) :=
    graph.facts_within fun site member => View.ofFlow_closed (lawful site member)
  intro symbol present lacked
  exact (within.describes wire).2 symbol lacked present

/-- Finitely many symbols are enough for one of them to pass wherever it passes in a flow. -/
theorem Flow.exists_finite_carrying {carried : Endpoint → Set Symbol} (flow : graph.Flow carried)
    (symbol : Symbol) :
    ∃ finite, graph.Flow finite ∧ (∀ source, (finite source).Finite) ∧
      ∀ source, symbol ∈ carried source → symbol ∈ finite source := by
  let counting : Set Symbol := insert symbol {other | other ∈ graph.named}
  have counts : symbol ∈ counting := Set.mem_insert symbol _
  have finite : counting.Finite := (List.finite_toSet graph.named).insert symbol
  refine ⟨fun source => carried source ∩ counting, ?_, ?_, ?_⟩
  · exact flow.inter fun other named => Set.mem_insert_of_mem symbol named
  · exact fun source => finite.subset Set.inter_subset_right
  · exact fun source carries => ⟨carries, counts⟩

/-! ## What is known of a wire -/

variable {wire : Wire} {passing : (Endpoint → Set Symbol) → Set Symbol}

/-- What is not known to be lacked by a wire passes along it in a flow of finitely many symbols. -/
theorem Connected.exists_flow_of_possible (connected : graph.Connected)
    (faultless : graph.typingFaults graph.sites (graph.facts graph.sites) = [])
    (inside : wire < graph.sources.length)
    (passes : ∀ carried, passing carried = graph.alongWires carried wire) {symbol : Symbol}
    (possible : symbol ∈ (graph.facts graph.sites).possible wire) :
    ∃ carried, graph.Flow carried ∧ (∀ source, (carried source).Finite) ∧
      symbol ∈ passing carried := by
  obtain ⟨carried, flow, finite, keeps⟩ :=
    (connected.flow_possible faultless).exists_finite_carrying symbol
  have starts := List.getElem?_eq_getElem inside
  have carries : symbol ∈ graph.alongWires graph.possibleFlow wire := by
    rw [possibleFlow, alongWires_fromSources _ inside]
    exact possible
  refine ⟨carried, flow, finite, ?_⟩
  rw [passes]
  simp only [alongWires, starts, Option.map_some, Option.getD_some] at carries ⊢
  exact keeps _ carries

/-- Without a fault, the exclusions known of a wire are exact. -/
theorem Connected.excludesExactly (connected : graph.Connected)
    (faultless : graph.typingFaults graph.sites (graph.facts graph.sites) = [])
    (inside : wire < graph.sources.length)
    (passes : ∀ carried, passing carried = graph.alongWires carried wire) :
    ((graph.facts graph.sites).get wire).ExcludesExactly graph passing where
  excludes_iff symbol := by
    constructor
    · rintro lacked ⟨carried, flow, present⟩
      rw [passes] at present
      exact connected.flow_subset_possible flow wire present lacked
    · intro never
      by_contra free
      obtain ⟨carried, flow, -, present⟩ :=
        connected.exists_flow_of_possible faultless inside passes free
      exact never ⟨carried, flow, present⟩
  finite symbol free := connected.exists_flow_of_possible faultless inside passes free

/-- The signature of a connected graph without a fault excludes exactly what never passes. -/
theorem Connected.signature_excludesExactly (connected : graph.Connected)
    (faultless : graph.typingFaults graph.sites (graph.facts graph.sites) = []) :
    (graph.signature (graph.facts graph.sites)).ExcludesExactly graph where
  inputs port name found := by
    have source : graph.HasSource (.input port) := (List.getElem?_eq_some_iff.mp found).1
    obtain ⟨wire, starts, inside, takes⟩ := wire_of_source source
    refine ⟨(graph.facts graph.sites).get wire, ?_,
      connected.excludesExactly faultless inside takes⟩
    simp [signature, found, starts]
  outputs port name found := by
    have target : graph.HasTarget (.output port) := (List.getElem?_eq_some_iff.mp found).1
    obtain ⟨wire, feeds, inside, brings⟩ := connected.feedingWire target
    refine ⟨(graph.facts graph.sites).get wire, ?_,
      connected.excludesExactly faultless inside brings⟩
    simp [signature, found, feeds]

end PortGraph

/--
The signature inferred for an expanded and checked graph excludes at each port of the boundary
exactly the symbols that no flow of the graph carries there.
-/
theorem ResolvedProgram.excludes_iff_never_passes {program : Program}
    {root : program.resolved.Index} {generators : Option (List Symbol)} {limits : UnfoldingLimits}
    {graph : PortGraph} {checkExpired inferExpired : Bool} {signature : Signature}
    (expanded : program.resolved.expand root generators limits = .ok graph)
    (checked : graph.checkConnections checkExpired = .ok ())
    (inferred : graph.infer inferExpired = .ok signature) :
    signature.ExcludesExactly graph := by
  have connected := connected_of_expand program.resolved_sound expanded
    (PortGraph.checkConnections_false checked)
  obtain ⟨faultless, rfl⟩ := PortGraph.infer_eq_ok_iff.mp (PortGraph.infer_false inferred)
  exact connected.signature_excludesExactly faultless

/-- What is added behind a merge is excluded before it, and on the way out that avoids it. -/
def merging : Program :=
  .ofLines [
    "def main = [X, Z | Y, W]",
    "  use -a [X | Y] as Rem",
    "  use <> [X | Y, Z] as Fork",
    "  use U\x7b2\x7d [X, Z | Y] as Merge",
    "  use +c [X | Y] as Add",
    "  use -b [X | Y] as Drop",
    "  link X >-> Rem.X, Rem.Y >-> Fork.X, Fork.Y >-> Merge.X, Z >-> Merge.Z",
    "       Merge.Y >-> Add.X, Add.Y >-> Drop.X, Drop.Y >-> Y, Fork.Z >-> W"]

/-- The signature of the merging program. -/
def mergingSignature : Signature :=
  ⟨[⟨"X", .singleton "a", .singleton "c"⟩, ⟨"Z", .empty, .singleton "c"⟩],
    [⟨"Y", .singleton "c", .singleton "b"⟩, ⟨"W", .empty, .ofList ["a", "c"]⟩]⟩

/-- Only what is known to be added or removed is excluded: at a port, no flow carries that. -/
theorem ResolvedProgram.excludes_iff_never_passes_merging :
    ∃ (root : merging.resolved.Index) (graph : PortGraph),
      merging.resolved.expand root none ⟨0, 8, false⟩ = .ok graph ∧
      graph.checkConnections false = .ok () ∧
      graph.infer false = .ok mergingSignature ∧
      mergingSignature.ExcludesExactly graph := by
  have inferring : (merging.resolved.expand ⟨0, by decide +kernel⟩ none ⟨0, 8, false⟩).toOption.map
      (fun graph => ((graph.checkConnections false).toOption, (graph.infer false).toOption)) =
        some (some (), some mergingSignature) := by
    decide +kernel
  obtain ⟨graph, found, results⟩ := Option.map_eq_some_iff.mp inferring
  obtain ⟨checks, infers⟩ := Prod.mk.inj results
  have expanded := eq_ok_of_toOption found
  have checked := eq_ok_of_toOption checks
  have inferred := eq_ok_of_toOption infers
  exact ⟨_, graph, expanded, checked, inferred,
    ResolvedProgram.excludes_iff_never_passes expanded checked inferred⟩

end FlowDiagram

import FlowDiagram.Proofs.Expansion.Connected
import FlowDiagram.Proofs.Signature.Fixpoint

/-!
# Inference finds the flows

Inference succeeds for an expanded and checked graph exactly when the graph has a flow, and the
signature that it then gives describes every flow.
-/

namespace FlowDiagram

/-! ## Facts without contradiction -/

/-- Of the symbols that pass, all that a type includes are there and none that it excludes. -/
def PortType.Describes (type : PortType) (passing : Set Symbol) : Prop :=
  (∀ symbol ∈ type.includes, symbol ∈ passing) ∧ ∀ symbol ∈ type.excludes, symbol ∉ passing

theorem PortType.conflicts_eq_nil_iff {type : PortType} :
    type.conflicts = [] ↔ ∀ symbol ∈ type.includes, symbol ∉ type.excludes := by
  simp [PortType.conflicts, List.filter_eq_nil_iff, SymbolSet.mem_def]

namespace Facts

variable {facts : Facts}

/-- What is known of a wire describes a flow that bears the facts out. -/
theorem Within.describes {carried : Wire → Set Symbol}
    (within : facts.Within (View.ofFlow carried)) (wire : Wire) :
    (facts.get wire).Describes (carried wire) :=
  ⟨fun symbol includes => (within wire true symbol includes).mpr rfl,
    fun symbol excludes present =>
      Bool.false_ne_true ((within wire false symbol excludes).mp present)⟩

theorem Within.consistent {carried : Wire → Set Symbol}
    (within : facts.Within (View.ofFlow carried)) (wire : Wire) : facts.Consistent wire := by
  obtain ⟨included, excluded⟩ := within.describes wire
  exact fun symbol includes excludes => excluded symbol excludes (included symbol includes)

end Facts

/-- Where a flow bears the facts out, what a merge must produce is supplied. -/
theorem Site.faults_eq_nil {facts : Facts} {carried : Wire → Set Symbol} {site : Site}
    (lawful : site.primitive.Lawful (site.inputs.map carried) (site.outputs.map carried))
    (within : facts.Within (View.ofFlow carried)) : site.faults facts = [] := by
  have supplied : ∀ output, carried output =
      {symbol | ∃ input ∈ site.inputs.map carried, symbol ∈ input} →
        facts.unsupplied site.inputs output = [] := by
    intro output union
    refine List.filter_eq_nil_iff.mpr fun symbol includes lacked => ?_
    have present := (within.describes output).1 symbol includes
    rw [union] at present
    obtain ⟨_, entered, carries⟩ := present
    obtain ⟨input, member, rfl⟩ := List.mem_map.mp entered
    have absent := List.all_eq_true.mp lacked input member
    simp only [Bool.and_eq_true, decide_eq_true_eq] at absent
    exact (within.describes input).2 symbol absent.2 carries
  unfold Site.faults
  split
  · rename_i count output rest hprimitive houtputs
    rw [hprimitive, houtputs] at lawful
    cases rest with
    | nil => rw [supplied output lawful, List.map_nil]
    | cons _ _ => exact lawful.elim
  · rename_i output rest hprimitive houtputs
    rw [hprimitive, houtputs] at lawful
    cases rest with
    | nil => rw [supplied output lawful, List.map_nil]
    | cons _ _ => exact lawful.elim
  · rfl

namespace PortGraph

variable {graph : PortGraph}

theorem wireFault?_eq_none_iff {facts : Facts} {source : Endpoint} {wire : Wire}
    (starts : graph.sources[wire]? = some source) :
    graph.wireFault? facts source wire = none ↔ facts.Consistent wire := by
  unfold wireFault?
  rw [Facts.Consistent, ← PortType.conflicts_eq_nil_iff]
  split
  · simp [*]
  · rename_i some_conflict
    refine iff_of_false ?_ some_conflict
    rcases sources_getElem?.mp starts with ⟨-, rfl⟩ | ⟨id, node, start, port, hnode, -, -, -, rfl⟩
    · simp [Endpoint.input]
    · simp [Endpoint.node, hnode]

/-- Where there are no typing faults, the facts do not contradict each other. -/
theorem consistent_of_faultless {facts : Facts} (size : facts.size = graph.sources.length)
    (faultless : graph.typingFaults graph.sites facts = []) (wire : Wire) :
    facts.Consistent wire := by
  by_cases inside : wire < graph.sources.length
  · have starts := List.getElem?_eq_getElem inside
    have unfaulted := List.filterMap_eq_nil_iff.mp (List.append_eq_nil_iff.mp faultless).2
      (_, wire) (List.mem_zipIdx_iff_getElem?.mpr starts)
    exact (wireFault?_eq_none_iff starts).mp unfaulted
  · intro symbol includes
    rw [Facts.get_of_size_le (size ▸ Nat.not_lt.mp inside)] at includes
    exact absurd includes (SymbolSet.not_mem_empty symbol)

/-- There are no typing faults exactly when a flow of the sites bears the facts out. -/
theorem typingFaults_eq_nil_iff (fits : ∀ site ∈ graph.sites, site.Fits graph.sources.length) :
    graph.typingFaults graph.sites (graph.facts graph.sites) = [] ↔
      ∃ carried : Wire → Set Symbol, ∀ site ∈ graph.sites,
        site.primitive.Lawful (site.inputs.map carried) (site.outputs.map carried) := by
  constructor
  · intro faultless
    exact ⟨_, fun site member => graph.facts_settled fits site member fun wire _ =>
      consistent_of_faultless (graph.size_facts graph.sites) faultless wire⟩
  · rintro ⟨carried, lawful⟩
    have within : (graph.facts graph.sites).Within (View.ofFlow carried) :=
      graph.facts_within fun site member => View.ofFlow_closed (lawful site member)
    unfold typingFaults
    rw [List.append_eq_nil_iff, List.flatMap_eq_nil_iff, List.filterMap_eq_nil_iff]
    refine ⟨fun site member => Site.faults_eq_nil (lawful site member) within, ?_⟩
    rintro ⟨source, wire⟩ member
    exact (wireFault?_eq_none_iff (List.mem_zipIdx_iff_getElem?.mp member)).mpr
      (within.consistent wire)

theorem infer_eq_ok_iff {signature : Signature} :
    graph.infer false = .ok signature ↔
      graph.typingFaults graph.sites (graph.facts graph.sites) = [] ∧
        signature = graph.signature (graph.facts graph.sites) := by
  unfold infer
  simp only [Bool.false_and, Bool.false_eq_true, if_false]
  split
  · rename_i faultless
    simp [faultless, eq_comm]
  · rename_i some_fault
    exact iff_of_false nofun fun both => some_fault both.1

/-- Inference succeeds exactly when a connected graph has a flow. -/
theorem Connected.infer_ok_iff (connected : graph.Connected) :
    (∃ signature, graph.infer false = .ok signature) ↔ ∃ carried, graph.Flow carried := by
  have faultless_iff := typingFaults_eq_nil_iff connected.sites_fit
  constructor
  · rintro ⟨signature, inferred⟩
    obtain ⟨carried, lawful⟩ := faultless_iff.mp (infer_eq_ok_iff.mp inferred).1
    exact ⟨_, connected.flow_fromSources lawful⟩
  · rintro ⟨carried, flow⟩
    exact ⟨_, infer_eq_ok_iff.mpr
      ⟨faultless_iff.mpr ⟨_, connected.flow_iff.mp flow⟩, rfl⟩⟩

end PortGraph

/-! ## What a signature says of a flow -/

/-- A signature has each port on the boundary of a graph, with a type that describes its flow. -/
structure Signature.Describes (signature : Signature) (graph : PortGraph)
    (carried : Endpoint → Set Symbol) : Prop where
  inputs : ∀ (port : Nat) (name : String), graph.inputs[port]? = some name →
    ∃ type, signature.inputs[port]? = some ⟨name, type⟩ ∧ type.Describes (carried (.input port))
  outputs : ∀ (port : Nat) (name : String), graph.outputs[port]? = some name →
    ∃ type, signature.outputs[port]? = some ⟨name, type⟩ ∧
      type.Describes (graph.received carried (.output port))

/-- The signature of a connected graph describes each of its flows. -/
theorem PortGraph.Connected.signature_describes {graph : PortGraph} (connected : graph.Connected)
    {carried : Endpoint → Set Symbol} (flow : graph.Flow carried) :
    (graph.signature (graph.facts graph.sites)).Describes graph carried := by
  have lawful := connected.flow_iff.mp flow
  have within : (graph.facts graph.sites).Within (View.ofFlow (graph.alongWires carried)) :=
    graph.facts_within fun site member => View.ofFlow_closed (lawful site member)
  constructor
  · intro port name found
    have inside : graph.HasSource (.input port) := (List.getElem?_eq_some_iff.mp found).1
    obtain ⟨wire, starts, -, takes⟩ := PortGraph.wire_of_source inside
    refine ⟨(graph.facts graph.sites).get wire, ?_, takes carried ▸ within.describes wire⟩
    simp [PortGraph.signature, found, starts]
  · intro port name found
    have inside : graph.HasTarget (.output port) := (List.getElem?_eq_some_iff.mp found).1
    obtain ⟨wire, feeds, -, brings⟩ := connected.feedingWire inside
    refine ⟨(graph.facts graph.sites).get wire, ?_, brings carried ▸ within.describes wire⟩
    simp [PortGraph.signature, found, feeds]

/--
Inference succeeds for an expanded and checked graph exactly when the graph has a flow, then also
one of finitely many symbols, and the types of the signature describe what passes the boundary in
every flow.
-/
theorem ResolvedProgram.infer_ok_iff_flow {program : Program} {root : program.resolved.Index}
    {generators : Option (List Symbol)} {limits : UnfoldingLimits} {graph : PortGraph}
    (expanded : program.resolved.expand root generators limits = .ok graph)
    (checked : graph.checkConnections false = .ok ()) :
    ((∃ signature, graph.infer false = .ok signature) ↔ ∃ carried, graph.Flow carried) ∧
      ∀ signature, graph.infer false = .ok signature →
        (∃ carried, graph.Flow carried ∧ ∀ source, (carried source).Finite) ∧
          ∀ carried, graph.Flow carried → signature.Describes graph carried := by
  have connected := connected_of_expand program.resolved_sound expanded checked
  refine ⟨connected.infer_ok_iff, fun signature inferred => ⟨?_, fun carried flow => ?_⟩⟩
  · obtain ⟨carried, flow⟩ := connected.infer_ok_iff.mp ⟨signature, inferred⟩
    exact flow.exists_finite
  · rw [(PortGraph.infer_eq_ok_iff.mp inferred).2]
    exact connected.signature_describes flow

/-- A loop in which a symbol is spawned, and a way out on which it is removed. -/
def looping : Program :=
  .ofLines [
    "def main = [X | Y]",
    "  use >< [X, Back | Y] as Join",
    "  use *a [X | Y] as Spawn",
    "  use <> [X | Y, Back] as Split",
    "  use -a [X | Y] as Rem",
    "  link X >-> Join.X, Join.Y >-> Spawn.X, Spawn.Y >-> Split.X",
    "       Split.Back >-> Join.Back, Split.Y >-> Rem.X, Rem.Y >-> Y"]

/-- Whatever goes in, the symbol of the loop never comes out. -/
theorem ResolvedProgram.infer_ok_iff_flow_looping :
    ∃ (root : looping.resolved.Index) (graph : PortGraph) (signature : Signature),
      looping.resolved.expand root none ⟨0, 8, false⟩ = .ok graph ∧
      graph.checkConnections false = .ok () ∧
      graph.infer false = .ok signature ∧
      signature = ⟨[⟨"X", .unknown⟩], [⟨"Y", ⟨.empty, .singleton "a"⟩⟩]⟩ ∧
      (∃ carried, graph.Flow carried) ∧
      ∀ carried, graph.Flow carried → signature.Describes graph carried := by
  have inferring : (looping.resolved.expand ⟨0, by decide +kernel⟩ none ⟨0, 8, false⟩).toOption.map
      (fun graph => ((graph.checkConnections false).toOption, (graph.infer false).toOption)) =
        some (some (), some ⟨[⟨"X", .unknown⟩], [⟨"Y", ⟨.empty, .singleton "a"⟩⟩]⟩) := by
    decide +kernel
  obtain ⟨graph, found, results⟩ := Option.map_eq_some_iff.mp inferring
  obtain ⟨checks, infers⟩ := Prod.mk.inj results
  have expanded := eq_ok_of_toOption found
  have checked := eq_ok_of_toOption checks
  have inferred := eq_ok_of_toOption infers
  obtain ⟨succeeds_iff, told⟩ := ResolvedProgram.infer_ok_iff_flow expanded checked
  exact ⟨_, graph, _, expanded, checked, inferred, rfl, succeeds_iff.mp ⟨_, inferred⟩,
    (told _ inferred).2⟩

end FlowDiagram

import FlowDiagram.Proofs.Expansion.Feeding
import FlowDiagram.Proofs.Signature.Following
import Mathlib.Data.List.Forall2

/-!
# Signatures one level deeper

What inference finds in a graph it also finds one level deeper, where more is found besides.  Each
wire of the graph has one in its place there, and so each site and each port of the boundary.
-/

namespace FlowDiagram

/-! ## Wires in place of wires -/

namespace PortGraph

variable {graph deeper : PortGraph} {feeding : Endpoint → Endpoint} {place : Nat → Nat}

/-- The wire in place of one that feeds a target feeds the target in the deeper graph. -/
theorem feedingWire_along (connected : graph.Connected) (deeperConnected : deeper.Connected)
    (edges : ∀ source target, ⟨source, target⟩ ∈ graph.edges → graph.Lasting target →
      ⟨feeding source, target.move place⟩ ∈ deeper.edges)
    {target : Endpoint} (exists_ : graph.HasTarget target)
    (deeperExists : deeper.HasTarget (target.move place)) (lasts : graph.Lasting target)
    {wire : Wire} (feeds : graph.feedingWire? graph.wireStarts target = some wire) :
    deeper.feedingWire? deeper.wireStarts (target.move place) =
      some (graph.wireAlong deeper feeding wire) := by
  obtain ⟨source, only, -, fed⟩ := connected.feedingSource exists_
  obtain ⟨there, onlyThere, thereExists, deeperFed⟩ := deeperConnected.feedingSource deeperExists
  have edge := edges source target ((only source).mpr rfl) lasts
  obtain rfl := (onlyThere _).mp edge
  rw [deeperFed]
  exact wireAlong_eq (fed.symm.trans feeds) thereExists

/-- A graph that is refined one level deeper has wires in place of its own there. -/
theorem RefinedBy.follows {depth : Nat} {rename : Symbol → Symbol}
    (refined : graph.RefinedBy deeper depth rename place) (connected : graph.Connected)
    (deeperConnected : deeper.Connected) (inputs : deeper.inputs = graph.inputs)
    (outputs : deeper.outputs = graph.outputs)
    (sources : ∀ source, graph.Lasting source → feeding source = source.move place)
    (edges : ∀ source target, ⟨source, target⟩ ∈ graph.edges → graph.Lasting target →
      ⟨feeding source, target.move place⟩ ∈ deeper.edges) :
    graph.Follows deeper rename (graph.wireAlong deeper feeding) := by
  have taking {source : Endpoint} {wire : Wire} (lasts : graph.Lasting source)
      (exists_ : deeper.HasSource (source.move place))
      (starts : graph.wire? graph.wireStarts source = some wire) :
      deeper.wire? deeper.wireStarts (source.move place) =
        some (graph.wireAlong deeper feeding wire) := by
    rw [← sources source lasts] at exists_ ⊢
    exact wireAlong_eq starts exists_
  constructor
  case sites =>
    intro site member
    have isSite := mem_sites_iff.mp member
    have whole : site.node.isTruncated = false := by
      unfold Node.isTruncated
      rw [isSite.kind]
    have lasts (port : Nat) : graph.Lasting (.node site.id port) := ⟨_, isSite.node, whole⟩
    have found := refined.nodes site.id site.node isSite.node whole
    have kind : (site.node.rename rename).kind = .primitive (site.primitive.rename rename) := by
      simp [Node.rename, NodeKind.rename, isSite.kind]
    obtain ⟨⟨id, node, primitive, theirInputs, theirOutputs⟩, thereMember, rfl, rfl, rfl⟩ :=
      deeperConnected.site_of_node found kind
    have thereSite := mem_sites_iff.mp thereMember
    refine ⟨_, thereMember, rfl, ?_, ?_⟩
    · refine wires_along isSite.inputs thereSite.inputs fun port inside wire feeds => ?_
      exact feedingWire_along connected deeperConnected edges
        (hasTarget_of_node isSite.node port inside)
        (hasTarget_of_node thereSite.node port inside) (lasts port) feeds
    · refine wires_along isSite.outputs thereSite.outputs fun port inside wire starts => ?_
      exact taking (lasts port) (hasSource_of_node thereSite.node port inside) starts
  case inputs =>
    intro port inside
    have source : graph.HasSource (.input port) := inside
    have sourceThere : deeper.HasSource (.input port) :=
      lt_of_lt_of_eq inside (congrArg List.length inputs.symm)
    have lasts : graph.Lasting (.input port) := trivial
    obtain ⟨wire, starts, -⟩ := wire_of_source source
    rw [starts]
    exact taking lasts sourceThere starts
  case outputs =>
    intro port inside
    have target : graph.HasTarget (.output port) := inside
    have targetThere : deeper.HasTarget (.output port) :=
      lt_of_lt_of_eq inside (congrArg List.length outputs.symm)
    have lasts : graph.Lasting (.output port) := trivial
    obtain ⟨wire, feeds, -⟩ := connected.feedingWire target
    rw [feeds]
    exact feedingWire_along connected deeperConnected edges target targetThere lasts feeds

end PortGraph

/-! ## Signatures -/

/-- A type says of a port no more than another, told by the written names of symbols. -/
structure PortType.Within (type other : PortType) : Prop where
  includes : type.includes.written ⊆ other.includes.written
  excludes : type.excludes.written ⊆ other.excludes.written

/-- Port by port, a signature says no more than another. -/
structure Signature.Within (signature other : Signature) : Prop where
  inputs : List.Forall₂ (fun port there => port.name = there.name ∧ port.type.Within there.type)
    signature.inputs other.inputs
  outputs : List.Forall₂ (fun port there => port.name = there.name ∧ port.type.Within there.type)
    signature.outputs other.outputs

/-- If no more symbols are known under other numbers, their written names are among those. -/
theorem SymbolSet.written_subset {set other : SymbolSet} {rename : Symbol → Symbol}
    (keeps : ∀ symbol, (rename symbol).written = symbol.written)
    (known : ∀ symbol ∈ set, rename symbol ∈ other) : set.written ⊆ other.written := by
  intro name member
  obtain ⟨symbol, inside, rfl⟩ := SymbolSet.mem_written.mp member
  exact SymbolSet.mem_written.mpr ⟨rename symbol, known symbol inside, keeps symbol⟩

/-- A signature says no more where no more is known of the wires than of those in their places. -/
theorem PortGraph.Follows.signature_within {graph deeper : PortGraph} {rename : Symbol → Symbol}
    {along : Wire → Wire} {facts there : Facts} (follows : graph.Follows deeper rename along)
    (inputs : deeper.inputs = graph.inputs) (outputs : deeper.outputs = graph.outputs)
    (keeps : ∀ symbol, (rename symbol).written = symbol.written)
    (known : ∀ wire sort symbol, symbol ∈ (facts.get wire).known sort →
      rename symbol ∈ (there.get (along wire)).known sort) :
    (graph.signature facts).Within (deeper.signature there) := by
  have within (wire : Option Wire) : ((wire.map facts.get).getD .unknown).Within
      (((wire.map along).map there.get).getD .unknown) := by
    cases wire with
    | none => exact ⟨List.Subset.refl _, List.Subset.refl _⟩
    | some wire =>
        exact ⟨SymbolSet.written_subset keeps (known wire true),
          SymbolSet.written_subset keeps (known wire false)⟩
  constructor
  · unfold PortGraph.signature
    rw [inputs, List.forall₂_map_left_iff, List.forall₂_map_right_iff, List.forall₂_same]
    rintro ⟨name, port⟩ member
    have inside := (List.getElem?_eq_some_iff.mp (List.mem_zipIdx_iff_getElem?.mp member)).1
    simp only [follows.inputs port inside]
    exact ⟨trivial, within _⟩
  · unfold PortGraph.signature
    rw [outputs, List.forall₂_map_left_iff, List.forall₂_map_right_iff, List.forall₂_same]
    rintro ⟨name, port⟩ member
    have inside := (List.getElem?_eq_some_iff.mp (List.mem_zipIdx_iff_getElem?.mp member)).1
    simp only [follows.outputs port inside]
    exact ⟨trivial, within _⟩

/--
Typing only gets stronger with depth: where a root under its own symbols is expanded and checked at
one depth and at the next, and inference succeeds at the next, it succeeds at the first, and for
each port of the boundary the written names of what the type there includes are among those at the
next depth, and so are those of what it excludes.
-/
theorem ResolvedProgram.infer_deeper {source : List Char} {program : Program}
    (reads : Program.read source = .ok program) {root : program.resolved.Index}
    {limits deeperLimits : UnfoldingLimits} (next : deeperLimits.depth = limits.depth + 1)
    {graph deeper : PortGraph}
    (expanded : program.resolved.expand root none limits = .ok graph)
    (expandedDeeper : program.resolved.expand root none deeperLimits = .ok deeper)
    (checked : graph.checkConnections false = .ok ())
    (checkedDeeper : deeper.checkConnections false = .ok ()) {deeperSignature : Signature}
    (inferredDeeper : deeper.infer false = .ok deeperSignature) :
    ∃ signature, graph.infer false = .ok signature ∧ signature.Within deeperSignature := by
  have sound := program.resolved_sound
  obtain ⟨numbers, place, injective, refined⟩ :=
    exists_refined reads next expanded expandedDeeper
  have connected := connected_of_expand sound expanded checked
  have deeperConnected := connected_of_expand sound expandedDeeper checkedDeeper
  obtain ⟨feeding, sources, edges⟩ :=
    exists_feeding sound expanded expandedDeeper deeperConnected refined
  obtain ⟨inputs, outputs⟩ := boundary_of_expand sound expanded expandedDeeper
  have follows := refined.follows connected deeperConnected inputs outputs sources edges
  have renamed := Symbol.renumber_injective injective
  obtain ⟨faultless, rfl⟩ := PortGraph.infer_eq_ok_iff.mp inferredDeeper
  have known := follows.known renamed faultless
  have faultlessHere :=
    follows.faultless_of_known (graph.size_facts _) (deeper.size_facts _) known faultless
  refine ⟨_, PortGraph.infer_eq_ok_iff.mpr ⟨faultlessHere, rfl⟩, ?_⟩
  exact follows.signature_within inputs outputs (Symbol.written_renumber numbers) known

/-- The source of a definition that adds a symbol and passes its inputs on to itself crosswise. -/
def crossingLines : List String := [
  "def f = [X, Z | Y, W]",
  "  use +a [X | Y] as A",
  "  use f [X, Z | Y, W] as R",
  "  link X >-> A.X, A.Y >-> R.Z, Z >-> R.X, R.Y >-> W, R.W >-> Y"]

/-- One level deeper the second input is known to lack the symbol too. -/
theorem ResolvedProgram.infer_deeper_crossing :
    ∃ (root : (Program.ofLines crossingLines).resolved.Index) (graph deeper : PortGraph)
      (deeperSignature : Signature),
      (Program.ofLines crossingLines).resolved.expand root none ⟨0, 8, false⟩ = .ok graph ∧
      (Program.ofLines crossingLines).resolved.expand root none ⟨1, 8, false⟩ = .ok deeper ∧
      graph.checkConnections false = .ok () ∧
      deeper.checkConnections false = .ok () ∧
      deeper.infer false = .ok deeperSignature ∧
      deeperSignature = ⟨[⟨"X", .empty, .singleton "a"⟩, ⟨"Z", .empty, .singleton "a"⟩],
        [⟨"Y", .unknown⟩, ⟨"W", .unknown⟩]⟩ ∧
      ∃ signature, graph.infer false = .ok signature ∧ signature.Within deeperSignature := by
  have reads := Program.read_ofLines (by decide +kernel :
    (Program.read (sourceOfLines crossingLines)).toOption.isSome = true)
  have expanding : ((Program.ofLines crossingLines).resolved.expand ⟨0, by decide +kernel⟩ none
      ⟨0, 8, false⟩).toOption.map (fun graph => (graph.checkConnections false).toOption) =
        some (some ()) := by
    decide +kernel
  have inferring : ((Program.ofLines crossingLines).resolved.expand ⟨0, by decide +kernel⟩ none
      ⟨1, 8, false⟩).toOption.map
      (fun graph => ((graph.checkConnections false).toOption, (graph.infer false).toOption)) =
        some (some (), some ⟨[⟨"X", .empty, .singleton "a"⟩, ⟨"Z", .empty, .singleton "a"⟩],
          [⟨"Y", .unknown⟩, ⟨"W", .unknown⟩]⟩) := by
    decide +kernel
  obtain ⟨graph, found, checks⟩ := Option.map_eq_some_iff.mp expanding
  obtain ⟨deeper, foundDeeper, results⟩ := Option.map_eq_some_iff.mp inferring
  obtain ⟨checksDeeper, infers⟩ := Prod.mk.inj results
  have expanded := eq_ok_of_toOption found
  have expandedDeeper := eq_ok_of_toOption foundDeeper
  have checked := eq_ok_of_toOption checks
  have checkedDeeper := eq_ok_of_toOption checksDeeper
  have inferredDeeper := eq_ok_of_toOption infers
  exact ⟨_, graph, deeper, _, expanded, expandedDeeper, checked, checkedDeeper, inferredDeeper,
    rfl, ResolvedProgram.infer_deeper reads rfl expanded expandedDeeper checked checkedDeeper
      inferredDeeper⟩

end FlowDiagram

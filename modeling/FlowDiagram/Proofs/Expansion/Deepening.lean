import FlowDiagram.Proofs.Expansion.Listing
import FlowDiagram.Proofs.PortGraph.Renumbering
import FlowDiagram.Proofs.Unfolding.Deepening

/-!
# Expanding one level deeper

A graph expanded one level deeper refines the graph: up to the numbers of introductions it has all
nodes that were not cut off, all instances, and all edges between what stays; what was cut off has
become an instance, and everything new lies there or below.
-/

namespace FlowDiagram

/-! ## Refinement -/

namespace PortGraph

/-- A port of the root, or of a node that has not been cut off. -/
def Lasting (graph : PortGraph) (endpoint : Endpoint) : Prop :=
  match endpoint.vertex with
  | .node id => ∃ node, graph.nodes[id]? = some node ∧ node.isTruncated = false
  | _ => True

/--
Up to renaming, a graph is part of a deeper one, in which its node `id` is the node `place id`.
-/
structure RefinedBy (graph deeper : PortGraph) (depth : Nat) (rename : Symbol → Symbol)
    (place : Nat → Nat) : Prop where
  /-- Nodes keep their ports, path, definition and level. -/
  nodes : ∀ (id : Nat) (node : Node), graph.nodes[id]? = some node → node.isTruncated = false →
    deeper.nodes[place id]? = some (node.rename rename)
  instances : ∀ unfolded ∈ graph.instances, unfolded.rename rename ∈ deeper.instances
  /-- What was cut off is an instance of the next level. -/
  truncated : ∀ node ∈ graph.nodes, ∀ definition generators,
    node.kind = .truncated definition generators →
      ⟨node.provenance.path, definition, generators.map rename, depth + 1⟩ ∈ deeper.instances
  edges : ∀ edge ∈ graph.edges, graph.Lasting edge.source → graph.Lasting edge.target →
    edge.move place ∈ deeper.edges
  /-- What is new lies at or below the path of something that was cut off. -/
  newNodes : ∀ node ∈ deeper.nodes,
    (∃ old ∈ graph.nodes, old.isTruncated = false ∧ node = old.rename rename) ∨
      ∃ cut ∈ graph.nodes, cut.isTruncated = true ∧
        cut.provenance.path <+: node.provenance.path
  newInstances : ∀ unfolded ∈ deeper.instances,
    (∃ old ∈ graph.instances, unfolded = old.rename rename) ∨
      ∃ cut ∈ graph.nodes, cut.isTruncated = true ∧ cut.provenance.path <+: unfolded.path

/-! ## Ends that stay -/

variable {graph deeper : PortGraph} {rename : Symbol → Symbol} {place : Nat → Nat}

theorem sourcePort?_move (inputs : deeper.inputs = graph.inputs)
    (nodes : ∀ (id : Nat) (node : Node), graph.nodes[id]? = some node →
      node.isTruncated = false → deeper.nodes[place id]? = some (node.rename rename))
    {source : Endpoint} (lasting : graph.Lasting source) :
    deeper.sourcePort? (source.move place) = graph.sourcePort? source := by
  obtain ⟨vertex, port⟩ := source
  cases vertex with
  | inputs => simp [sourcePort?, Endpoint.move, Vertex.move, inputs]
  | outputs => rfl
  | node id =>
      obtain ⟨node, found, whole⟩ := lasting
      simp only [sourcePort?, Endpoint.move, Vertex.move, found, nodes id node found whole,
        Option.bind_some]
      rfl

theorem targetPort?_move (outputs : deeper.outputs = graph.outputs)
    (nodes : ∀ (id : Nat) (node : Node), graph.nodes[id]? = some node →
      node.isTruncated = false → deeper.nodes[place id]? = some (node.rename rename))
    {target : Endpoint} (lasting : graph.Lasting target) :
    deeper.targetPort? (target.move place) = graph.targetPort? target := by
  obtain ⟨vertex, port⟩ := target
  cases vertex with
  | inputs => rfl
  | outputs => simp [targetPort?, Endpoint.move, Vertex.move, outputs]
  | node id =>
      obtain ⟨node, found, whole⟩ := lasting
      simp only [targetPort?, Endpoint.move, Vertex.move, found, nodes id node found whole,
        Option.bind_some]
      rfl

theorem Expands.refined
    (instances : ∀ unfolded ∈ graph.instances, unfolded.rename rename ∈ deeper.instances)
    {path : List String} (expands : graph.Expands path) : deeper.Expands path := by
  rcases expands with root | ⟨unfolded, member, same⟩
  · exact .inl root
  · exact .inr ⟨_, instances unfolded member, same⟩

end PortGraph

/-! ## The deeper graph -/

/-- Without generators the symbols of a root stand for themselves. -/
theorem ResolvedDefinition.rootBinding_none {root : ResolvedDefinition} {binding : List Symbol}
    (bound : root.rootBinding none = .ok binding) : binding = root.parameters :=
  (Except.ok.inj bound).symm

/-- Nodes and instances refine as the listings do that they come from. -/
theorem Listing.Deepens.places {listing deeperListing : Listing} {rename : Symbol → Symbol}
    {depth : Nat} (deepens : listing.Deepens rename depth deeperListing)
    {graph deeper : PortGraph} (nodes : graph.nodes.toList = listing.nodes)
    (deeperNodes : deeper.nodes.toList = deeperListing.nodes) :
    ∃ place : Nat → Nat, ∀ (id : Nat) (node : Node), graph.nodes[id]? = some node →
      node.isTruncated = false → deeper.nodes[place id]? = some (node.rename rename) := by
  have each : ∀ id : Nat, ∃ there : Nat, ∀ node, graph.nodes[id]? = some node →
      node.isTruncated = false → deeper.nodes[there]? = some (node.rename rename) := by
    intro id
    cases hnode : graph.nodes[id]? with
    | none => exact ⟨0, nofun⟩
    | some node =>
        by_cases whole : node.isTruncated = false
        · have member : node ∈ listing.nodes := by
            rw [← nodes, Array.mem_toList_iff]
            exact Array.mem_of_getElem? hnode
          have found := deepens.nodes node member whole
          rw [← deeperNodes, Array.mem_toList_iff, Array.mem_iff_getElem?] at found
          obtain ⟨there, hthere⟩ := found
          exact ⟨there, fun other same _ => Option.some.inj same ▸ hthere⟩
        · exact ⟨0, fun other same otherWhole => absurd (Option.some.inj same ▸ otherWhole) whole⟩
  exact ⟨fun id => (each id).choose, fun id => (each id).choose_spec⟩

/-- All graphs of a root have the same boundary. -/
theorem ResolvedProgram.boundary_of_expand {program : ResolvedProgram} (sound : program.Sound)
    {root : program.Index} {generators deeperGenerators : Option (List Symbol)}
    {limits deeperLimits : UnfoldingLimits} {graph deeper : PortGraph}
    (expanded : program.expand root generators limits = .ok graph)
    (expandedDeeper : program.expand root deeperGenerators deeperLimits = .ok deeper) :
    deeper.inputs = graph.inputs ∧ deeper.outputs = graph.outputs := by
  obtain ⟨_, _, -, shown⟩ := shown_of_expand sound expanded
  obtain ⟨_, _, -, deeperShown⟩ := shown_of_expand sound expandedDeeper
  exact ⟨(congrArg GraphPlan.inputs deeperShown.plan).trans
      (congrArg GraphPlan.inputs shown.plan).symm,
    (congrArg GraphPlan.outputs deeperShown.plan).trans
      (congrArg GraphPlan.outputs shown.plan).symm⟩

/-- Between what stays, an expansion of the same root has the same edges. -/
theorem ResolvedProgram.edges_refined {program : ResolvedProgram} (sound : program.Sound)
    {root : program.Index} {generators deeperGenerators : Option (List Symbol)}
    {limits deeperLimits : UnfoldingLimits} {graph deeper : PortGraph}
    (expanded : program.expand root generators limits = .ok graph)
    (expandedDeeper : program.expand root deeperGenerators deeperLimits = .ok deeper)
    {rename : Symbol → Symbol} {place : Nat → Nat}
    (places : ∀ (id : Nat) (node : Node), graph.nodes[id]? = some node →
      node.isTruncated = false → deeper.nodes[place id]? = some (node.rename rename))
    (instances : ∀ unfolded ∈ graph.instances, unfolded.rename rename ∈ deeper.instances) :
    ∀ edge ∈ graph.edges, graph.Lasting edge.source → graph.Lasting edge.target →
      edge.move place ∈ deeper.edges := by
  intro edge member sourceLasts targetLasts
  obtain ⟨_, _, -, shown⟩ := shown_of_expand sound expanded
  obtain ⟨_, _, -, deeperShown⟩ := shown_of_expand sound expandedDeeper
  obtain ⟨inputs, outputs⟩ := boundary_of_expand sound expanded expandedDeeper
  obtain ⟨from_, onto, hfrom, honto, linked⟩ := (shown.mem_edges_iff sound rfl).mp member
  refine (deeperShown.mem_edges_iff sound rfl).mpr ⟨from_, onto, ?_, ?_, ?_⟩
  · rw [← hfrom]
    exact PortGraph.sourcePort?_move inputs places sourceLasts
  · rw [← honto]
    exact PortGraph.targetPort?_move outputs places targetLasts
  · exact linked.mono fun path expands => expands.refined instances

/-- A graph refines as its listing deepens, if its edges do. -/
theorem Listing.Deepens.refinedBy {listing deeperListing : Listing} {rename : Symbol → Symbol}
    {depth : Nat} (deepens : listing.Deepens rename depth deeperListing)
    {graph deeper : PortGraph} (nodes : graph.nodes.toList = listing.nodes)
    (instances : graph.instances = listing.instances)
    (deeperNodes : deeper.nodes.toList = deeperListing.nodes)
    (deeperInstances : deeper.instances = deeperListing.instances) {place : Nat → Nat}
    (places : ∀ (id : Nat) (node : Node), graph.nodes[id]? = some node →
      node.isTruncated = false → deeper.nodes[place id]? = some (node.rename rename))
    (edges : (∀ unfolded ∈ graph.instances, unfolded.rename rename ∈ deeper.instances) →
      ∀ edge ∈ graph.edges, graph.Lasting edge.source → graph.Lasting edge.target →
        edge.move place ∈ deeper.edges) :
    graph.RefinedBy deeper depth rename place := by
  have kept : ∀ unfolded ∈ graph.instances, unfolded.rename rename ∈ deeper.instances := by
    intro unfolded member
    rw [instances] at member
    obtain ⟨scope, held, rfl⟩ := List.mem_map.mp member
    rw [deeperInstances, ← Scope.toInstance_rename]
    exact List.mem_map_of_mem (deepens.scopes scope held)
  constructor
  case nodes => exact places
  case instances => exact kept
  case truncated =>
    intro node member definition generators cut
    rw [← Array.mem_toList_iff, nodes] at member
    obtain ⟨inner, held, told⟩ := deepens.truncated node member definition generators cut
    rw [deeperInstances, ← told]
    exact List.mem_map_of_mem held
  case edges => exact edges kept
  case newNodes =>
    intro node member
    rw [← Array.mem_toList_iff, deeperNodes] at member
    simp only [← Array.mem_toList_iff, nodes]
    exact deepens.newNodes node member
  case newInstances =>
    intro unfolded member
    rw [deeperInstances] at member
    obtain ⟨scope, held, rfl⟩ := List.mem_map.mp member
    simp only [← Array.mem_toList_iff, nodes]
    refine (deepens.newScopes scope held).imp_left ?_
    rintro ⟨old, there, rfl⟩
    exact ⟨old.toInstance, instances ▸ List.mem_map_of_mem there, Scope.toInstance_rename ..⟩

/--
A graph of a root under its own symbols is refined one level deeper, where the introductions have
other numbers.
-/
theorem ResolvedProgram.exists_refined {source : List Char} {program : Program}
    (reads : Program.read source = .ok program) {root : program.resolved.Index}
    {limits deeperLimits : UnfoldingLimits} (next : deeperLimits.depth = limits.depth + 1)
    {graph deeper : PortGraph}
    (expanded : program.resolved.expand root none limits = .ok graph)
    (expandedDeeper : program.resolved.expand root none deeperLimits = .ok deeper) :
    ∃ numbers place : Nat → Nat, Function.Injective numbers ∧
      graph.RefinedBy deeper limits.depth (Symbol.renumber numbers) place := by
  have sound := program.resolved_sound
  have written_ := (Program.isWritten_of_read reads).resolved
  obtain ⟨binding, nesting, listing, bound, listed, -, nodes, instances⟩ :=
    listing_of_expand sound expanded
  obtain ⟨deeperBinding, deeperNesting, deeperListing, deeperBound, deeperListed, -, deeperNodes,
    deeperInstances⟩ := listing_of_expand sound expandedDeeper
  obtain rfl := ResolvedDefinition.rootBinding_none bound
  obtain rfl := ResolvedDefinition.rootBinding_none deeperBound
  rw [next] at deeperListed
  have known := definition_mem root
  obtain ⟨numbers, injective, deepens⟩ := Scope.unfold_root_deepens written_ known
    (written_ _ known).parameters listed deeperListed
  obtain ⟨place, places⟩ := deepens.places nodes deeperNodes
  exact ⟨numbers, place, injective, deepens.refinedBy nodes instances deeperNodes deeperInstances
    places (edges_refined sound expanded expandedDeeper places)⟩

/--
A graph of a root under its own symbols, expanded one level deeper, refines the graph: there are
names for what the introductions made, different ones for different symbols, under which it does.
-/
theorem ResolvedProgram.expand_deeper {source : List Char} {program : Program}
    (reads : Program.read source = .ok program) {root : program.resolved.Index}
    {limits deeperLimits : UnfoldingLimits} (next : deeperLimits.depth = limits.depth + 1)
    {graph deeper : PortGraph}
    (expanded : program.resolved.expand root none limits = .ok graph)
    (expandedDeeper : program.resolved.expand root none deeperLimits = .ok deeper) :
    ∃ rename place, Function.Injective rename ∧
      (∀ symbol : Symbol, '#' ∉ symbol.toList → rename symbol = symbol) ∧
      graph.RefinedBy deeper limits.depth rename place := by
  obtain ⟨numbers, place, injective, refined⟩ :=
    exists_refined reads next expanded expandedDeeper
  exact ⟨Symbol.renumber numbers, place, Symbol.renumber_injective injective,
    fun symbol plain => Symbol.renumber_of_isWritten numbers plain, refined⟩

/-- The source of a definition that introduces a symbol and uses itself twice. -/
def branchingLines : List String := [
  "def f = <a | e> [X | Y]",
  "  use +e [X | Y] as A",
  "  use f <a |> [X | Y] as R",
  "  use f <a |> [X | Y] as S",
  "  link X >-> A.X, A.Y >-> R.X, R.Y >-> S.X, S.Y >-> Y"]

/-- What the first of two bodies introduces one level deeper moves on the numbers of the second. -/
theorem ResolvedProgram.expand_deeper_branching :
    ∃ (root : (Program.ofLines branchingLines).resolved.Index) (graph deeper : PortGraph),
      (Program.ofLines branchingLines).resolved.expand root none ⟨1, 10, false⟩ = .ok graph ∧
      (Program.ofLines branchingLines).resolved.expand root none ⟨2, 22, false⟩ = .ok deeper ∧
      ∃ rename place, Function.Injective rename ∧
        (∀ symbol : Symbol, '#' ∉ symbol.toList → rename symbol = symbol) ∧
        graph.RefinedBy deeper 1 rename place := by
  have reads := Program.read_ofLines (by decide +kernel :
    (Program.read (sourceOfLines branchingLines)).toOption.isSome = true)
  have succeeds : ((Program.ofLines branchingLines).resolved.expand ⟨0, by decide +kernel⟩ none
      ⟨1, 10, false⟩).toOption.isSome = true := by
    decide +kernel
  have deeperSucceeds : ((Program.ofLines branchingLines).resolved.expand ⟨0, by decide +kernel⟩
      none ⟨2, 22, false⟩).toOption.isSome = true := by
    decide +kernel
  obtain ⟨graph, found⟩ := Option.isSome_iff_exists.mp succeeds
  obtain ⟨deeper, deeperFound⟩ := Option.isSome_iff_exists.mp deeperSucceeds
  have expanded := eq_ok_of_toOption found
  have expandedDeeper := eq_ok_of_toOption deeperFound
  exact ⟨_, graph, deeper, expanded, expandedDeeper,
    ResolvedProgram.expand_deeper reads rfl expanded expandedDeeper⟩

end FlowDiagram

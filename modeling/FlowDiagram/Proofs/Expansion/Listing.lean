import FlowDiagram.Proofs.Expansion.Edges

/-!
# Expanding by recursion

What an expanded graph lists is what recursion over the bodies lists, node for node and instance for
instance.  The frames, sites and pending numbers leave no trace in it, and of the budget only
whether it was enough.
-/

namespace FlowDiagram

/-- One scope on its own. -/
theorem Listing.ofScopes_singleton {unfold : Scope → Nat → Option Listing} {scope : Scope}
    {number : Nat} {listing : Listing} :
    ofScopes unfold [scope] number = some listing ↔ unfold scope number = some listing := by
  have append_empty : ∀ first : Listing, first.append (.empty first.next) = first := by
    intro first
    simp [append, empty]
  rw [ofScopes_cons_eq_some]
  constructor
  · rintro ⟨first, later, hfirst, hlater, rfl⟩
    cases hlater
    rw [append_empty, hfirst]
  · intro unfolded
    exact ⟨listing, .empty listing.next, unfolded, rfl, (append_empty listing).symm⟩

namespace Unfolding

variable {program : ResolvedProgram} {limits : UnfoldingLimits} {root : program.Index}
  {binding : List Symbol}

theorem holds_ofRoot (root : program.Index) (binding : List Symbol) :
    (ofRoot root (program.definition root) binding).Holds [0]
      [ResolvedProgram.rootScope root binding] := rfl

theorem body_mem_rootScope :
    ∀ scope ∈ [ResolvedProgram.rootScope root binding], scope.body ∈ program.definitions := by
  intro scope member
  obtain rfl := List.mem_singleton.mp member
  exact ResolvedProgram.definition_mem root

/-- What a run from the root adds is a listing, and the budget has room for it. -/
theorem listing_of_root (sound : program.Sound) {final : Unfolding}
    (run : (ofRoot root (program.definition root) binding).unfoldAll program limits [0] =
      .ok final) :
    ∃ nesting listing,
      (ResolvedProgram.rootScope root binding).unfold program limits.depth nesting 1 =
        some listing ∧
      listing.size ≤ limits.nodes - 1 ∧
      (ofRoot root (program.definition root) binding).Grown listing final := by
  have holds := holds_ofRoot root binding
  obtain ⟨nesting, listing, listed, room⟩ :=
    @listing_of_unfoldAll _ _ sound _ _ [0] [] _ holds body_mem_rootScope run
  obtain ⟨inTime, -⟩ := unfoldAll_cons_eq_ok run
  obtain ⟨after, grown, same⟩ :=
    @unfoldAll_of_listing _ _ sound inTime _ _ [0] [] _ _ holds body_mem_rootScope listed room
  have finished : after.unfoldAll program limits [] = .ok after := by rw [unfoldAll]
  rw [List.append_nil, run, finished] at same
  cases same
  exact ⟨nesting, listing, Listing.ofScopes_singleton.mp listed, room, grown⟩

/-- A listing that the budget has room for is what a run from the root adds. -/
theorem root_of_listing (sound : program.Sound) (inTime : limits.expired = false)
    {nesting : Nat} {listing : Listing}
    (listed : (ResolvedProgram.rootScope root binding).unfold program limits.depth nesting 1 =
      some listing)
    (room : listing.size ≤ limits.nodes - 1) :
    ∃ final,
      (ofRoot root (program.definition root) binding).unfoldAll program limits [0] = .ok final ∧
      (ofRoot root (program.definition root) binding).Grown listing final := by
  obtain ⟨final, grown, same⟩ :=
    @unfoldAll_of_listing _ _ sound inTime _ _ [0] [] _ _ (holds_ofRoot root binding)
      body_mem_rootScope (Listing.ofScopes_singleton.mpr listed) room
  refine ⟨final, ?_, grown⟩
  rw [List.append_nil] at same
  rw [same, unfoldAll]

/-- A graph planned by a state has the nodes and the instances of the listing added to it. -/
theorem Grown.lists {final : Unfolding} {listing : Listing} {graph : PortGraph}
    (grown : (ofRoot root (program.definition root) binding).Grown listing final)
    (plan : graph.toGraphPlan = final.plan (program.definition root) binding) :
    graph.nodes.toList = listing.nodes ∧ graph.instances = listing.instances := by
  constructor
  · rw [plan]
    exact grown.nodes
  · rw [plan]
    change final.instances = listing.instances
    rw [instances_eq, grown.scopes]
    rfl

end Unfolding

/-- An expanded graph has the nodes and instances of the listing of its root. -/
theorem ResolvedProgram.listing_of_expand {program : ResolvedProgram} (sound : program.Sound)
    {root : program.Index} {generators : Option (List Symbol)} {limits : UnfoldingLimits}
    {graph : PortGraph} (expanded : program.expand root generators limits = .ok graph) :
    ∃ binding nesting listing,
      (program.definition root).rootBinding generators = .ok binding ∧
      (rootScope root binding).unfold program limits.depth nesting 1 = some listing ∧
      graph.generators = binding ∧ graph.nodes.toList = listing.nodes ∧
      graph.instances = listing.instances := by
  obtain ⟨binding, unfolding, hbinding, run, built⟩ := expand_eq_ok_iff.mp expanded
  obtain ⟨plan, -, -⟩ := PortGraph.build_eq_ok built
  obtain ⟨nesting, listing, listed, -, grown⟩ := Unfolding.listing_of_root sound run
  obtain ⟨nodes, instances⟩ := grown.lists plan
  exact ⟨binding, nesting, listing, hbinding, listed, congrArg GraphPlan.generators plan, nodes,
    instances⟩

/-- A root with a listing expands if there is time, and a budget for itself and what is listed. -/
theorem ResolvedProgram.expand_of_listing {program : ResolvedProgram} (sound : program.Sound)
    {root : program.Index} {generators : Option (List Symbol)} {limits : UnfoldingLimits}
    {binding : List Symbol} {nesting : Nat} {listing : Listing}
    (hbinding : (program.definition root).rootBinding generators = .ok binding)
    (listed : (rootScope root binding).unfold program limits.depth nesting 1 = some listing)
    (inTime : limits.expired = false) (within : listing.size < limits.nodes) :
    ∃ graph, program.expand root generators limits = .ok graph ∧ graph.generators = binding ∧
      graph.nodes.toList = listing.nodes ∧ graph.instances = listing.instances := by
  obtain ⟨final, run, grown⟩ := Unfolding.root_of_listing sound inTime listed (by omega)
  have start := @Unfolding.traced_ofRoot program limits.depth root _ binding (definition_mem root)
  have traced := start.unfoldAll sound run
  have planned : final.PlannedBy program limits.depth (rootScope root binding) binding
      (.ofPlan (final.plan (program.definition root) binding)) := ⟨traced, rfl⟩
  obtain ⟨graph, built⟩ := PortGraph.build_ok_iff.mpr (planned.edges_fit sound rfl)
  obtain ⟨plan, -, -⟩ := PortGraph.build_eq_ok built
  obtain ⟨nodes, instances⟩ := grown.lists plan
  exact ⟨graph, expand_eq_ok_iff.mpr ⟨binding, final, hbinding, run, built⟩,
    congrArg GraphPlan.generators plan, nodes, instances⟩

/-- A definition that introduces a symbol and uses itself. -/
def growing : Program :=
  .ofLines [
    "def f = <a | e> [X | Y]",
    "  use +e [X | Y] as A",
    "  use f <a |> [X | Y] as R",
    "  link X >-> A.X, A.Y >-> R.X, R.Y >-> Y"]

end FlowDiagram

import FlowDiagram.Proofs.Expansion.Limits

/-!
# What a budget is charged for

A graph lists nodes and instances, and a budget is charged for each of them once.  The root is
charged as well, before anything in it; so what is enough for the listing alone is one too little,
unless nothing at all is listed.
-/

namespace FlowDiagram

/-- How much a graph lists: its nodes, and the instances that have been unfolded. -/
def PortGraph.listed (graph : PortGraph) : Nat :=
  graph.nodes.size + graph.instances.length

namespace ResolvedProgram

variable {program : ResolvedProgram} {root : program.Index} {generators : Option (List Symbol)}
  {limits : UnfoldingLimits} {depth enough nodes : Nat} {graph : PortGraph}

/-- A graph lists as much as the listing of its root. -/
theorem listing_of_listed (sound : program.Sound)
    (expanded : program.expand root generators limits = .ok graph) :
    ∃ binding nesting listing,
      (program.definition root).rootBinding generators = .ok binding ∧
      (rootScope root binding).unfold program limits.depth nesting 1 = some listing ∧
      listing.size = graph.listed := by
  obtain ⟨binding, nesting, listing, bound, unfolded, -, nodes, instances⟩ :=
    listing_of_expand sound expanded
  refine ⟨binding, nesting, listing, bound, unfolded, ?_⟩
  rw [PortGraph.listed, ← Array.length_toList, nodes, instances, Listing.instances, List.length_map]
  rfl

/-- Two budgets that are enough yield one graph. -/
theorem eq_of_budgets (sound : program.Sound) {other : PortGraph}
    (expanded : program.expand root generators ⟨depth, enough, false⟩ = .ok graph)
    (there : program.expand root generators ⟨depth, nodes, false⟩ = .ok other) :
    graph = other := by
  have atMost := expand_of_budget_le sound (Nat.le_max_left enough nodes) expanded
  have alsoAtMost := expand_of_budget_le sound (Nat.le_max_right enough nodes) there
  exact Except.ok.inj (atMost.symm.trans alsoAtMost)

/-- A budget that leaves room for the listing, once the root has been charged, is enough. -/
theorem expand_of_room (sound : program.Sound)
    (expanded : program.expand root generators ⟨depth, enough, false⟩ = .ok graph)
    (room : graph.listed ≤ nodes - 1) :
    program.expand root generators ⟨depth, nodes, false⟩ = .ok graph := by
  obtain ⟨binding, nesting, listing, bound, unfolded, size⟩ := listing_of_listed sound expanded
  have unfolds : ∃ final : Unfolding,
      (Unfolding.ofRoot root (program.definition root) binding).unfoldAll program
          ⟨depth, nodes, false⟩ [0] = .ok final ∧
        (Unfolding.ofRoot root (program.definition root) binding).Grown listing final :=
    Unfolding.root_of_listing sound rfl unfolded (size.trans_le room)
  obtain ⟨final, run, -⟩ := unfolds
  obtain ⟨other, built⟩ := build_of_unfolded sound run
  have there : program.expand root generators ⟨depth, nodes, false⟩ = .ok other :=
    expand_eq_ok_iff.mpr ⟨binding, final, bound, run, built⟩
  rw [there, eq_of_budgets sound expanded there]

/-- A graph comes of exactly those budgets that have room for the root and its listing. -/
theorem expand_eq_ok_iff_room (sound : program.Sound)
    (expanded : program.expand root generators ⟨depth, enough, false⟩ = .ok graph) :
    program.expand root generators ⟨depth, nodes, false⟩ = .ok graph ↔
      graph.listed ≤ nodes - 1 :=
  ⟨fun again => size_le_of_expand sound again, fun room => expand_of_room sound expanded room⟩

/-- Any other budget is told to be too small. -/
theorem expand_eq_budget_iff_room (sound : program.Sound)
    (expanded : program.expand root generators ⟨depth, enough, false⟩ = .ok graph) :
    program.expand root generators ⟨depth, nodes, false⟩ = .error (.budget nodes) ↔
      ¬ graph.listed ≤ nodes - 1 := by
  have fits : program.expand root generators ⟨depth, nodes, false⟩ = .ok graph ↔
      graph.listed ≤ nodes - 1 :=
    expand_eq_ok_iff_room sound expanded
  constructor
  · intro failed room
    cases failed.symm.trans (fits.mpr room)
  · intro tight
    have takes : (program.definition root).Takes generators := by
      by_contra wrong
      obtain ⟨given, -, -, refused⟩ := expand_of_not_takes ⟨depth, enough, false⟩ wrong
      cases expanded.symm.trans refused
    rcases expand_or_budget sound takes depth nodes with ⟨other, there⟩ | failed
    · rw [← eq_of_budgets sound expanded there] at there
      exact absurd (fits.mp there) tight
    · exact failed

/--
Whatever a root expands to under some budget, it expands to under every budget larger than what the
graph lists, and under every budget at all if the graph lists nothing; under any other budget, one
that is just as large as the listing among them, the budget is too small.  Only where no budget is
enough is a budget told to be too small besides.
-/
theorem expand_within_listed (program : Program) (root : program.resolved.Index)
    (generators : Option (List Symbol)) (depth : Nat) :
    (∀ enough graph,
      program.resolved.expand root generators ⟨depth, enough, false⟩ = .ok graph →
      ∀ nodes,
        (program.resolved.expand root generators ⟨depth, nodes, false⟩ = .ok graph ↔
          graph.listed = 0 ∨ graph.listed < nodes) ∧
        (program.resolved.expand root generators ⟨depth, nodes, false⟩ =
            .error (.budget nodes) ↔
          graph.listed ≠ 0 ∧ nodes ≤ graph.listed)) ∧
    ∀ nodes error,
      program.resolved.expand root generators ⟨depth, nodes, false⟩ = .error error →
      error.kind = .resourceExceeded →
      error = .budget nodes ∧
        ∀ enough graph,
          program.resolved.expand root generators ⟨depth, enough, false⟩ = .ok graph →
            graph.listed ≠ 0 ∧ nodes ≤ graph.listed := by
  have sound := program.resolved_sound
  have tight (enough : Nat) (graph : PortGraph)
      (expanded : program.resolved.expand root generators ⟨depth, enough, false⟩ = .ok graph)
      (nodes : Nat) :
      program.resolved.expand root generators ⟨depth, nodes, false⟩ = .error (.budget nodes) ↔
        graph.listed ≠ 0 ∧ nodes ≤ graph.listed := by
    rw [expand_eq_budget_iff_room sound expanded]
    omega
  refine ⟨fun enough graph expanded nodes => ⟨?_, tight enough graph expanded nodes⟩, ?_⟩
  · rw [expand_eq_ok_iff_room sound expanded]
    omega
  · intro nodes error failed exceeded
    by_cases takes : (program.resolved.definition root).Takes generators
    · rcases expand_or_budget sound takes depth nodes with ⟨graph, expanded⟩ | room
      · cases failed.symm.trans expanded
      · cases failed.symm.trans room
        exact ⟨rfl, fun enough graph expanded => (tight enough graph expanded nodes).mp failed⟩
    · obtain ⟨given, -, -, refused⟩ := expand_of_not_takes ⟨depth, nodes, false⟩ takes
      cases failed.symm.trans refused
      cases exceeded

/-- Three nodes and an instance are listed at depth one: four is too small a budget, five is not. -/
theorem expand_within_listed_growing :
    ∃ (root : growing.resolved.Index) (graph : PortGraph),
      growing.resolved.expand root none ⟨1, 9, false⟩ = .ok graph ∧ graph.listed = 4 ∧
      growing.resolved.expand root none ⟨1, 4, false⟩ = .error (.budget 4) ∧
      growing.resolved.expand root none ⟨1, 5, false⟩ = .ok graph := by
  have expands : (growing.resolved.expand ⟨0, by decide +kernel⟩ none ⟨1, 9, false⟩).toOption.map
      PortGraph.listed = some 4 := by
    decide +kernel
  obtain ⟨graph, found, listed⟩ := Option.map_eq_some_iff.mp expands
  have expanded := eq_ok_of_toOption found
  obtain ⟨under, -⟩ := expand_within_listed growing ⟨0, by decide +kernel⟩ none 1
  have budgets := under 9 graph expanded
  rw [listed] at budgets
  exact ⟨_, graph, expanded, listed, (budgets 4).2.mpr (by decide), (budgets 5).1.mpr (by decide)⟩

/-- A definition with one box in it. -/
def single : Program :=
  .ofLines [
    "def main = [X | Y]",
    "  use +a [X | Y] as A",
    "  link X >-> A.X, A.Y >-> Y"]

/-- All that the graph lists is one node, and a budget of one is told to be too small. -/
theorem expand_single_refused :
    ∃ (root : single.resolved.Index) (graph : PortGraph),
      single.resolved.expand root none ⟨0, 2, false⟩ = .ok graph ∧
      graph.nodes.size + graph.instances.length = 1 ∧
      single.resolved.expand root none ⟨0, 1, false⟩ = .error (.budget 1) := by
  have expands : (single.resolved.expand ⟨0, by decide +kernel⟩ none ⟨0, 2, false⟩).toOption.map
      (fun graph => graph.nodes.size + graph.instances.length) = some 1 := by
    decide +kernel
  obtain ⟨graph, found, one⟩ := Option.map_eq_some_iff.mp expands
  refine ⟨_, graph, eq_ok_of_toOption found, one, ?_⟩
  have sound := single.resolved_sound
  exact (expand_eq_budget_iff_room sound (eq_ok_of_toOption found)).mpr (by
    rw [PortGraph.listed, one]
    decide)

end ResolvedProgram

end FlowDiagram

import FlowDiagram.Expansion
import FlowDiagram.Proofs.PortGraph.Building
import FlowDiagram.Proofs.Unfolding.Origins

/-!
# Expanding by unfolding

An expanded graph is what has been unfolded, with its edges: its nodes and instances are those of
the final state of a run from the root, in which everything is traced.
-/

namespace FlowDiagram

theorem Unfolding.instances_eq (unfolding : Unfolding) :
    unfolding.instances = unfolding.scopes.tail.map Scope.toInstance := by
  unfold Unfolding.instances Unfolding.scopes
  rw [← List.map_tail, List.map_map]
  rfl

variable {program : ResolvedProgram} {root : program.Index} {generators : Option (List Symbol)}
  {limits : UnfoldingLimits} {graph : PortGraph}

theorem ResolvedProgram.expand_eq_ok_iff :
    program.expand root generators limits = .ok graph ↔
      ∃ binding unfolding,
        (program.definition root).rootBinding generators = .ok binding ∧
        (Unfolding.ofRoot root (program.definition root) binding).unfoldAll program limits [0] =
          .ok unfolding ∧
        PortGraph.build (unfolding.plan (program.definition root) binding)
          (unfolding.edges (program.definition root).inputs.length) = .ok graph := by
  unfold ResolvedProgram.expand
  simp only [Unfolding.build_builder]
  constructor
  · intro expanded
    obtain ⟨binding, hbinding, expanded⟩ := exists_ok_of_bind expanded
    obtain ⟨unfolding, hunfolding, expanded⟩ := exists_ok_of_bind expanded
    refine ⟨binding, unfolding, hbinding, hunfolding, ?_⟩
    split at expanded
    · rename_i built hbuilt
      cases expanded
      exact hbuilt
    · cases expanded
  · rintro ⟨binding, unfolding, hbinding, hunfolding, hbuilt⟩
    simp only [hbinding, hunfolding, hbuilt, bind, Except.bind, pure, Except.pure]

theorem ResolvedProgram.definition_mem (root : program.Index) :
    program.definition root ∈ program.definitions :=
  List.get_mem program.definitions root

/-- The scope from which a graph has been unfolded. -/
def ResolvedProgram.rootScope (root : program.Index) (binding : List Symbol) : Scope :=
  .ofRoot root (program.definition root) binding

/-- Everything in a state is traced, and a graph has its nodes and instances. -/
structure Unfolding.PlannedBy (program : ResolvedProgram) (depth : Nat) (root : Scope)
    (binding : List Symbol) (unfolding : Unfolding) (graph : PortGraph) : Prop where
  traced : Traced program depth root [] unfolding
  plan : graph.toGraphPlan = unfolding.plan root.body binding

/-- A graph also has the edges found in a state. -/
structure Unfolding.ShownBy (program : ResolvedProgram) (depth : Nat) (root : Scope)
    (binding : List Symbol) (unfolding : Unfolding) (graph : PortGraph) : Prop extends
    Unfolding.PlannedBy program depth root binding unfolding graph where
  edges : graph.edges.toList = unfolding.edges root.body.inputs.length
  edges_fit : ∀ edge ∈ graph.edges.toList, graph.Fits edge
  indexed : graph.Indexed

/-- An expanded graph shows the final state of a run. -/
theorem ResolvedProgram.shown_of_expand (sound : program.Sound)
    (expanded : program.expand root generators limits = .ok graph) :
    ∃ (binding : List Symbol) (unfolding : Unfolding),
      (program.definition root).rootBinding generators = .ok binding ∧
      unfolding.ShownBy program limits.depth (rootScope root binding) binding graph := by
  obtain ⟨binding, unfolding, hbinding, run, built⟩ := expand_eq_ok_iff.mp expanded
  obtain ⟨plan, edges, fit⟩ := PortGraph.build_eq_ok built
  have start := @Unfolding.traced_ofRoot program limits.depth root _ binding (definition_mem root)
  have traced := start.unfoldAll sound run
  have edgesFit : ∀ edge ∈ graph.edges.toList, graph.Fits edge := by
    rw [edges, plan]
    exact fit
  exact ⟨binding, unfolding, hbinding,
    ⟨⟨traced, plan⟩, edges, edgesFit, PortGraph.build_indexed built⟩⟩

end FlowDiagram

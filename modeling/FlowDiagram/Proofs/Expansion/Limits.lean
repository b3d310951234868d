import FlowDiagram.Proofs.Expansion.Listing
import FlowDiagram.Proofs.Expansion.Safety
import FlowDiagram.Proofs.Unfolding.Limits
import Mathlib.Data.ENat.Basic
import Mathlib.Data.Nat.Find

/-!
# Expansion under other limits

Limits decide whether a root expands, but not to what.  A graph is the same under every larger
budget; so the budgets that are too small for a root are those below a threshold, which may be
infinite.  The depth shows in a graph by what has been cut off, and by nothing else.
-/

namespace FlowDiagram

namespace ResolvedProgram

variable {program : ResolvedProgram} {root : program.Index} {generators : Option (List Symbol)}
  {limits other : UnfoldingLimits} {graph : PortGraph}

/-- The graph of a root is the same under limits under which all bodies become the same. -/
theorem expand_of_agree (sound : program.Sound) (inTime : other.expired = false)
    (room : limits.nodes ≤ other.nodes)
    (expanded : program.expand root generators limits = .ok graph)
    (agree : ∀ (binding : List Symbol) (final : Unfolding),
      final.PlannedBy program limits.depth (rootScope root binding) binding graph →
        final.Agree program limits other) :
    program.expand root generators other = .ok graph := by
  obtain ⟨binding, final, bound, run, built⟩ := expand_eq_ok_iff.mp expanded
  have start := @traced_rootScope program root binding limits.depth
  have planned : final.PlannedBy program limits.depth (rootScope root binding) binding graph :=
    ⟨start.unfoldAll sound run, (PortGraph.build_eq_ok built).1⟩
  have again := start.unfoldAll_of_agree sound inTime room (agree binding final planned) run
  exact expand_eq_ok_iff.mpr ⟨binding, final, bound, again, built⟩

/-- A root expands only in time. -/
theorem inTime_of_expand (expanded : program.expand root generators limits = .ok graph) :
    limits.expired = false := by
  obtain ⟨binding, final, -, run, -⟩ := expand_eq_ok_iff.mp expanded
  exact (Unfolding.unfoldAll_cons_eq_ok run).1

/-- Where nothing has been cut off, a larger depth makes no difference to a graph. -/
theorem expand_of_depth_le (sound : program.Sound)
    (expanded : program.expand root generators limits = .ok graph)
    (whole : graph.truncatedCount = 0) {depth : Nat} (le : limits.depth ≤ depth) :
    program.expand root generators { limits with depth } = .ok graph := by
  have inTime := inTime_of_expand expanded
  refine expand_of_agree sound inTime (Nat.le_refl limits.nodes) expanded ?_
  intro binding final planned scope _ number next outcomes become kept
  refine Scope.becomeAll_deeper le become fun node member => ?_
  have nodes : graph.nodes = final.nodes := congrArg GraphPlan.nodes planned.plan
  have listed : node ∈ graph.nodes.toList := nodes ▸ kept member
  have uncut := List.countP_eq_zero.mp whole node listed
  simpa using uncut

/-! ## Errors -/

theorem expand_of_late (takes : (program.definition root).Takes generators)
    (late : limits.expired = true) : program.expand root generators limits = .error .deadline := by
  obtain ⟨binding, bound⟩ := takes.exists_rootBinding
  unfold expand
  simp only [bound, bind, Except.bind, Unfolding.unfoldAll_step, late, if_true]

/-- The depth does not show in an error. -/
theorem error_of_expand (sound : program.Sound) {depth : Nat} {error errorThere : UnfoldingError}
    (failed : program.expand root generators limits = .error error)
    (failedThere : program.expand root generators { limits with depth } = .error errorThere) :
    error = errorThere := by
  by_cases takes : (program.definition root).Takes generators
  · cases late : limits.expired with
    | true =>
        have here := expand_of_late takes late
        have there : program.expand root generators { limits with depth } = .error .deadline :=
          expand_of_late takes late
        exact (Except.error.inj (failed.symm.trans here)).trans
          (Except.error.inj (failedThere.symm.trans there)).symm
    | false =>
        have only (depth : Nat) (error : UnfoldingError)
            (failed : program.expand root generators { limits with depth } = .error error) :
            error = .budget limits.nodes := by
          rcases expand_of_takes { limits with depth } sound takes with
            ⟨graph, expanded⟩ | room | ⟨expired, -⟩
          · cases failed.symm.trans expanded
          · exact Except.error.inj (failed.symm.trans room)
          · cases late.symm.trans expired
        exact (only limits.depth error failed).trans (only depth errorThere failedThere).symm
  · obtain ⟨given, rfl, -, here⟩ := expand_of_not_takes limits takes
    obtain ⟨_, same, -, there⟩ := expand_of_not_takes { limits with depth } takes
    cases same
    exact (Except.error.inj (failed.symm.trans here)).trans
      (Except.error.inj (failedThere.symm.trans there)).symm

/-! ## Budgets -/

/-- The root and all that a graph lists have been charged. -/
theorem size_le_of_expand (sound : program.Sound)
    (expanded : program.expand root generators limits = .ok graph) :
    graph.nodes.size + graph.instances.length ≤ limits.nodes - 1 := by
  obtain ⟨binding, final, -, run, built⟩ := expand_eq_ok_iff.mp expanded
  obtain ⟨nesting, listing, -, room, grown⟩ := Unfolding.listing_of_root sound run
  obtain ⟨nodes, instances⟩ := grown.lists (PortGraph.build_eq_ok built).1
  rw [← Array.length_toList, nodes, instances, Listing.instances, List.length_map]
  exact room

/-- A larger budget makes no difference to a graph. -/
theorem expand_of_budget_le (sound : program.Sound) {depth nodes more : Nat} (le : nodes ≤ more)
    (expanded : program.expand root generators ⟨depth, nodes, false⟩ = .ok graph) :
    program.expand root generators ⟨depth, more, false⟩ = .ok graph :=
  expand_of_agree sound rfl le expanded fun _ _ _ _ _ _ _ _ become _ => become

/-- Every budget below the threshold is too small, and with all others there is one graph. -/
structure HasThreshold (program : ResolvedProgram) (root : program.Index)
    (generators : Option (List Symbol)) (depth : Nat) (threshold : ℕ∞) : Prop where
  below : ∀ nodes : Nat, nodes < threshold →
    program.expand root generators ⟨depth, nodes, false⟩ = .error (.budget nodes)
  above : ∀ nodes more : Nat, threshold ≤ nodes → threshold ≤ more →
    ∃ graph, program.expand root generators ⟨depth, nodes, false⟩ = .ok graph ∧
      program.expand root generators ⟨depth, more, false⟩ = .ok graph

/-- In time a root under generators that it takes expands, or the budget is too small. -/
theorem expand_or_budget (sound : program.Sound)
    (takes : (program.definition root).Takes generators) (depth nodes : Nat) :
    (∃ graph, program.expand root generators ⟨depth, nodes, false⟩ = .ok graph) ∨
      program.expand root generators ⟨depth, nodes, false⟩ = .error (.budget nodes) := by
  rcases expand_of_takes ⟨depth, nodes, false⟩ sound takes with expands | room | ⟨late, -⟩
  · exact .inl expands
  · exact .inr room
  · cases late

theorem exists_threshold (sound : program.Sound)
    (takes : (program.definition root).Takes generators) (depth : Nat) :
    ∃ threshold, program.HasThreshold root generators depth threshold := by
  have outcome := expand_or_budget sound takes depth
  by_cases ever :
      ∃ nodes graph, program.expand root generators ⟨depth, nodes, false⟩ = .ok graph
  · -- the least budget that is enough
    classical
    obtain ⟨graph, least⟩ := Nat.find_spec ever
    refine ⟨Nat.find ever, ?_, ?_⟩
    · intro nodes below
      exact (outcome nodes).resolve_left (Nat.find_min ever (Nat.cast_lt.mp below))
    · intro nodes more enough alsoEnough
      exact ⟨graph, expand_of_budget_le sound (Nat.cast_le.mp enough) least,
        expand_of_budget_le sound (Nat.cast_le.mp alsoEnough) least⟩
  · refine ⟨⊤, ?_, ?_⟩
    · intro nodes _
      exact (outcome nodes).resolve_left fun expands => ever ⟨nodes, expands⟩
    · intro nodes _ enough
      exact absurd enough (not_le.mpr (ENat.natCast_lt_top nodes))

/--
Whatever the root, the generators and the depth, a run in time ends after no more turns than the
budget has room for; what a graph lists has been paid for, and a larger budget yields the same
graph.  So under generators that the root takes there is a threshold, and under all others every
budget fails alike.
-/
theorem expand_threshold (program : Program) (root : program.resolved.Index)
    (generators : Option (List Symbol)) (depth : Nat) :
    (∀ (nodes : Nat) (binding : List Symbol),
      (program.resolved.definition root).rootBinding generators = .ok binding →
      let start := Unfolding.ofRoot root (program.resolved.definition root) binding
      let limits : UnfoldingLimits := ⟨depth, nodes, false⟩
      (∀ turns pending unfolding,
        Unfolding.Turns program.resolved limits start turns pending unfolding →
          turns ≤ max 1 nodes) ∧
      ∃ turns left final, Unfolding.Turns program.resolved limits start turns left final ∧
        final.EndsWith program.resolved limits left
          (start.unfoldAll program.resolved limits [0])) ∧
    (∀ nodes graph,
      program.resolved.expand root generators ⟨depth, nodes, false⟩ = .ok graph →
      graph.nodes.size + graph.instances.length ≤ nodes ∧
      ∀ more, nodes ≤ more →
        program.resolved.expand root generators ⟨depth, more, false⟩ = .ok graph) ∧
    ((program.resolved.definition root).Takes generators →
      ∃ threshold, program.resolved.HasThreshold root generators depth threshold) ∧
    (¬ (program.resolved.definition root).Takes generators →
      ∃ error : UnfoldingError, error.kind = .arityMismatch ∧
        ∀ nodes, program.resolved.expand root generators ⟨depth, nodes, false⟩ = .error error) := by
  have sound := program.resolved_sound
  refine ⟨?_, ?_, ?_, ?_⟩
  · intro nodes binding _ start limits
    exact ⟨fun _ _ _ turns => turns.le_budget, Unfolding.Turns.start.exists_end rfl⟩
  · intro nodes graph expanded
    have paid := size_le_of_expand sound expanded
    refine ⟨Nat.le_trans paid (Nat.sub_le nodes 1), fun more le => ?_⟩
    exact expand_of_budget_le sound le expanded
  · intro takes
    exact exists_threshold sound takes depth
  · intro wrong
    obtain ⟨given, rfl, count, -⟩ := expand_of_not_takes ⟨depth, 0, false⟩ wrong
    let body := program.resolved.definition root
    refine ⟨.generatorCount body.name body.universal.length given.length, rfl, fun nodes => ?_⟩
    obtain ⟨_, same, -, failed⟩ := expand_of_not_takes ⟨depth, nodes, false⟩ wrong
    cases same
    exact failed

/-- The root, two nodes, an instance and a node that is cut off are charged at depth one. -/
theorem expand_threshold_growing :
    ∃ root : growing.resolved.Index, growing.resolved.HasThreshold root none 1 5 := by
  obtain ⟨-, -, thresholds, -⟩ := expand_threshold growing ⟨0, by decide +kernel⟩ none 1
  obtain ⟨threshold, has⟩ := thresholds nofun
  have small : (growing.resolved.expand ⟨0, by decide +kernel⟩ none ⟨1, 4, false⟩).isOk =
      false := by
    decide +kernel
  have enough : (growing.resolved.expand ⟨0, by decide +kernel⟩ none ⟨1, 5, false⟩).isOk =
      true := by
    decide +kernel
  have above : 4 < threshold := by
    refine not_le.mp fun le => ?_
    obtain ⟨graph, expanded, -⟩ := has.above 4 4 le le
    rw [expanded] at small
    cases small
  have below : threshold ≤ 5 := by
    refine not_lt.mp fun lt => ?_
    rw [has.below 5 lt] at enough
    cases enough
  obtain rfl : threshold = 5 := le_antisymm below (Order.add_one_le_of_lt above)
  exact ⟨_, has⟩

/-- With no generator for its universal symbol a root fails alike at every budget. -/
theorem growing_without_threshold :
    ∃ root : growing.resolved.Index,
      ¬ ∃ threshold, growing.resolved.HasThreshold root (some []) 1 threshold := by
  have wrong : ¬ (growing.resolved.definition ⟨0, by decide +kernel⟩).Takes (some []) :=
    fun takes => absurd (takes [] rfl) (by decide +kernel)
  obtain ⟨given, -, -, failed⟩ := expand_of_not_takes ⟨1, 0, false⟩ wrong
  refine ⟨⟨0, by decide +kernel⟩, ?_⟩
  rintro ⟨threshold, has⟩
  rcases lt_or_ge ((0 : Nat) : ℕ∞) threshold with below | above
  · have room := has.below 0 below
    rw [failed] at room
    cases room
  · obtain ⟨graph, expanded, -⟩ := has.above 0 0 above above
    rw [failed] at expanded
    cases expanded

end ResolvedProgram

end FlowDiagram

import FlowDiagram.Proofs.Expansion.Edges
import FlowDiagram.Proofs.Unfolding.Safety
import Mathlib.Data.List.Forall2

/-!
# Safe expansion

What resolution yields can be expanded from every root, even where definitions or uses have been
left out with an error: nothing is looked up out of range, and the edges found always fit the graph.
All that can go wrong is the number of generators, or that time or room run out.
-/

namespace FlowDiagram

/-- A resolved definition has the name, the generic symbols and the ports of this one. -/
structure ResolvedDefinition.Declares (resolved : ResolvedDefinition) (definition : Definition) :
    Prop where
  name : resolved.name = definition.name.name
  universal : resolved.universal = definition.generics.universal.map (·.name)
  existential : resolved.existential = definition.generics.existential.map (·.name)
  inputs : resolved.inputs = definition.boundary .input
  outputs : resolved.outputs = definition.boundary .output

/-- Definitions are resolved one for one. -/
theorem Program.resolved_declares (program : Program) :
    List.Forall₂ ResolvedDefinition.Declares program.resolved.definitions program.definitions := by
  unfold Program.resolved Program.resolve
  dsimp only
  rw [List.map_map, List.forall₂_map_left_iff, List.forall₂_same]
  exact fun _ _ => ⟨rfl, rfl, rfl, rfl, rfl⟩

/-- No generators are given, or one for each universal symbol. -/
def ResolvedDefinition.Takes (root : ResolvedDefinition) (generators : Option (List Symbol)) :
    Prop :=
  ∀ given, generators = some given → given.length = root.universal.length

variable {program : ResolvedProgram} {root : program.Index} {generators : Option (List Symbol)}
  {limits : UnfoldingLimits} {binding : List Symbol}

namespace ResolvedDefinition

variable {body : ResolvedDefinition}

/-- A root under a binding has a symbol for each parameter. -/
theorem length_of_rootBinding (bound : body.rootBinding generators = .ok binding) :
    binding.length = body.parameters.length := by
  unfold rootBinding at bound
  split at bound
  · cases bound
    rfl
  · split at bound
    · rename_i count
      cases bound
      simp [parameters, count]
    · cases bound

theorem Takes.exists_rootBinding (takes : body.Takes generators) :
    ∃ binding, body.rootBinding generators = .ok binding := by
  cases generators with
  | none => exact ⟨_, rfl⟩
  | some given => exact ⟨_, if_pos (takes given rfl)⟩

theorem rootBinding_of_not_takes (wrong : ¬ body.Takes generators) :
    ∃ given, generators = some given ∧ given.length ≠ body.universal.length ∧
      body.rootBinding generators =
        .error (.generatorCount body.name body.universal.length given.length) := by
  simp only [Takes, not_forall] at wrong
  obtain ⟨given, rfl, count⟩ := wrong
  exact ⟨given, rfl, count, if_neg count⟩

end ResolvedDefinition

namespace ResolvedProgram

theorem rootScope_applied (bound : (program.definition root).rootBinding generators = .ok binding) :
    (rootScope root binding).Applied program :=
  ⟨root, binding, [], rfl, List.getElem?_eq_getElem root.isLt,
    ResolvedDefinition.length_of_rootBinding bound⟩

theorem traced_rootScope (depth : Nat) :
    Unfolding.Traced program depth (rootScope root binding) [0]
      (.ofRoot root (program.definition root) binding) :=
  Unfolding.traced_ofRoot root binding (definition_mem root)

/-- Every state that a run from a root comes to is in range. -/
theorem inRange_of_reached (sound : program.Sound)
    (bound : (program.definition root).rootBinding generators = .ok binding)
    {pending : List Nat} {unfolding : Unfolding}
    (reached : Unfolding.Reached program limits (.ofRoot root (program.definition root) binding)
      pending unfolding) :
    unfolding.InRange program pending :=
  (reached.traced sound (traced_rootScope _)).inRange sound (rootScope_applied bound)

/-- The edges found for what has been unfolded always fit. -/
theorem build_of_unfolded (sound : program.Sound) {unfolding : Unfolding}
    (run : (Unfolding.ofRoot root (program.definition root) binding).unfoldAll program limits [0] =
      .ok unfolding) :
    ∃ graph, PortGraph.build (unfolding.plan (program.definition root) binding)
      (unfolding.edges (program.definition root).inputs.length) = .ok graph := by
  have traced := (Unfolding.Reached.start.unfoldAll run).traced sound (traced_rootScope _)
  -- the edges are found before there is a graph, so they are compared with one that has none
  have planned : unfolding.PlannedBy program limits.depth (rootScope root binding) binding
      (PortGraph.ofPlan (unfolding.plan (program.definition root) binding)) := ⟨traced, rfl⟩
  exact PortGraph.build_ok_iff.mpr (planned.edges_fit sound rfl)

theorem expand_of_takes (limits : UnfoldingLimits) (sound : program.Sound)
    (takes : (program.definition root).Takes generators) :
    (∃ graph, program.expand root generators limits = .ok graph) ∨
      program.expand root generators limits = .error (.budget limits.nodes) ∨
      limits.expired = true ∧ program.expand root generators limits = .error .deadline := by
  obtain ⟨binding, bound⟩ := takes.exists_rootBinding
  cases run : (Unfolding.ofRoot root (program.definition root) binding).unfoldAll program limits
      [0] with
  | ok unfolding =>
      obtain ⟨graph, built⟩ := build_of_unfolded sound run
      exact .inl ⟨graph, expand_eq_ok_iff.mpr ⟨binding, unfolding, bound, run, built⟩⟩
  | error error =>
      have failed : program.expand root generators limits = .error error := by
        unfold expand
        simp only [bound, run, bind, Except.bind]
      rw [failed]
      rcases (traced_rootScope limits.depth).unfoldAll_eq_error sound run with
        rfl | ⟨expired, rfl⟩
      · exact .inr (.inl rfl)
      · exact .inr (.inr ⟨expired, rfl⟩)

theorem expand_of_not_takes (limits : UnfoldingLimits)
    (wrong : ¬ (program.definition root).Takes generators) :
    ∃ given, generators = some given ∧
      given.length ≠ (program.definition root).universal.length ∧
      program.expand root generators limits =
        .error (.generatorCount (program.definition root).name
          (program.definition root).universal.length given.length) := by
  obtain ⟨given, rfl, count, refused⟩ := ResolvedDefinition.rootBinding_of_not_takes wrong
  refine ⟨given, rfl, count, ?_⟩
  unfold expand
  simp only [refused, bind, Except.bind]

/--
Every program, whatever is wrong with it, is resolved to one that is safe to expand.  Its
definitions are those of the program and its numbers mean something; whatever the root, the
generators and the limits, every state of a run is in range, and expansion yields a graph unless
the number of generators is wrong or time or room run out.
-/
theorem expand_safe (program : Program) :
    List.Forall₂ ResolvedDefinition.Declares program.resolved.definitions program.definitions ∧
    program.resolved.Sound ∧
    ∀ (root : program.resolved.Index) (generators : Option (List Symbol))
      (limits : UnfoldingLimits),
      (∀ binding pending unfolding,
        (program.resolved.definition root).rootBinding generators = .ok binding →
        Unfolding.Reached program.resolved limits
          (.ofRoot root (program.resolved.definition root) binding) pending unfolding →
        unfolding.InRange program.resolved pending) ∧
      ((program.resolved.definition root).Takes generators →
        (∃ graph, program.resolved.expand root generators limits = .ok graph) ∨
          program.resolved.expand root generators limits = .error (.budget limits.nodes) ∨
          limits.expired = true ∧
            program.resolved.expand root generators limits = .error .deadline) ∧
      (¬ (program.resolved.definition root).Takes generators →
        ∃ given, generators = some given ∧
          given.length ≠ (program.resolved.definition root).universal.length ∧
          program.resolved.expand root generators limits =
            .error (.generatorCount (program.resolved.definition root).name
              (program.resolved.definition root).universal.length given.length)) ∧
      ∀ error, program.resolved.expand root generators limits = .error error →
        error.kind = .arityMismatch ∧ ¬ (program.resolved.definition root).Takes generators ∨
          error.kind = .resourceExceeded ∧
            (program.resolved.definition root).Takes generators := by
  have sound := program.resolved_sound
  refine ⟨program.resolved_declares, sound, fun root generators limits => ⟨?_, ?_, ?_, ?_⟩⟩
  · exact fun _ _ _ bound reached => inRange_of_reached sound bound reached
  · exact expand_of_takes limits sound
  · exact expand_of_not_takes limits
  · intro error failed
    by_cases takes : (program.resolved.definition root).Takes generators
    · right
      rcases expand_of_takes limits sound takes with
        ⟨graph, expanded⟩ | room | ⟨-, late⟩
      · rw [failed] at expanded
        cases expanded
      · rw [failed] at room
        cases room
        exact ⟨rfl, takes⟩
      · rw [failed] at late
        cases late
        exact ⟨rfl, takes⟩
    · left
      obtain ⟨given, -, -, refused⟩ := expand_of_not_takes limits takes
      rw [failed] at refused
      cases refused
      exact ⟨rfl, takes⟩

/-- A definition of a name that is taken, and uses and links that cannot be bound. -/
def broken : Program :=
  .ofLines [
    "def main = [X | Y]",
    "  use pass [X | Y] as F",
    "  use none [X | Y] as N",
    "  use pass [X, Z | Y] as G",
    "  use pass [X | Y] as H",
    "  link X >-> F.X, N.Y >-> H.X, F.Y >-> H.X, G.Y >-> Y, H.Y >-> Y, X >-> H.X",
    "def pass = [X | Y]",
    "  link X >-> Y",
    "def pass = [X, Z | Y]"]

/-- One definition is refused and three errors are told; what is left leads from in to out. -/
theorem expand_safe_broken :
    (Registry.ofProgram broken).2.length = 1 ∧
      (broken.resolve (Registry.ofProgram broken).1).2.length = 3 ∧
      (∃ (root : broken.resolved.Index) (graph : PortGraph),
        broken.resolved.expand root none ⟨0, 8, false⟩ = .ok graph ∧
        graph.edges.toList = [⟨.input 0, .output 0⟩]) ∧
      ∀ (root : broken.resolved.Index) (generators : Option (List Symbol))
        (limits : UnfoldingLimits) (error : UnfoldingError),
        broken.resolved.expand root generators limits = .error error →
          error.kind = .arityMismatch ∨ error.kind = .resourceExceeded := by
  have counts : (Registry.ofProgram broken).2.length = 1 ∧
      (broken.resolve (Registry.ofProgram broken).1).2.length = 3 := by
    decide +kernel
  have expands : (broken.resolved.expand ⟨0, by decide +kernel⟩ none ⟨0, 8, false⟩).toOption.map
      (·.edges.toList) = some [⟨.input 0, .output 0⟩] := by
    decide +kernel
  obtain ⟨graph, found, edges⟩ := Option.map_eq_some_iff.mp expands
  refine ⟨counts.1, counts.2, ⟨_, graph, eq_ok_of_toOption found, edges⟩, ?_⟩
  obtain ⟨-, -, safe⟩ := expand_safe broken
  intro root generators limits error failed
  obtain ⟨-, -, -, kinds⟩ := safe root generators limits
  exact (kinds error failed).imp And.left And.left

end ResolvedProgram

end FlowDiagram

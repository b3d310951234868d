import FlowDiagram.Proofs.Expansion.Safety
import FlowDiagram.Proofs.Resolution.Placing
import FlowDiagram.Proofs.Unfolding.Nesting
import FlowDiagram.Proofs.Unfolding.Renaming

/-!
# Where an expansion is cut off

An expanded graph tells itself where it has been cut off: how often a definition recurs at a path
can be counted among the root and the instances at the beginnings of the path.  What has been cut
off would recur once more than the depth lets it, and no instance does.
-/

namespace FlowDiagram

/-! ## Counting in a graph -/

/-- Of what is given to a definition of this name, the universal symbols. -/
def ResolvedProgram.universalPart (program : ResolvedProgram) (definition : String)
    (generators : List Symbol) : List Symbol :=
  let first := program.definitions.find? fun body => body.name == definition
  generators.take ((first.map (·.universal.length)).getD 0)

namespace PortGraph

/-- The root, told as an instance. -/
def rootInstance (graph : PortGraph) : Instance :=
  ⟨[], graph.root, graph.generators, 0⟩

/-- What encloses a path: the root and the instances at its proper beginnings. -/
def enclosing (graph : PortGraph) (path : List String) : List Instance :=
  graph.rootInstance ::
    graph.instances.filter fun around => around.path ≠ path ∧ around.path <+: path

/-- How much of what encloses a path is of this definition, under the same universal symbols. -/
def recursions (program : ResolvedProgram) (graph : PortGraph) (path : List String)
    (definition : String) (generators : List Symbol) : Nat :=
  (graph.enclosing path).countP fun around => around.definition = definition ∧
    program.universalPart definition around.generators =
      program.universalPart definition generators

/-- A graph is cut off at a depth exactly where a definition would recur more often than that. -/
structure CutExactly (program : ResolvedProgram) (depth : Nat) (graph : PortGraph) : Prop where
  truncated : ∀ node ∈ graph.nodes, ∀ definition generators,
    node.kind = .truncated definition generators →
      graph.recursions program node.provenance.path definition generators = depth + 1 ∧
        node.provenance.level = depth + 1
  instances : ∀ unfolded ∈ graph.instances,
    graph.recursions program unfolded.path unfolded.definition unfolded.generators ≤ depth ∧
      unfolded.level ≤ depth
  primitives : ∀ node ∈ graph.nodes, ∀ box, node.kind = .primitive box →
    node.provenance.level ≤ depth
  status : ∀ node ∈ graph.nodes, node.provenance.depthExceeded = node.isTruncated

end PortGraph

variable {program : ResolvedProgram} {depth : Nat}

theorem ResolvedProgram.universalPart_name (distinct : (program.definitions.map (·.name)).Nodup)
    (index : program.Index) (symbols : List Symbol) :
    program.universalPart (program.definition index).name symbols =
      symbols.take (program.definition index).universal.length := by
  have first : program.definitions.find? (·.name == (program.definition index).name) =
      some (program.definition index) :=
    find?_eq_of_nodup_map ResolvedDefinition.name distinct (List.get_mem program.definitions index)
  simp only [universalPart, first, Option.map_some, Option.getD_some]

/-- A path is a proper beginning of one that goes a step further if it is one of the rest. -/
theorem properPrefix_concat_iff {around path : List String} {name : String} :
    around ≠ path ++ [name] ∧ around <+: path ++ [name] ↔ around <+: path := by
  rw [List.prefix_concat_iff]
  constructor
  · rintro ⟨different, same | before⟩
    · exact absurd same different
    · exact before
  · intro before
    refine ⟨?_, .inr before⟩
    rintro rfl
    have short := before.length_le
    rw [List.length_append] at short
    exact Nat.not_succ_le_self _ short

/-- A body lies at no larger level than the depth, and around itself no oftener. -/
structure Scope.Shallow (program : ResolvedProgram) (depth : Nat) (scope : Scope) : Prop where
  level : scope.level ≤ depth
  within : scope.Within program depth

theorem Scope.Shallow.inner {inner outer : Scope} (shallow : outer.Shallow program depth)
    (inside : Scope.Inside program depth inner outer) : inner.Shallow program depth := by
  obtain ⟨use, -, before, after, become⟩ := inside
  cases Scope.becomes_of_become become with
  | body _ found _ few =>
      refine ⟨?_, shallow.within.inner use found few _⟩
      unfold Scope.inner
      dsimp only
      split
      · exact shallow.level
      · exact few

namespace Unfolding

variable {index : program.Index} {binding : List Symbol} {unfolding : Unfolding}
  {graph : PortGraph}

/-- The root and the instances of a graph are the bodies that have been unfolded. -/
theorem PlannedBy.instances_eq
    (planned : unfolding.PlannedBy program depth (ResolvedProgram.rootScope index binding) binding
      graph) :
    graph.rootInstance :: graph.instances = unfolding.scopes.map Scope.toInstance := by
  have below : graph.instances = unfolding.scopes.tail.map Scope.toInstance :=
    (congrArg GraphPlan.instances planned.plan).trans unfolding.instances_eq
  have top : graph.rootInstance = (ResolvedProgram.rootScope index binding).toInstance := by
    have name : graph.root = (program.definition index).name :=
      congrArg GraphPlan.root planned.plan
    have generators : graph.generators = binding := congrArg GraphPlan.generators planned.plan
    rw [PortGraph.rootInstance, name, generators]
    rfl
  rw [top, below, planned.traced.scopes_eq, List.map_cons, List.tail_cons]

/-- What a graph tells of a path below a body is how often a definition recurs in the body. -/
theorem PlannedBy.recursions_eq (sound : program.Sound)
    (distinct : (program.definitions.map (·.name)).Nodup)
    (planned : unfolding.PlannedBy program depth (ResolvedProgram.rootScope index binding) binding
      graph) {scope : Scope} (member : scope ∈ unfolding.scopes) (name : String)
    (other : program.Index) (symbols : List Symbol) :
    graph.recursions program (scope.path ++ [name]) (program.definition other).name symbols =
      scope.recursions other (program.definition other).universal.length symbols := by
  have enclosing : graph.enclosing (scope.path ++ [name]) =
      (unfolding.scopes.map Scope.toInstance).filter fun around => around.path <+: scope.path := by
    rw [← planned.instances_eq, PortGraph.enclosing, List.filter_cons_of_pos]
    · refine congrArg _ (List.filter_congr fun around _ => ?_)
      rw [decide_eq_decide]
      exact properPrefix_concat_iff
    · exact decide_eq_true List.nil_prefix
  rw [PortGraph.recursions, enclosing, List.countP_filter, List.countP_map,
    ← planned.traced.repeatsAlong_eq sound distinct scope member, repeatsAlong]
  refine List.countP_congr fun around _ => ?_
  simp only [Function.comp_apply, Bool.and_eq_true, decide_eq_true_eq]
  rw [program.universalPart_name distinct, program.universalPart_name distinct]
  exact and_comm

/-- A graph is cut off exactly at the depth under which it has been unfolded. -/
theorem PlannedBy.cutExactly (sound : program.Sound)
    (distinct : (program.definitions.map (·.name)).Nodup)
    (planned : unfolding.PlannedBy program depth (ResolvedProgram.rootScope index binding) binding
      graph) : graph.CutExactly program depth := by
  have shallow : ∀ scope ∈ unfolding.scopes, scope.Shallow program depth :=
    planned.traced.scope_induction
      ⟨Nat.zero_le depth, Scope.within_ofRoot index (program.definition index) binding⟩
      fun _ _ shallow _ _ inside => shallow.inner inside
  have nodes : graph.nodes = unfolding.nodes := congrArg GraphPlan.nodes planned.plan
  constructor
  case truncated =>
    intro node member definition generators cut
    rw [nodes] at member
    obtain ⟨scope, known, use, -, before, after, becomes⟩ :=
      planned.traced.exists_becomes_of_mem_nodes member
    cases becomes with
    | primitive _ => cases cut
    | @truncated number _ _ callee symbols _ found _ many =>
        cases cut
        have recurs := (shallow scope known).within number callee generators found
        have exact_ := Nat.le_antisymm recurs many
        obtain ⟨below, rfl⟩ := List.getElem?_eq_some_iff.mp found
        have told := planned.recursions_eq sound distinct known use.name ⟨number, below⟩ generators
        exact ⟨told.trans exact_, exact_⟩
  case instances =>
    intro unfolded member
    have listed : unfolded ∈ unfolding.scopes.tail.map Scope.toInstance := by
      have same := planned.instances_eq
      rw [planned.traced.scopes_eq, List.map_cons] at same
      rw [← (List.cons.inj same).2]
      exact member
    obtain ⟨inner, inTail, rfl⟩ := List.mem_map.mp listed
    have level := (shallow inner (List.mem_of_mem_tail inTail)).level
    refine ⟨?_, level⟩
    obtain ⟨outer, known, use, -, before, after, become⟩ := planned.traced.inside_of_mem_tail inTail
    cases Scope.becomes_of_become become with
    | @body number _ _ callee symbols _ found _ few =>
        obtain ⟨below, rfl⟩ := List.getElem?_eq_some_iff.mp found
        have told := planned.recursions_eq sound distinct known use.name ⟨number, below⟩ symbols
        exact told.trans_le few
  case primitives =>
    intro node member box whole
    rw [nodes] at member
    obtain ⟨scope, known, use, -, before, after, becomes⟩ :=
      planned.traced.exists_becomes_of_mem_nodes member
    cases becomes with
    | primitive _ => exact (shallow scope known).level
    | truncated _ _ _ _ => cases whole
  case status =>
    intro node member
    rw [nodes] at member
    obtain ⟨scope, -, use, -, before, after, becomes⟩ :=
      planned.traced.exists_becomes_of_mem_nodes member
    cases becomes with
    | primitive _ => rfl
    | truncated _ _ _ _ => rfl

end Unfolding

namespace ResolvedProgram

/-- Resolved definitions have the names of the definitions. -/
theorem names_resolved (program : Program) :
    program.resolved.definitions.map (·.name) = program.definitions.map (·.name.name) := by
  have names : List.Forall₂ (fun body definition => body.name = definition.name.name)
      program.resolved.definitions program.definitions :=
    program.resolved_declares.imp fun _ _ declares => declares.name
  rw [← List.forall₂_map_right_iff, ← List.forall₂_map_left_iff] at names
  exact (congrFun (congrFun List.forall₂_eq_eq_eq _) _).mp names

/--
Where no two definitions have one name, every graph is cut off exactly: what has been cut off at a
depth is enclosed by one body more of its definition under its universal symbols than the depth
lets an instance be.
-/
theorem cutExactly_of_expand (program : Program)
    (distinct : (program.definitions.map (·.name.name)).Nodup) {root : program.resolved.Index}
    {generators : Option (List Symbol)} {limits : UnfoldingLimits} {graph : PortGraph}
    (expanded : program.resolved.expand root generators limits = .ok graph) :
    graph.CutExactly program.resolved limits.depth := by
  have sound := program.resolved_sound
  obtain ⟨binding, unfolding, -, shown⟩ := shown_of_expand sound expanded
  rw [← names_resolved] at distinct
  exact shown.toPlannedBy.cutExactly sound distinct

/-- Two definitions that use each other, one of them crosswise, with a helper on the way. -/
def swapping : Program :=
  .ofLines [
    "def f = <a, b> [X | Y]",
    "  use h <a> [X | Y] as H",
    "  use g <b, a> [X | Y] as G",
    "  link X >-> H.X, H.Y >-> G.X, G.Y >-> Y",
    "def g = <a, b> [X | Y]",
    "  use f <a, b> [X | Y] as F",
    "  link X >-> F.X, F.Y >-> Y",
    "def h = <c> [X | Y]",
    "  use +c [X | Y] as A",
    "  link X >-> A.X, A.Y >-> Y"]

/-- Of four instances of the root's definition every other one is under the same symbols. -/
theorem cutExactly_of_expand_swapping :
    ∃ (root : swapping.resolved.Index) (graph : PortGraph),
      swapping.resolved.expand root none ⟨1, 17, false⟩ = .ok graph ∧
      graph.truncatedCount = 1 ∧ graph.instances.length = 11 ∧
      graph.CutExactly swapping.resolved 1 := by
  have expands : (swapping.resolved.expand ⟨0, by decide +kernel⟩ none ⟨1, 17, false⟩).toOption.map
      (fun graph => (graph.truncatedCount, graph.instances.length)) = some (1, 11) := by
    decide +kernel
  obtain ⟨graph, found, counts⟩ := Option.map_eq_some_iff.mp expands
  obtain ⟨truncated, instances⟩ := Prod.mk.inj counts
  have expanded := eq_ok_of_toOption found
  exact ⟨_, graph, expanded, truncated, instances,
    cutExactly_of_expand swapping (by decide +kernel) expanded⟩

end ResolvedProgram

end FlowDiagram

import FlowDiagram.Proofs.Expansion.Ending
import FlowDiagram.Proofs.Expansion.Limits
import FlowDiagram.Proofs.Unfolding.Moving
import FlowDiagram.Proofs.Unfolding.Nesting
import Mathlib.Logic.Relation

/-!
# Expansion without recursion

Where no definition that a root needs leads back to itself, no body ever lies in one of the same
definition.  So nothing is cut off, some budget is enough, and the depth makes no difference at all,
neither to a graph nor to an error.
-/

namespace FlowDiagram

/-! ## Calls -/

/-- The definition that a use refers to, if any. -/
def ResolvedUse.callee? (use : ResolvedUse) : Option Nat :=
  match use.target with
  | .primitive _ => none
  | .definition index _ _ => some index

theorem ResolvedUse.refers_iff {use : ResolvedUse} {index : Nat} :
    use.Refers index ↔ use.callee? = some index := by
  unfold Refers callee?
  cases use.target with
  | primitive box => simp
  | definition other arguments fresh => simp

namespace ResolvedProgram

variable {program : ResolvedProgram} {root : program.Index}

/-- A definition is used in the body of another one. -/
def Calls (program : ResolvedProgram) (caller callee : program.Index) : Prop :=
  ∃ use ∈ (program.definition caller).uses, use.Refers callee

theorem calls_iff {caller callee : program.Index} :
    program.Calls caller callee ↔
      ∃ use ∈ (program.definition caller).uses, use.callee? = some (callee : Nat) := by
  unfold Calls
  simp only [ResolvedUse.refers_iff]

instance (program : ResolvedProgram) (caller callee : program.Index) :
    Decidable (program.Calls caller callee) :=
  decidable_of_iff _ calls_iff.symm

/-- No definition that a root needs leads back to itself. -/
def AcyclicFrom (program : ResolvedProgram) (root : program.Index) : Prop :=
  ∀ index, Relation.ReflTransGen program.Calls root index →
    ¬ Relation.TransGen program.Calls index index

/-- Where each definition is above all that it uses, none leads back to itself. -/
theorem acyclicFrom_of_rank (rank : program.Index → Nat)
    (falls : ∀ caller callee, program.Calls caller callee → rank callee < rank caller)
    (root : program.Index) : program.AcyclicFrom root := by
  intro index _ cycle
  have below : ∀ other, Relation.TransGen program.Calls index other → rank other < rank index := by
    intro other leads
    induction leads with
    | single calls => exact falls _ _ calls
    | tail _ calls ih => exact Nat.lt_trans (falls _ _ calls) ih
  exact Nat.lt_irrefl _ (below index cycle)

/-! ## Descents -/

namespace Descent

variable {descent : program.Descent}

theorem calls_succ (descent : program.Descent) (step : Nat) :
    program.Calls (descent.index step) (descent.index (step + 1)) := by
  obtain ⟨use, member, target⟩ := descent.calls step
  exact ⟨use, member, _, _, target⟩

theorem leads (descent : program.Descent) {first last : Nat} (le : first ≤ last) :
    Relation.ReflTransGen program.Calls (descent.index first) (descent.index last) := by
  induction last, le using Nat.le_induction with
  | base => exact .refl
  | succ last _ ih => exact ih.tail (descent.calls_succ last)

end Descent

/-- A descent comes back to a definition, so there is none below such a root. -/
theorem AcyclicFrom.settles (acyclic : program.AcyclicFrom root) : program.Settles root := by
  intro descent start _
  obtain ⟨first, second, different, same⟩ := Finite.exists_ne_map_eq_of_infinite descent.index
  wlog lt : first < second generalizing first second
  · exact this second first different.symm same.symm
      (Nat.lt_of_le_of_ne (Nat.not_lt.mp lt) different.symm)
  have reached := descent.leads (Nat.zero_le first)
  have cycle := Relation.TransGen.head' (descent.calls_succ first) (descent.leads lt)
  rw [start] at reached
  rw [← same] at cycle
  exact acyclic _ reached cycle

end ResolvedProgram

/-! ## Bodies -/

variable {program : ResolvedProgram} {root index : program.Index} {scope : Scope}

/-- The root leads to the definition of a body, by way of all definitions around it. -/
structure Scope.LedTo (program : ResolvedProgram) (root index : program.Index) (scope : Scope) :
    Prop where
  body : scope.body = program.definition index
  reached : Relation.ReflTransGen program.Calls root index
  around : ∀ application ∈ scope.applications, ∃ other : program.Index,
    application.definition = other ∧ Relation.ReflTransGen program.Calls other index

theorem Scope.LedTo.calls (led : scope.LedTo program root index) {use : ResolvedUse}
    (member : use ∈ scope.body.uses) {callee : program.Index} (refers : use.Refers callee) :
    program.Calls index callee :=
  ⟨use, led.body ▸ member, refers⟩

/-- What a body uses is none of the definitions around it. -/
theorem Scope.LedTo.recursions_eq_zero (acyclic : program.AcyclicFrom root)
    (led : scope.LedTo program root index) {callee : program.Index}
    (calls : program.Calls index callee) (universal : Nat) (symbols : List Symbol) :
    scope.recursions callee universal symbols = 0 := by
  refine List.countP_eq_zero.mpr fun application member => ?_
  rw [decide_eq_true_eq]
  rintro ⟨same, -⟩
  obtain ⟨other, here, leads⟩ := led.around application member
  obtain rfl : other = callee := Fin.ext (here.symm.trans same)
  exact acyclic other (led.reached.tail calls) (Relation.TransGen.tail' leads calls)

/-- So a use becomes the same at every depth. -/
theorem Scope.LedTo.become_eq (acyclic : program.AcyclicFrom root)
    (led : scope.LedTo program root index) {use : ResolvedUse} (member : use ∈ scope.body.uses)
    (depth other number : Nat) :
    scope.become program depth number use = scope.become program other number use := by
  unfold Scope.become
  cases target : use.target with
  | primitive box => rfl
  | definition callee arguments fresh =>
      dsimp only
      cases found : program.definitions[callee]? with
      | none => rfl
      | some body =>
          have below := (List.getElem?_eq_some_iff.mp found).1
          have calls : program.Calls index ⟨callee, below⟩ :=
            led.calls member ⟨arguments, fresh, target⟩
          have once := led.recursions_eq_zero acyclic calls
          simp only [Option.map_some, once, Nat.not_lt_zero, if_false]

theorem Scope.LedTo.becomeAll_eq (acyclic : program.AcyclicFrom root)
    (led : scope.LedTo program root index) (depth other number : Nat) {uses : List ResolvedUse}
    (members : ∀ use ∈ uses, use ∈ scope.body.uses) :
    scope.becomeAll program depth number uses = scope.becomeAll program other number uses := by
  induction uses generalizing number with
  | nil => rfl
  | cons use rest ih =>
      obtain ⟨here, inRest⟩ := List.forall_mem_cons.mp members
      simp only [becomeAll, led.become_eq acyclic here depth other, ih _ inRest]

/-- The root leads to what lies inside a body that it leads to. -/
theorem Scope.LedTo.inner {depth : Nat} {inner : Scope} (led : scope.LedTo program root index)
    (inside : Scope.Inside program depth inner scope) :
    ∃ callee, inner.LedTo program root callee := by
  obtain ⟨callee, arguments, fresh, enters⟩ := inside.enters
  obtain ⟨use, member, target⟩ := enters.call
  have calls : program.Calls index callee := led.calls member ⟨arguments, fresh, target⟩
  refine ⟨callee, enters.body, led.reached.tail calls, ?_⟩
  rw [enters.applications]
  rintro application listed
  rcases List.mem_cons.mp listed with rfl | outer
  · exact ⟨callee, rfl, .refl⟩
  · obtain ⟨other, here, leads⟩ := led.around application outer
    exact ⟨other, here, leads.tail calls⟩

namespace Unfolding

variable {depth : Nat} {binding : List Symbol} {pending : List Nat} {unfolding : Unfolding}

/-- The root leads to all bodies that have been unfolded. -/
theorem Traced.ledTo
    (traced : Traced program depth (ResolvedProgram.rootScope root binding) pending unfolding) :
    ∀ scope ∈ unfolding.scopes, ∃ index, scope.LedTo program root index := by
  refine traced.scope_induction ?_ ?_
  · refine ⟨root, rfl, .refl, fun application member => ?_⟩
    obtain rfl := List.mem_singleton.mp member
    exact ⟨root, rfl, .refl⟩
  · rintro outer - ⟨index, led⟩ inner - inside
    exact led.inner inside

/-- Nothing has been cut off. -/
theorem Traced.whole (acyclic : program.AcyclicFrom root)
    (traced : Traced program depth (ResolvedProgram.rootScope root binding) pending unfolding) :
    ∀ node ∈ unfolding.nodes, node.isTruncated = false := by
  intro node member
  obtain ⟨scope, known, use, used, before, after, becomes⟩ :=
    traced.exists_becomes_of_mem_nodes member
  obtain ⟨index, led⟩ := traced.ledTo scope known
  cases becomes with
  | primitive _ => rfl
  | @truncated number arguments fresh callee symbols target found _ many =>
      have below := (List.getElem?_eq_some_iff.mp found).1
      have calls : program.Calls index ⟨number, below⟩ := led.calls used ⟨arguments, fresh, target⟩
      have once := led.recursions_eq_zero acyclic calls callee.universal.length symbols
      exact absurd many (Nat.not_lt.mpr (once.trans_le (Nat.zero_le depth)))

end Unfolding

namespace ResolvedProgram

variable {generators : Option (List Symbol)} {limits : UnfoldingLimits} {graph : PortGraph}

theorem truncatedCount_of_acyclic (sound : program.Sound) (acyclic : program.AcyclicFrom root)
    (expanded : program.expand root generators limits = .ok graph) : graph.truncatedCount = 0 := by
  obtain ⟨binding, final, -, shown⟩ := shown_of_expand sound expanded
  have nodes : graph.nodes = final.nodes := congrArg GraphPlan.nodes shown.plan
  refine List.countP_eq_zero.mpr fun node member => ?_
  rw [nodes, Array.mem_toList_iff] at member
  simp [shown.traced.whole acyclic node member]

/-- With as much room and time a root expands to the same graph at every depth. -/
theorem expand_of_acyclic (sound : program.Sound) (acyclic : program.AcyclicFrom root)
    {other : UnfoldingLimits} (inTime : other.expired = false) (room : limits.nodes ≤ other.nodes)
    (expanded : program.expand root generators limits = .ok graph) :
    program.expand root generators other = .ok graph := by
  refine expand_of_agree sound inTime room expanded ?_
  intro binding final planned scope known number next outcomes become _
  obtain ⟨index, led⟩ := planned.traced.ledTo scope known
  rw [← led.becomeAll_eq acyclic limits.depth other.depth number fun _ member => member]
  exact become

/-- At every depth expansion comes to the same, a graph or an error. -/
theorem expand_eq_of_acyclic (sound : program.Sound) (acyclic : program.AcyclicFrom root)
    (depth : Nat) :
    program.expand root generators { limits with depth } =
      program.expand root generators limits := by
  cases here : program.expand root generators limits with
  | ok graph =>
      have inTime := inTime_of_expand here
      exact expand_of_acyclic sound acyclic inTime (Nat.le_refl limits.nodes) here
  | error error =>
      cases there : program.expand root generators { limits with depth } with
      | ok graph =>
          have inTime := inTime_of_expand there
          have back : program.expand root generators limits = .ok graph := by
            refine expand_of_acyclic sound acyclic inTime ?_ there
            exact Nat.le_refl limits.nodes
          cases here.symm.trans back
      | error errorThere => rw [error_of_expand sound here there]

/--
Where nothing has been cut off, every larger depth yields the same graph.  Where no definition that
the root needs leads back to itself, nothing is cut off at any depth, all depths come to the same,
and some budget is enough for all of them.
-/
theorem expand_at_every_depth (program : Program) (root : program.resolved.Index)
    (generators : Option (List Symbol)) :
    (∀ limits graph, program.resolved.expand root generators limits = .ok graph →
      graph.truncatedCount = 0 → ∀ depth, limits.depth ≤ depth →
        program.resolved.expand root generators { limits with depth } = .ok graph) ∧
    (program.resolved.AcyclicFrom root →
      (∀ limits graph, program.resolved.expand root generators limits = .ok graph →
        graph.truncatedCount = 0) ∧
      (∀ (limits : UnfoldingLimits) (depth : Nat),
        program.resolved.expand root generators { limits with depth } =
          program.resolved.expand root generators limits) ∧
      ((program.resolved.definition root).Takes generators →
        ∃ enough graph, ∀ limits : UnfoldingLimits, limits.expired = false →
          enough ≤ limits.nodes → program.resolved.expand root generators limits = .ok graph)) := by
  have sound := program.resolved_sound
  refine ⟨?_, fun acyclic => ⟨?_, ?_, ?_⟩⟩
  · intro limits graph expanded whole depth le
    exact expand_of_depth_le sound expanded whole le
  · intro limits graph expanded
    exact truncatedCount_of_acyclic sound acyclic expanded
  · intro limits depth
    exact expand_eq_of_acyclic sound acyclic depth
  · intro takes
    obtain ⟨enough, expands⟩ := acyclic.settles.exists_budget sound
      (fun symbols given => takes symbols given) 0
    obtain ⟨graph, expanded⟩ := expands ⟨0, enough, false⟩ rfl rfl (Nat.le_refl enough)
    exact ⟨enough, graph, fun limits inTime room => expand_of_acyclic sound acyclic inTime room
      expanded⟩

/-- Two definitions that use a third one, the first of them by way of the second as well. -/
def layered : Program :=
  .ofLines [
    "def top = <a> [X | Y]",
    "  use middle <a |> [X | Y] as M",
    "  use bottom <a> [X | Y] as B",
    "  link X >-> M.X, M.Y >-> B.X, B.Y >-> Y",
    "def middle = <a | e> [X | Y]",
    "  use bottom <a> [X | Y] as F",
    "  use bottom <e> [X | Y] as S",
    "  link X >-> F.X, F.Y >-> S.X, S.Y >-> Y",
    "def bottom = <c> [X | Y]",
    "  use +c [X | Y] as A",
    "  link X >-> A.X, A.Y >-> Y"]

/-- The same definition under the same symbol is used at different places, but nowhere in itself. -/
theorem expand_at_every_depth_layered :
    ∃ (root : layered.resolved.Index) (graph : PortGraph),
      graph.nodes.size = 3 ∧ graph.instances.length = 4 ∧ graph.truncatedCount = 0 ∧
      ∀ depth, layered.resolved.expand root (some ["x"]) ⟨depth, 8, false⟩ = .ok graph := by
  have acyclic : layered.resolved.AcyclicFrom ⟨0, by decide +kernel⟩ := by
    exact acyclicFrom_of_rank (fun index => 2 - index) (by decide +kernel) _
  have expands : (layered.resolved.expand ⟨0, by decide +kernel⟩ (some ["x"])
      ⟨0, 8, false⟩).toOption.map (fun graph => (graph.nodes.size, graph.instances.length)) =
        some (3, 4) := by
    decide +kernel
  obtain ⟨graph, found, counts⟩ := Option.map_eq_some_iff.mp expands
  obtain ⟨nodes, instances⟩ := Prod.mk.inj counts
  have expanded := eq_ok_of_toOption found
  obtain ⟨-, alike⟩ := expand_at_every_depth layered ⟨0, by decide +kernel⟩ (some ["x"])
  obtain ⟨whole, same, -⟩ := alike acyclic
  exact ⟨_, graph, nodes, instances, whole _ graph expanded,
    fun depth => (same ⟨0, 8, false⟩ depth).trans expanded⟩

end ResolvedProgram

end FlowDiagram

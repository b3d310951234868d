import FlowDiagram.Expansion
import FlowDiagram.Proofs.PortGraph.Spans
import FlowDiagram.Proofs.Unfolding.Altering

/-!
# Unfolding without spans

Unfolding hands the spans of uses on to nodes and looks at none of them: a body without spans
unfolds to the same nodes and edges, without their spans, or fails for the same reason.
-/

namespace FlowDiagram

def Frame.withoutSpans (frame : Frame) : Frame :=
  { frame with body := frame.body.withoutSpans }

def Unfolding.withoutSpans (unfolding : Unfolding) : Unfolding :=
  { unfolding with
    frames := unfolding.frames.map Frame.withoutSpans
    nodes := unfolding.nodes.map Node.withoutSpan }

/-- The alteration that takes the spans away. -/
def Alteration.spanless : Alteration :=
  ⟨Frame.withoutSpans, Node.withoutSpan, ResolvedUse.withoutSpan⟩

namespace Alteration

theorem spanless_neutral : spanless.Neutral where
  uses _ := rfl
  links frame := by
    change (frame.body.links.map ResolvedLink.withoutSpan).map _ = _
    rw [List.map_map]
    rfl
  site _ := rfl
  setParts _ _ := rfl
  outputs _ := rfl

variable (program : ResolvedProgram) (limits : UnfoldingLimits)

/-- All uses unfold alike without their spans. -/
theorem spanless_carries :
    spanless.Carries program program.withoutSpans limits fun _ => True where
  unfoldUse frame site unfolding _ use _ := by
    have target : use.withoutSpan.target = use.target := rfl
    change (unfolding.alter spanless).unfoldUse program.withoutSpans limits frame.withoutSpans site
      use.withoutSpan = _
    rw [Unfolding.unfoldUse, Unfolding.unfoldUse, target]
    cases use.target with
    | primitive primitive =>
        refine Unfolding.addNode_alter spanless limits unfolding site ?_
        rfl
    | definition index arguments fresh =>
        have there : program.withoutSpans.definitions[index]? =
            program.definitions[index]?.map ResolvedDefinition.withoutSpans := List.getElem?_map
        cases found : program.definitions[index]? with
        | none => simp only [Unfolding.unfoldDefinition, there, found, Option.map_none, Except.map]
        | some callee =>
            rw [found] at there
            exact Unfolding.unfoldDefinition_alter unfolding arguments fresh found there rfl rfl
              (fun _ => rfl) (fun _ _ => rfl) fun _ _ => rfl
  inner _ _ _ _ _ _ _ _ _ _ _ _ := trivial
  setParts _ _ _ := trivial

end Alteration

/-- The same is unfolded, whatever the spans of uses. -/
theorem Unfolding.unfoldAll_withoutSpans (program : ResolvedProgram) (limits : UnfoldingLimits)
    (unfolding : Unfolding) (pending : List Nat) :
    unfolding.withoutSpans.unfoldAll program.withoutSpans limits pending =
      (unfolding.unfoldAll program limits pending).map withoutSpans :=
  unfoldAll_alter Alteration.spanless_neutral (Alteration.spanless_carries program limits)
    unfolding pending fun _ _ _ => trivial

/-- The same edges are found, whatever the spans of links. -/
theorem Unfolding.edges_withoutSpans (unfolding : Unfolding) (inputs : Nat) :
    unfolding.withoutSpans.edges inputs = unfolding.edges inputs :=
  edges_alter Alteration.spanless_neutral unfolding inputs

/-! ## Expansion -/

theorem ResolvedDefinition.rootBinding_withoutSpans (root : ResolvedDefinition)
    (generators : Option (List Symbol)) :
    root.withoutSpans.rootBinding generators = root.rootBinding generators := by
  cases generators <;> rfl

namespace ResolvedProgram

variable (program : ResolvedProgram)

/-- The definition of a number is the same one. -/
theorem definition_withoutSpans {root : program.Index} {same : program.withoutSpans.Index}
    (number : (same : Nat) = root) :
    program.withoutSpans.definition same = (program.definition root).withoutSpans := by
  obtain ⟨index, known⟩ := root
  obtain ⟨other, there⟩ := same
  obtain rfl : other = index := number
  exact List.getElem_map _

/-- A root expands to the same graph, but for spans, or fails for the same reason. -/
theorem expand_withoutSpans {root : program.Index} {same : program.withoutSpans.Index}
    (number : (same : Nat) = root) (generators : Option (List Symbol))
    (limits : UnfoldingLimits) :
    program.withoutSpans.expand same generators limits =
      (program.expand root generators limits).map PortGraph.withoutSpans := by
  unfold expand
  rw [definition_withoutSpans program number, number]
  simp only [Unfolding.build_builder]
  rw [ResolvedDefinition.rootBinding_withoutSpans]
  cases (program.definition root).rootBinding generators with
  | error error => rfl
  | ok binding =>
      have outset : Unfolding.ofRoot root (program.definition root).withoutSpans binding =
          (Unfolding.ofRoot root (program.definition root) binding).withoutSpans := by
        simp [Unfolding.ofRoot, Unfolding.withoutSpans, Frame.withoutSpans]
      simp only [bind, Except.bind, outset, Unfolding.unfoldAll_withoutSpans]
      cases (Unfolding.ofRoot root (program.definition root) binding).unfoldAll program limits
          [0] with
      | error error => rfl
      | ok unfolding =>
          have plan : unfolding.withoutSpans.plan (program.definition root).withoutSpans binding =
              (unfolding.plan (program.definition root) binding).withoutSpans := by
            have instances : unfolding.withoutSpans.instances = unfolding.instances := by
              simp only [Unfolding.instances, Unfolding.withoutSpans, Array.toList_map,
                ← List.map_tail, List.map_map]
              rfl
            rw [Unfolding.plan, instances]
            rfl
          have inputs : (program.definition root).withoutSpans.inputs =
              (program.definition root).inputs := rfl
          have built (plan : GraphPlan) (edges : List Edge) :
              PortGraph.build plan.withoutSpans edges =
                (PortGraph.build plan edges).map PortGraph.withoutSpans :=
            Relabelling.spanless.build plan edges
          simp only [Except.map, plan, inputs, Unfolding.edges_withoutSpans, built]
          cases PortGraph.build (unfolding.plan (program.definition root) binding)
            (unfolding.edges (program.definition root).inputs.length) <;> rfl

end ResolvedProgram

end FlowDiagram

import FlowDiagram.Diagnostic
import FlowDiagram.Unfolding.Edges

/-!
# Expansion

Expansion turns a definition of a resolved program into a port graph: it unfolds the definition
under the generators given for its universal symbols, and finds the edges between what has become
of the uses.
-/

namespace FlowDiagram

/-- The number of a definition of a program. -/
abbrev ResolvedProgram.Index (program : ResolvedProgram) : Type :=
  Fin program.definitions.length

/-- The definition that an index stands for. -/
def ResolvedProgram.definition (program : ResolvedProgram) (index : program.Index) :
    ResolvedDefinition :=
  program.definitions.get index

/--
What the generic symbols of a root stand for.  Without generators each stands for itself; otherwise
there is one generator per universal symbol, and the existential ones stand for themselves.
-/
def ResolvedDefinition.rootBinding (root : ResolvedDefinition) :
    Option (List Symbol) → Except UnfoldingError (List Symbol)
  | none => .ok root.parameters
  | some generators =>
    if generators.length = root.universal.length then .ok (generators ++ root.existential)
    else .error (.generatorCount root.name root.universal.length generators.length)

/-- The unfolded uses of definitions, in the order in which they were found. -/
def Unfolding.instances (unfolding : Unfolding) : List Instance :=
  unfolding.frames.toList.tail.map fun frame =>
    ⟨frame.path, frame.body.name, frame.binding, frame.level⟩

/-- The graph of what has been unfolded, but for the edges. -/
def Unfolding.plan (unfolding : Unfolding) (root : ResolvedDefinition) (binding : List Symbol) :
    GraphPlan where
  root := root.name
  rootSpan := root.span
  generators := binding
  inputs := root.inputs
  outputs := root.outputs
  nodes := unfolding.nodes
  instances := unfolding.instances

/-- The graph of what has been unfolded, about to be built. -/
def Unfolding.builder (unfolding : Unfolding) (root : ResolvedDefinition)
    (binding : List Symbol) : GraphBuilder :=
  let start := ((GraphBuilder.new root.name root.inputs root.outputs).withGenerators
    binding).withRootSpan root.span
  let nodes := unfolding.nodes.toList.foldl (fun builder node => (builder.addNode node).2) start
  let instances := unfolding.instances.foldl GraphBuilder.addInstance nodes
  (unfolding.edges root.inputs.length).foldl GraphBuilder.addEdge instances

theorem Unfolding.build_builder (unfolding : Unfolding) (root : ResolvedDefinition)
    (binding : List Symbol) :
    (unfolding.builder root binding).build =
      PortGraph.build (unfolding.plan root binding) (unfolding.edges root.inputs.length) := by
  simp only [builder, GraphBuilder.foldl_addNode, GraphBuilder.foldl_addInstance,
    GraphBuilder.foldl_addEdge]
  simp [plan, GraphBuilder.build, GraphBuilder.plan, GraphBuilder.new,
    GraphBuilder.withGenerators, GraphBuilder.withRootSpan]

/-- The port graph of the definition `root`, or why there is none. -/
def ResolvedProgram.expand (program : ResolvedProgram) (root : program.Index)
    (generators : Option (List Symbol)) (limits : UnfoldingLimits) :
    Except UnfoldingError PortGraph := do
  let body := program.definition root
  let binding ← body.rootBinding generators
  let unfolding ← (Unfolding.ofRoot root body binding).unfoldAll program limits [0]
  match (unfolding.builder body binding).build with
  | .ok graph => return graph
  | .error error => throw (.malformed error)

/-! ## Errors -/

def UnfoldingError.kind : UnfoldingError → DiagnosticKind
  | .generatorCount .. => .arityMismatch
  | .budget _ | .deadline => .resourceExceeded
  | .unknownDefinition _ => .unknownDefinition
  | .malformed _ => .portMismatch

def UnfoldingError.message : UnfoldingError → String
  | .generatorCount root expected given =>
    "root `" ++ root ++ "` takes " ++ toString expected ++ " universal generator(s), " ++
      toString given ++ " given"
  | .budget limit => "expansion exceeded the budget of " ++ toString limit ++ " nodes"
  | .deadline => "expansion did not finish before the compile deadline"
  | .unknownDefinition index => "internal: no definition number " ++ toString index
  | .malformed error => "internal: expanded graph is malformed: " ++ error.message

/-- The hint of an error that goes away when less is unfolded. -/
def lowerDepth : String := "lower the expansion depth"

/-- Errors of expansion stand at the name of the root. -/
def UnfoldingError.diagnostic (place : Span) (error : UnfoldingError) : Diagnostic :=
  let diagnostic := Diagnostic.error error.kind place error.message
  match error with
  | .budget _ | .deadline => diagnostic.withHint lowerDepth
  | _ => diagnostic

end FlowDiagram

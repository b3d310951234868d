import FlowDiagram.Expansion
import FlowDiagram.Proofs.PortGraph.Building
import FlowDiagram.Resolution.Error
import Mathlib.Data.List.Nodup
import Mathlib.Logic.Relation

/-!
# The nested diagram

Before it is flattened, what a root expands to is a diagram of diagrams: the body of the root, in it
the bodies of its instances, and so on.  Every port lies at the path of a use, those of the root's
boundary at the empty path.  A boundary port of an instance is one port, seen from the body around
the instance and from the body inside it, so links of different bodies meet there.
-/

namespace FlowDiagram

/-- A port of the use at a path; at the empty path, a boundary port of the root. -/
structure Port where
  path : List String
  side : Side
  number : Nat
  deriving DecidableEq

/-- The body behind the instance of a name in a body. -/
def ResolvedProgram.within? (program : ResolvedProgram) (body : ResolvedDefinition)
    (name : String) : Option ResolvedDefinition :=
  (body.uses.find? (·.name == name)).bind fun use =>
    match use.target with
    | .primitive _ => none
    | .definition index _ _ => program.definitions[index]?

/-- The body at a path below a root. -/
def ResolvedProgram.bodyAt? (program : ResolvedProgram) (root : ResolvedDefinition)
    (path : List String) : Option ResolvedDefinition :=
  path.foldlM program.within? root

theorem ResolvedProgram.bodyAt?_mem {program : ResolvedProgram} {root : ResolvedDefinition}
    (known : root ∈ program.definitions) {path : List String} {body : ResolvedDefinition}
    (found : program.bodyAt? root path = some body) : body ∈ program.definitions := by
  induction path generalizing root with
  | nil =>
      cases found
      exact known
  | cons name rest ih =>
      obtain ⟨inner, hinner, later⟩ := Option.bind_eq_some_iff.mp found
      obtain ⟨use, -, htarget⟩ := Option.bind_eq_some_iff.mp hinner
      split at htarget
      · cases htarget
      · exact ih (List.mem_of_getElem? htarget) later

/-- Where names are different, an item is the first of its name. -/
theorem find?_eq_of_nodup_map {α : Type} (name : α → String) {items : List α}
    (distinct : (items.map name).Nodup) {item : α} (member : item ∈ items) :
    items.find? (fun other => name other == name item) = some item := by
  cases first : items.find? fun other => name other == name item with
  | none => simpa using List.find?_eq_none.mp first item member
  | some other =>
      have same : name other = name item := by simpa using List.find?_some first
      rw [List.inj_on_of_nodup_map distinct (List.mem_of_find?_eq_some first) member same]

/-- Where the uses of a body have names of their own, each of them is found by its name. -/
theorem ResolvedDefinition.find?_name {body : ResolvedDefinition}
    (distinct : (body.uses.map (·.name)).Nodup) {use : ResolvedUse} (member : use ∈ body.uses) :
    body.uses.find? (·.name == use.name) = some use :=
  find?_eq_of_nodup_map ResolvedUse.name distinct member

/-- The name of a use leads one step further, to the body of the definition used. -/
theorem ResolvedProgram.bodyAt?_concat {program : ResolvedProgram}
    {root body inner : ResolvedDefinition} {path : List String}
    (found : program.bodyAt? root path = some body) {use : ResolvedUse}
    (named : body.uses.find? (·.name == use.name) = some use) {index : Nat}
    {arguments : List Symbol} {fresh : Bool}
    (target : use.target = .definition index arguments fresh)
    (known : program.definitions[index]? = some inner) :
    program.bodyAt? root (path ++ [use.name]) = some inner := by
  rw [bodyAt?] at found ⊢
  rw [List.foldlM_append, found]
  simp only [Option.bind_eq_bind, Option.bind_some, List.foldlM_cons, List.foldlM_nil, within?,
    named, target]
  rw [known]
  rfl

/-- The port of a body at a path from which links start: an input of its own or an output inside. -/
def ResolvedDefinition.sourcePort? (body : ResolvedDefinition) (path : List String) :
    LinkEnd → Option Port
  | .boundary number => some ⟨path, .input, number⟩
  | .use index number => body.uses[index]?.map fun use => ⟨path ++ [use.name], .output, number⟩

/-- The port of a body at a path at which links end: an output of its own or an input inside. -/
def ResolvedDefinition.targetPort? (body : ResolvedDefinition) (path : List String) :
    LinkEnd → Option Port
  | .boundary number => some ⟨path, .output, number⟩
  | .use index number => body.uses[index]?.map fun use => ⟨path ++ [use.name], .input, number⟩

namespace PortGraph

/-- The body at a path has been expanded: it is the root's or that of an instance. -/
def Expands (graph : PortGraph) (path : List String) : Prop :=
  path = [] ∨ ∃ unfolded ∈ graph.instances, unfolded.path = path

/-- The port that a root input or a node output is. -/
def sourcePort? (graph : PortGraph) (source : Endpoint) : Option Port :=
  match source.vertex with
  | .inputs => if source.port < graph.inputs.length then some ⟨[], .input, source.port⟩ else none
  | .outputs => none
  | .node id => graph.nodes[id]?.bind fun node =>
    if source.port < node.outputs.length then some ⟨node.provenance.path, .output, source.port⟩
    else none

/-- The port that a root output or a node input is. -/
def targetPort? (graph : PortGraph) (target : Endpoint) : Option Port :=
  match target.vertex with
  | .inputs => none
  | .outputs =>
    if target.port < graph.outputs.length then some ⟨[], .output, target.port⟩ else none
  | .node id => graph.nodes[id]?.bind fun node =>
    if target.port < node.inputs.length then some ⟨node.provenance.path, .input, target.port⟩
    else none

theorem hasSource_of_port {graph : PortGraph} {source : Endpoint} {port : Port}
    (found : graph.sourcePort? source = some port) : graph.HasSource source := by
  obtain ⟨vertex, number⟩ := source
  cases vertex with
  | inputs =>
      simp only [sourcePort?, Option.ite_none_right_eq_some] at found
      exact found.1
  | outputs => cases found
  | node id =>
      simp only [sourcePort?, Option.bind_eq_some_iff, Option.ite_none_right_eq_some] at found
      obtain ⟨node, hnode, below, -⟩ := found
      exact ⟨node, hnode, below⟩

theorem hasTarget_of_port {graph : PortGraph} {target : Endpoint} {port : Port}
    (found : graph.targetPort? target = some port) : graph.HasTarget target := by
  obtain ⟨vertex, number⟩ := target
  cases vertex with
  | inputs => cases found
  | outputs =>
      simp only [targetPort?, Option.ite_none_right_eq_some] at found
      exact found.1
  | node id =>
      simp only [targetPort?, Option.bind_eq_some_iff, Option.ite_none_right_eq_some] at found
      obtain ⟨node, hnode, below, -⟩ := found
      exact ⟨node, hnode, below⟩

/-- A link of an expanded body runs from one port to another. -/
inductive Wired (program : ResolvedProgram) (root : ResolvedDefinition) (graph : PortGraph) :
    Port → Port → Prop where
  | link {path : List String} {body : ResolvedDefinition} {link : ResolvedLink}
      {source target : Port} (expands : graph.Expands path)
      (found : program.bodyAt? root path = some body) (member : link ∈ body.links)
      (starts : body.sourcePort? path link.source = some source)
      (ends : body.targetPort? path link.target = some target) :
      Wired program root graph source target

/--
Links lead from one port to another: one link, or several that meet at boundary ports of expanded
instances.
-/
def Linked (program : ResolvedProgram) (root : ResolvedDefinition) (graph : PortGraph) :
    Port → Port → Prop :=
  Relation.TransGen (Wired program root graph)

/-- What is linked stays so where as much or more has been expanded. -/
theorem Linked.mono {program : ResolvedProgram} {root : ResolvedDefinition}
    {graph larger : PortGraph} (grows : ∀ path, graph.Expands path → larger.Expands path)
    {source target : Port} (linked : Linked program root graph source target) :
    Linked program root larger source target := by
  refine Relation.TransGen.mono ?_ _ _ linked
  rintro _ _ ⟨expands, found, member, starts, ends⟩
  exact .link (grows _ expands) found member starts ends

end PortGraph

end FlowDiagram

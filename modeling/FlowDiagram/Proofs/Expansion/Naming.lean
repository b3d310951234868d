import FlowDiagram.Proofs.Expansion.Edges
import FlowDiagram.Proofs.Expansion.Paths
import FlowDiagram.Proofs.Expansion.Reaching
import FlowDiagram.Proofs.Expansion.Truncation
import FlowDiagram.Proofs.Program.Named
import FlowDiagram.Proofs.Text.Joining

/-!
# What paths name

Every node and every instance of an expanded graph lies at a path of its own, inside the instances
at the beginnings of that path.  The names along a path lead from body to body, and the last one
names the use that has become what lies there.
-/

namespace FlowDiagram

/-! ## Nodes and frames by their paths -/

namespace Unfolding

variable {program : ResolvedProgram} {depth : Nat} {root : Scope} {unfolding : Unfolding}

/-- Where a node or a frame lies. -/
def path? (unfolding : Unfolding) : Part → Option (List String)
  | .node id => unfolding.nodes[id]?.map (·.provenance.path)
  | .frame number => unfolding.frames[number]?.map (·.path)

theorem has_of_path {part : Part} {path : List String} (found : unfolding.path? part = some path) :
    unfolding.Has part := by
  cases part with
  | node id =>
      obtain ⟨node, there, -⟩ := Option.map_eq_some_iff.mp found
      exact (Array.getElem?_eq_some_iff.mp there).1
  | frame number =>
      obtain ⟨frame, there, -⟩ := Option.map_eq_some_iff.mp found
      exact (Array.getElem?_eq_some_iff.mp there).1

/-- All but the root lies where its use is named. -/
theorem Traced.site_of_path (traced : Traced program depth root [] unfolding) {part : Part}
    {path : List String} (found : unfolding.path? part = some path) (below : part ≠ .frame 0) :
    ∃ site frame use, unfolding.part? site = some part ∧
      unfolding.use? site = some (frame, use) ∧ path = frame.path ++ [use.name] := by
  obtain ⟨site, placed⟩ := (traced.sited part (has_of_path found)).resolve_left below
  cases part with
  | node id =>
      obtain ⟨frame, use, before, after, node, huse, become, there, -⟩ := traced.node_of_part placed
      simp only [path?, there, Option.map_some, Option.some.injEq] at found
      exact ⟨site, frame, use, placed, huse, found.symm.trans (Scope.become_eq_node become).2.2⟩
  | frame number =>
      obtain ⟨inner, there, same⟩ := Option.map_eq_some_iff.mp found
      obtain ⟨frame, use, huse, path⟩ := traced.path_of_part placed there
      exact ⟨site, frame, use, placed, huse, same.symm.trans path⟩

theorem Traced.path_root (rootPath : root.path = [])
    (traced : Traced program depth root [] unfolding) : unfolding.path? (.frame 0) = some [] := by
  obtain ⟨frame, found, same, -⟩ := traced.root_frame
  have top : frame.path = [] := (congrArg Scope.path same).trans rootPath
  simp only [path?, found, Option.map_some, top]

/-- No two parts lie at one path. -/
theorem Traced.eq_of_path (sound : program.Sound) (rootPath : root.path = [])
    (traced : Traced program depth root [] unfolding) {first second : Part} {path : List String}
    (found : unfolding.path? first = some path) (foundToo : unfolding.path? second = some path) :
    first = second := by
  have top := traced.path_root rootPath
  by_cases root_ : first = .frame 0
  · subst root_
    obtain rfl := Option.some.inj (top.symm.trans found)
    by_contra other
    obtain ⟨-, frame, use, -, -, path⟩ := traced.site_of_path foundToo (Ne.symm other)
    simp at path
  · obtain ⟨site, frame, use, placed, huse, rfl⟩ := traced.site_of_path found root_
    by_cases alsoRoot : second = .frame 0
    · subst alsoRoot
      have path := Option.some.inj (top.symm.trans foundToo)
      simp at path
    · obtain ⟨other, otherFrame, otherUse, otherPlaced, hother, path⟩ :=
        traced.site_of_path foundToo alsoRoot
      have same := traced.site_injective sound rootPath huse hother path
      rw [same] at placed
      exact Option.some.inj (placed.symm.trans otherPlaced)

/-- The paths of the nodes and the bodies are all different. -/
theorem Traced.nodup_all (sound : program.Sound) (rootPath : root.path = [])
    (traced : Traced program depth root [] unfolding) :
    (unfolding.nodes.toList.map (·.provenance.path) ++ unfolding.scopes.map (·.path)).Nodup := by
  have node_path : ∀ (id : Nat) (below : id < unfolding.nodes.size),
      unfolding.path? (.node id) = some unfolding.nodes[id].provenance.path := by
    intro id below
    rw [path?, Array.getElem?_eq_getElem below, Option.map_some]
  refine List.nodup_append.mpr ⟨?_, traced.nodup_paths sound rootPath, ?_⟩
  · rw [List.nodup_iff_pairwise_ne, List.pairwise_map, List.pairwise_iff_getElem]
    intro first second below alsoBelow lt same
    simp only [Array.getElem_toList] at same
    have there := node_path second alsoBelow
    rw [← same] at there
    cases traced.eq_of_path sound rootPath (node_path first below) there
    exact Nat.lt_irrefl _ lt
  · rintro path isNode other isBody rfl
    obtain ⟨node, listed, rfl⟩ := List.mem_map.mp isNode
    obtain ⟨id, below, rfl⟩ := Array.mem_iff_getElem.mp (Array.mem_toList_iff.mp listed)
    obtain ⟨scope, known, same⟩ := List.mem_map.mp isBody
    obtain ⟨frame, there, rfl⟩ := List.mem_map.mp known
    obtain ⟨number, found⟩ := Array.mem_iff_getElem?.mp (Array.mem_toList_iff.mp there)
    have body : unfolding.path? (.frame number) =
        some unfolding.nodes[id].provenance.path := by
      rw [path?, found, Option.map_some]
      exact congrArg some same
    cases traced.eq_of_path sound rootPath (node_path id below) body

/-- At every beginning of the path of a body lies a body. -/
theorem Traced.exists_prefix (rootPath : root.path = [])
    (traced : Traced program depth root [] unfolding) :
    ∀ scope ∈ unfolding.scopes, ∀ path, path <+: scope.path →
      ∃ around ∈ unfolding.scopes, around.path = path := by
  refine traced.scope_induction ?_ ?_
  · intro path before
    rw [rootPath, List.prefix_nil] at before
    refine ⟨root, ?_, rootPath.trans before.symm⟩
    rw [traced.scopes_eq]
    exact List.mem_cons_self
  · rintro outer - enclosed inner member ⟨use, -, _, _, become⟩ path before
    rw [(Scope.become_eq_body become).1, List.prefix_concat_iff] at before
    rcases before with rfl | earlier
    · exact ⟨inner, member, (Scope.become_eq_body become).1⟩
    · exact enclosed path earlier

end Unfolding

/-! ## What a use has become -/

/-- A node is what a use in a body has become under the symbols bound there. -/
structure Node.StandsFor (program : ResolvedProgram) (body : ResolvedDefinition)
    (symbols : List Symbol) (use : ResolvedUse) (node : Node) : Prop where
  inputs : node.inputs = use.inputs
  outputs : node.outputs = use.outputs
  span : node.provenance.span = use.span
  definition : node.provenance.definition = body.name
  kind :
    match use.target with
    | .primitive box => node.kind = .primitive (box.rename (body.bind symbols))
    | .definition index arguments fresh => ∃ callee number,
        program.definitions[index]? = some callee ∧
        node.kind = .truncated callee.name
          (bindArguments (body.bind symbols) number callee.universal.length fresh arguments)

/-- An instance is what a use in a body has become under the symbols bound there. -/
def Instance.StandsFor (program : ResolvedProgram) (body : ResolvedDefinition)
    (symbols : List Symbol) (use : ResolvedUse) (unfolded : Instance) : Prop :=
  ∃ index arguments fresh callee number, use.target = .definition index arguments fresh ∧
    program.definitions[index]? = some callee ∧ unfolded.definition = callee.name ∧
    unfolded.generators =
      bindArguments (body.bind symbols) number callee.universal.length fresh arguments

namespace PortGraph

/-- The paths of all nodes, then of all instances. -/
def paths (graph : PortGraph) : List (List String) :=
  graph.nodes.toList.map (·.provenance.path) ++ graph.instances.map (·.path)

/-- A path leads to a use, in the body of the root or instance right around it. -/
structure LeadsTo (program : ResolvedProgram) (root : ResolvedDefinition) (graph : PortGraph)
    (path : List String) (around : Instance) (body : ResolvedDefinition) (use : ResolvedUse) :
    Prop where
  walk : program.useAt? root path = some use
  inside : program.bodyAt? root path.dropLast = some body
  listed : around ∈ graph.rootInstance :: graph.instances
  encloses : around.path = path.dropLast
  named : around.definition = body.name

/-- Paths tell apart what lies in a graph, and tell what each thing in it stands for. -/
structure PathsIdentify (program : ResolvedProgram) (root : ResolvedDefinition)
    (graph : PortGraph) : Prop where
  distinct : graph.paths.Nodup
  enclosed : ∀ path ∈ graph.paths, ∀ before, before <+: path → before ≠ path → before ≠ [] →
    ∃ unfolded ∈ graph.instances, unfolded.path = before
  found : ∀ (id : Nat) (node : Node), graph.nodes[id]? = some node →
    graph.nodeByPath? (pathText node.provenance.path) = some id
  nodes : ∀ node ∈ graph.nodes, ∃ around body use,
    graph.LeadsTo program root node.provenance.path around body use ∧
      node.StandsFor program body around.generators use
  instances : ∀ unfolded ∈ graph.instances, ∃ around body use,
    graph.LeadsTo program root unfolded.path around body use ∧
      unfolded.StandsFor program body around.generators use

end PortGraph

namespace Scope

variable {program : ResolvedProgram} {depth number next : Nat} {scope inner : Scope}
  {use : ResolvedUse} {node : Node}

theorem Becomes.standsFor (becomes : scope.Becomes program depth number use (.node node) next) :
    node.StandsFor program scope.body scope.binding use ∧
      node.provenance.path = scope.path ++ [use.name] := by
  cases becomes with
  | primitive target =>
      refine ⟨⟨rfl, rfl, rfl, rfl, ?_⟩, rfl⟩
      rw [target]
      rfl
  | truncated target found bound many =>
      refine ⟨⟨rfl, rfl, rfl, rfl, ?_⟩, rfl⟩
      rw [target]
      exact ⟨_, number, found, congrArg (NodeKind.truncated _) bound.symm⟩

theorem Becomes.instance_standsFor
    (becomes : scope.Becomes program depth number use (.body inner) next) :
    inner.toInstance.StandsFor program scope.body scope.binding use ∧
      inner.path = scope.path ++ [use.name] := by
  cases becomes with
  | body target found bound few =>
      exact ⟨⟨_, _, _, _, number, target, found, rfl, bound.symm⟩, rfl⟩

end Scope

namespace Unfolding

variable {program : ResolvedProgram} {depth : Nat} {index : program.Index}
  {binding : List Symbol} {unfolding : Unfolding} {graph : PortGraph}

/-- The path of a body and the name of a use in it lead to that use. -/
theorem PlannedBy.leadsTo (sound : program.Sound)
    (planned : unfolding.PlannedBy program depth (ResolvedProgram.rootScope index binding) binding
      graph) {scope : Scope} (known : scope ∈ unfolding.scopes) {use : ResolvedUse}
    (used : use ∈ scope.body.uses) :
    graph.LeadsTo program (program.definition index) (scope.path ++ [use.name])
      scope.toInstance scope.body use := by
  have traced := planned.traced
  obtain ⟨frame, listed, rfl⟩ := List.mem_map.mp known
  obtain ⟨number, there⟩ := Array.mem_iff_getElem?.mp (Array.mem_toList_iff.mp listed)
  have inside : program.bodyAt? (program.definition index) frame.scope.path =
      some frame.scope.body :=
    traced.bodyAt sound rfl there
  have named := ResolvedDefinition.find?_name (sound _ (traced.bodies _ known)).names_distinct used
  refine ⟨?_, ?_, ?_, ?_, rfl⟩
  · simp only [ResolvedProgram.useAt?, List.dropLast_concat, inside, Option.bind_some,
      List.getLast?_concat, named]
  · rw [List.dropLast_concat, inside]
  · rw [planned.instances_eq]
    exact List.mem_map_of_mem known
  · rw [List.dropLast_concat]
    rfl

/-- What lies in a graph lies right below a body, at the name of a use there. -/
theorem Traced.exists_above {root : Scope} (traced : Traced program depth root [] unfolding)
    {path : List String} (member : path ∈ unfolding.nodes.toList.map (·.provenance.path) ++
      unfolding.scopes.tail.map (·.path)) :
    ∃ scope ∈ unfolding.scopes, ∃ use ∈ scope.body.uses, path = scope.path ++ [use.name] := by
  rcases List.mem_append.mp member with isNode | isBody
  · obtain ⟨node, listed, rfl⟩ := List.mem_map.mp isNode
    obtain ⟨scope, known, use, used, _, _, becomes⟩ :=
      traced.exists_becomes_of_mem_nodes (Array.mem_toList_iff.mp listed)
    exact ⟨scope, known, use, used, becomes.standsFor.2⟩
  · obtain ⟨inner, below, rfl⟩ := List.mem_map.mp isBody
    obtain ⟨outer, known, use, used, _, _, become⟩ := traced.inside_of_mem_tail below
    exact ⟨outer, known, use, used, (Scope.become_eq_body become).1⟩

theorem PlannedBy.paths_eq
    (planned : unfolding.PlannedBy program depth (ResolvedProgram.rootScope index binding) binding
      graph) :
    graph.paths = unfolding.nodes.toList.map (·.provenance.path) ++
      unfolding.scopes.tail.map (·.path) := by
  have nodes : graph.nodes = unfolding.nodes := congrArg GraphPlan.nodes planned.plan
  have instances : graph.instances = unfolding.scopes.tail.map Scope.toInstance :=
    (congrArg GraphPlan.instances planned.plan).trans unfolding.instances_eq
  rw [PortGraph.paths, nodes, instances, List.map_map]
  rfl

/-- A path holds names of uses only. -/
theorem Traced.mem_path {root : Scope} (rootPath : root.path = [])
    (traced : Traced program depth root [] unfolding) :
    ∀ scope ∈ unfolding.scopes, ∀ name ∈ scope.path,
      ∃ body ∈ program.definitions, ∃ use ∈ body.uses, use.name = name := by
  refine traced.scope_induction ?_ ?_
  · intro name member
    rw [rootPath] at member
    cases member
  · rintro outer known above inner - ⟨use, used, _, _, become⟩ name member
    rw [(Scope.become_eq_body become).1] at member
    rcases List.mem_append.mp member with earlier | last
    · exact above name earlier
    · exact ⟨outer.body, traced.bodies outer known, use, used, (List.mem_singleton.mp last).symm⟩

/-- A node is found by the text of its path, which is that of no other node. -/
theorem PlannedBy.nodeByPath (sound : program.Sound)
    (plain : ∀ body ∈ program.definitions, ∀ use ∈ body.uses, '/' ∉ use.name.toList)
    (planned : unfolding.PlannedBy program depth (ResolvedProgram.rootScope index binding) binding
      graph) {id : Nat} {node : Node} (found : graph.nodes[id]? = some node) :
    graph.nodeByPath? (pathText node.provenance.path) = some id := by
  have traced := planned.traced
  have nodes : graph.nodes = unfolding.nodes := congrArg GraphPlan.nodes planned.plan
  have letters : ∀ there ∈ graph.nodes, there.provenance.path ≠ [] ∧
      ∀ name ∈ there.provenance.path, '/' ∉ name.toList := by
    intro there member
    have path := List.mem_map_of_mem (f := (·.provenance.path)) (Array.mem_toList_iff.mpr member)
    rw [nodes] at path
    obtain ⟨scope, known, use, used, same⟩ :=
      traced.exists_above (List.mem_append_left _ path)
    refine ⟨by simp [same], fun name held => ?_⟩
    rw [same] at held
    rcases List.mem_append.mp held with earlier | last
    · obtain ⟨body, listed, step, steps, rfl⟩ := traced.mem_path rfl _ known name earlier
      exact plain body listed step steps
    · rw [List.mem_singleton.mp last]
      exact plain scope.body (traced.bodies _ known) use used
  obtain ⟨below, rfl⟩ := Array.getElem?_eq_some_iff.mp found
  refine Array.findIdx?_eq_some_iff_getElem.mpr ⟨below, beq_self_eq_true _, ?_⟩
  intro earlier lt same
  have inside := Nat.lt_trans lt below
  obtain ⟨some_, plain_⟩ := letters _ (Array.getElem_mem inside)
  obtain ⟨alsoSome, alsoPlain⟩ := letters _ (Array.getElem_mem below)
  have samePath := eq_of_intercalate rfl some_ alsoSome plain_ alsoPlain (beq_iff_eq.mp same)
  have here : unfolding.path? (.node earlier) = some graph.nodes[id].provenance.path := by
    rw [path?, ← nodes, Array.getElem?_eq_getElem inside, Option.map_some, samePath]
  have there : unfolding.path? (.node id) = some graph.nodes[id].provenance.path := by
    rw [path?, ← nodes, Array.getElem?_eq_getElem below, Option.map_some]
  cases traced.eq_of_path sound rfl here there
  exact Nat.lt_irrefl _ lt

theorem PlannedBy.pathsIdentify (sound : program.Sound)
    (plain : ∀ body ∈ program.definitions, ∀ use ∈ body.uses, '/' ∉ use.name.toList)
    (planned : unfolding.PlannedBy program depth (ResolvedProgram.rootScope index binding) binding
      graph) : graph.PathsIdentify program (program.definition index) := by
  have traced := planned.traced
  have nodes : graph.nodes = unfolding.nodes := congrArg GraphPlan.nodes planned.plan
  have instances : graph.instances = unfolding.scopes.tail.map Scope.toInstance :=
    (congrArg GraphPlan.instances planned.plan).trans unfolding.instances_eq
  constructor
  case distinct =>
    rw [planned.paths_eq]
    exact (traced.nodup_all sound rfl).sublist
      (List.Sublist.append_left ((List.tail_sublist _).map _) _)
  case enclosed =>
    intro path member before begins proper some_
    rw [planned.paths_eq] at member
    obtain ⟨scope, known, use, -, rfl⟩ := traced.exists_above member
    have earlier := properPrefix_concat_iff.mp ⟨proper, begins⟩
    obtain ⟨around, listed, rfl⟩ := traced.exists_prefix rfl scope known before earlier
    rw [traced.scopes_eq] at listed
    rcases List.mem_cons.mp listed with rfl | below
    · exact absurd rfl some_
    · rw [instances]
      exact ⟨around.toInstance, List.mem_map_of_mem below, rfl⟩
  case found => exact fun id node found => planned.nodeByPath sound plain found
  case nodes =>
    intro node member
    rw [nodes] at member
    obtain ⟨scope, known, use, used, _, _, becomes⟩ := traced.exists_becomes_of_mem_nodes member
    obtain ⟨stands, path⟩ := becomes.standsFor
    exact ⟨scope.toInstance, scope.body, use, path ▸ planned.leadsTo sound known used, stands⟩
  case instances =>
    intro unfolded member
    rw [instances] at member
    obtain ⟨scope, below, rfl⟩ := List.mem_map.mp member
    obtain ⟨outer, known, use, used, _, _, become⟩ := traced.inside_of_mem_tail below
    obtain ⟨stands, path⟩ := (Scope.becomes_of_become become).instance_standsFor
    have leads := planned.leadsTo sound known used
    rw [← path] at leads
    exact ⟨outer.toInstance, outer.body, use, leads, stands⟩

end Unfolding

/-! ## Programs that have been read -/

namespace ResolvedProgram

variable {source : List Char} {program : Program} {root : program.resolved.Index}
  {generators : Option (List Symbol)} {limits : UnfoldingLimits} {graph : PortGraph}

theorem isIdentName_of_read (reads : Program.read source = .ok program) :
    ∀ body ∈ program.resolved.definitions, ∀ use ∈ body.uses, IsIdentName use.name := by
  intro body listed use used
  obtain ⟨index, found⟩ := List.mem_iff_getElem?.mp listed
  rw [program.resolved_getElem?] at found
  obtain ⟨definition, there, rfl⟩ := Option.map_eq_some_iff.mp found
  obtain ⟨written, member, resolves⟩ := Program.use_of_bound used
  rw [(Use.resolve_keeps resolves).name]
  refine Program.allNamed_of_read reads written.name ?_
  simp only [Program.idents, Definition.idents, List.mem_flatMap, List.mem_cons, List.mem_append]
  exact ⟨definition, List.mem_of_getElem? there,
    .inr (.inr (.inr (.inl ⟨written, member, by simp [Use.idents]⟩)))⟩

/--
In every expansion of a program that has been read, what lies at a path is the only thing there, and
lies inside the instances at the beginnings of the path; it is found by the path, and the names
along the path lead from body to body to the use that has become it.
-/
theorem paths_identify (reads : Program.read source = .ok program)
    (expanded : program.resolved.expand root generators limits = .ok graph) :
    graph.PathsIdentify program.resolved (program.resolved.definition root) := by
  obtain ⟨binding, unfolding, -, shown⟩ := shown_of_expand program.resolved_sound expanded
  refine shown.toPlannedBy.pathsIdentify program.resolved_sound fun body listed use used => ?_
  exact (isIdentName_of_read reads body listed use used).not_mem (by decide)

/-- Two definitions in which the names of uses are the same. -/
def echoLines : List String := [
  "def main = [X | Y]",
  "  use echo [X | Y] as A",
  "  use echo [X | Y] as B",
  "  link X >-> A.X, A.Y >-> B.X, B.Y >-> Y",
  "def echo = [X | Y]",
  "  use +s [X | Y] as A",
  "  use echo [X | Y] as B",
  "  link X >-> A.X, A.Y >-> B.X, B.Y >-> Y"]

/-- Two names make up the paths of six nodes and four instances, all of which are told apart. -/
theorem paths_identify_echo :
    ∃ (root : (Program.ofLines echoLines).resolved.Index) (graph : PortGraph),
      (Program.ofLines echoLines).resolved.expand root none ⟨1, 12, false⟩ = .ok graph ∧
      graph.paths.map pathText = ["A/A", "A/B/A", "A/B/B", "B/A", "B/B/A", "B/B/B",
        "A", "B", "A/B", "B/B"] ∧
      graph.nodeByPath? "B/B/A" = some 4 ∧
      graph.PathsIdentify (Program.ofLines echoLines).resolved
        ((Program.ofLines echoLines).resolved.definition root) := by
  have expands : ((Program.ofLines echoLines).resolved.expand ⟨0, by decide +kernel⟩ none
      ⟨1, 12, false⟩).toOption.map (fun graph =>
        (graph.paths.map pathText, graph.nodes[4]?.map (·.provenance.path))) =
          some (["A/A", "A/B/A", "A/B/B", "B/A", "B/B/A", "B/B/B", "A", "B", "A/B", "B/B"],
            some ["B", "B", "A"]) := by
    decide +kernel
  obtain ⟨graph, found, facts⟩ := Option.map_eq_some_iff.mp expands
  obtain ⟨paths, fifth⟩ := Prod.mk.inj facts
  have expanded := eq_ok_of_toOption found
  have reads := Program.read_ofLines (by decide +kernel :
    (Program.read (sourceOfLines echoLines)).toOption.isSome = true)
  have identifies := paths_identify reads expanded
  obtain ⟨node, there, path⟩ := Option.map_eq_some_iff.mp fifth
  have named := identifies.found 4 node there
  rw [path] at named
  exact ⟨_, graph, expanded, paths, named, identifies⟩

end ResolvedProgram

end FlowDiagram

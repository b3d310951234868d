import FlowDiagram.Proofs.Expansion.Nested
import FlowDiagram.Proofs.Expansion.Unfolded
import FlowDiagram.Proofs.Unfolding.Following

/-!
# Flattening

The edges of an expanded graph are what the links of the nested diagram say: there is an edge from
a source to a target exactly when links lead from the one to the other, and it is there once.
-/

namespace FlowDiagram

/-- The ports of listed nodes, so many for each, are different endpoints. -/
theorem nodup_nodePorts {α : Type} (count : α → Nat) (items : List α) :
    (items.zipIdx.flatMap fun (item, id) =>
      (List.range (count item)).map (Endpoint.node id)).Nodup := by
  rw [List.nodup_flatMap]
  constructor
  · rintro ⟨item, id⟩ -
    exact List.nodup_range.map fun first second same => (Endpoint.mk.inj same).2
  · have distinct := @List.nodup_range' 0 items.length 1 Nat.one_pos
    rw [← List.zipIdx_map_snd 0 items, List.nodup_iff_pairwise_ne, List.pairwise_map] at distinct
    refine distinct.imp fun {first second} different => ?_
    rw [Function.onFun_apply, List.disjoint_left]
    intro endpoint inFirst inSecond
    obtain ⟨port, -, rfl⟩ := List.mem_map.mp inFirst
    obtain ⟨other, -, same⟩ := List.mem_map.mp inSecond
    exact different (Vertex.node.inj (Endpoint.mk.inj same).1).symm

namespace Unfolding

variable {program : ResolvedProgram} {depth : Nat} {root : Scope} {unfolding : Unfolding}

/-! ## Where edges start -/

/-- The sources of edges, each with the place at which its links start. -/
def starts (unfolding : Unfolding) (inputs : Nat) : List (Endpoint × Place) :=
  (List.range inputs).map (fun port => (.input port, ⟨0, .boundary port⟩)) ++
    (unfolding.sites.zip unfolding.nodes).toList.zipIdx.flatMap fun ((site, node), id) =>
      (List.range node.outputs.length).map fun port =>
        (.node id port, ⟨site.frame, .use site.use port⟩)

theorem edges_eq_flatMap (unfolding : Unfolding) (inputs : Nat) :
    unfolding.edges inputs = (unfolding.starts inputs).flatMap fun (source, place) =>
      unfolding.edgesFrom unfolding.linkCount source place := by
  simp only [edges, starts, inputEdges, nodeEdges, List.flatMap_append, List.flatMap_map,
    List.flatMap_assoc]

theorem mem_starts_iff {inputs : Nat} {source : Endpoint} {place : Place} :
    (source, place) ∈ unfolding.starts inputs ↔
      (∃ port, port < inputs ∧ source = .input port ∧ place = ⟨0, .boundary port⟩) ∨
      ∃ id node site port, unfolding.nodes[id]? = some node ∧ unfolding.sites[id]? = some site ∧
        port < node.outputs.length ∧ source = .node id port ∧
        place = ⟨site.frame, .use site.use port⟩ := by
  unfold starts
  rw [List.mem_append]
  apply or_congr
  · simp only [List.mem_map, List.mem_range, Prod.mk.injEq]
    exact exists_congr fun port => and_congr_right fun _ => and_congr eq_comm eq_comm
  · simp only [List.mem_flatMap, List.mem_map, List.mem_range, Prod.mk.injEq, Prod.exists,
      List.mem_zipIdx_iff_getElem?, Array.getElem?_toList, Array.getElem?_zip_eq_some]
    constructor
    · rintro ⟨site, node, id, ⟨hsite, hnode⟩, port, below, rfl, rfl⟩
      exact ⟨id, node, site, port, hnode, hsite, below, rfl, rfl⟩
    · rintro ⟨id, node, site, port, hnode, hsite, below, rfl, rfl⟩
      exact ⟨site, node, id, ⟨hsite, hnode⟩, port, below, rfl, rfl⟩

/-- No source occurs twice. -/
theorem nodup_starts (unfolding : Unfolding) (inputs : Nat) :
    ((unfolding.starts inputs).map (·.1)).Nodup := by
  unfold starts
  rw [List.map_append, List.nodup_append]
  refine ⟨?_, ?_, ?_⟩
  · rw [List.map_map]
    exact List.nodup_range.map fun first second same => (Endpoint.mk.inj same).2
  · simp only [List.map_flatMap, List.map_map]
    exact nodup_nodePorts (fun entry : UseSite × Node => entry.2.outputs.length) _
  · intro source isInput other isNode same
    simp only [List.map_map, List.mem_map, List.mem_range, List.map_flatMap,
      List.mem_flatMap] at isInput isNode
    obtain ⟨port, -, rfl⟩ := isInput
    obtain ⟨numbered, -, otherPort, -, rfl⟩ := isNode
    cases same

/-! ## The ports of places -/

/-- The port at which links from a place start. -/
def sourceOf? (unfolding : Unfolding) (place : Place) : Option Port :=
  unfolding.frames[place.frame]?.bind fun frame => frame.body.sourcePort? frame.path place.stop

/-- The port at which links to a place end. -/
def targetOf? (unfolding : Unfolding) (place : Place) : Option Port :=
  unfolding.frames[place.frame]?.bind fun frame => frame.body.targetPort? frame.path place.stop

theorem sourceOf?_boundary {number port : Nat} {found : Port} :
    unfolding.sourceOf? ⟨number, .boundary port⟩ = some found ↔
      ∃ frame, unfolding.frames[number]? = some frame ∧ found = ⟨frame.path, .input, port⟩ := by
  simp only [sourceOf?, ResolvedDefinition.sourcePort?, Option.bind_eq_some_iff,
    Option.some.injEq]
  exact exists_congr fun frame => and_congr_right fun _ => eq_comm

theorem targetOf?_boundary {number port : Nat} {found : Port} :
    unfolding.targetOf? ⟨number, .boundary port⟩ = some found ↔
      ∃ frame, unfolding.frames[number]? = some frame ∧ found = ⟨frame.path, .output, port⟩ := by
  simp only [targetOf?, ResolvedDefinition.targetPort?, Option.bind_eq_some_iff,
    Option.some.injEq]
  exact exists_congr fun frame => and_congr_right fun _ => eq_comm

theorem sourceOf?_use {number use port : Nat} {found : Port} :
    unfolding.sourceOf? ⟨number, .use use port⟩ = some found ↔
      ∃ frame used, unfolding.use? ⟨number, use⟩ = some (frame, used) ∧
        found = ⟨frame.path ++ [used.name], .output, port⟩ := by
  simp only [sourceOf?, ResolvedDefinition.sourcePort?, Option.bind_eq_some_iff,
    Option.map_eq_some_iff, use?_eq_some_iff]
  constructor
  · rintro ⟨frame, hframe, used, hused, rfl⟩
    exact ⟨frame, used, ⟨hframe, hused⟩, rfl⟩
  · rintro ⟨frame, used, ⟨hframe, hused⟩, rfl⟩
    exact ⟨frame, hframe, used, hused, rfl⟩

theorem targetOf?_use {number use port : Nat} {found : Port} :
    unfolding.targetOf? ⟨number, .use use port⟩ = some found ↔
      ∃ frame used, unfolding.use? ⟨number, use⟩ = some (frame, used) ∧
        found = ⟨frame.path ++ [used.name], .input, port⟩ := by
  simp only [targetOf?, ResolvedDefinition.targetPort?, Option.bind_eq_some_iff,
    Option.map_eq_some_iff, use?_eq_some_iff]
  constructor
  · rintro ⟨frame, hframe, used, hused, rfl⟩
    exact ⟨frame, used, ⟨hframe, hused⟩, rfl⟩
  · rintro ⟨frame, used, ⟨hframe, hused⟩, rfl⟩
    exact ⟨frame, hframe, used, hused, rfl⟩

/-- Different places are different ports to start from. -/
theorem Traced.source_injective (sound : program.Sound) (rootPath : root.path = [])
    (traced : Traced program depth root [] unfolding) {place other : Place} {port : Port}
    (found : unfolding.sourceOf? place = some port)
    (foundOther : unfolding.sourceOf? other = some port) : place = other := by
  obtain ⟨number, stop⟩ := place
  obtain ⟨otherNumber, otherStop⟩ := other
  cases stop with
  | boundary index =>
      obtain ⟨frame, hframe, rfl⟩ := sourceOf?_boundary.mp found
      cases otherStop with
      | boundary otherIndex =>
          obtain ⟨otherFrame, hother, same⟩ := sourceOf?_boundary.mp foundOther
          obtain ⟨paths, -, rfl⟩ := Port.mk.inj same
          rw [traced.path_injective sound rootPath hframe hother paths]
      | use otherUse otherIndex =>
          obtain ⟨_, _, -, same⟩ := sourceOf?_use.mp foundOther
          cases (Port.mk.inj same).2.1
  | use use index =>
      obtain ⟨frame, used, hused, rfl⟩ := sourceOf?_use.mp found
      cases otherStop with
      | boundary otherIndex =>
          obtain ⟨_, -, same⟩ := sourceOf?_boundary.mp foundOther
          cases (Port.mk.inj same).2.1
      | use otherUse otherIndex =>
          obtain ⟨_, _, hother, same⟩ := sourceOf?_use.mp foundOther
          obtain ⟨paths, -, rfl⟩ := Port.mk.inj same
          cases traced.site_injective sound rootPath hused hother paths
          rfl

/-- A frame below the root lies at the path of the use at its site and at no other. -/
theorem Traced.part_of_path (sound : program.Sound) (rootPath : root.path = [])
    (traced : Traced program depth root [] unfolding) {site : UseSite} {frame inner : Frame}
    {use : ResolvedUse} {number : Nat} (huse : unfolding.use? site = some (frame, use))
    (hinner : unfolding.frames[number]? = some inner)
    (path : inner.path = frame.path ++ [use.name]) :
    inner.site = some site ∧ unfolding.part? site = some (.frame number) := by
  rcases traced.frame_cases hinner with ⟨-, hroot, -⟩ | ⟨other, hsite, hpart⟩
  · have top : inner.path = [] := by
      rw [← rootPath, ← hroot]
      rfl
    rw [top] at path
    simp at path
  · obtain ⟨otherFrame, otherUse, hother, otherPath⟩ := traced.path_of_part hpart hinner
    rw [path] at otherPath
    obtain rfl := traced.site_injective sound rootPath huse hother otherPath
    exact ⟨hsite, hpart⟩

/-- Links meet where one place leads on to the other: they are one port, seen from two bodies. -/
theorem Traced.onward_iff (sound : program.Sound) (rootPath : root.path = [])
    (traced : Traced program depth root [] unfolding) {target source : Place} {port : Port}
    (found : unfolding.targetOf? target = some port) :
    unfolding.lead? target = some (.onward source) ↔ unfolding.sourceOf? source = some port := by
  obtain ⟨number, stop⟩ := target
  cases stop with
  | boundary index =>
      obtain ⟨frame, hframe, rfl⟩ := targetOf?_boundary.mp found
      constructor
      · intro leads
        rcases traced.lead_boundary leads with ⟨-, same⟩ | ⟨site, hpart, same⟩
        · cases same
        · cases same
          obtain ⟨outer, use, huse, path⟩ := traced.path_of_part hpart hframe
          exact sourceOf?_use.mpr ⟨outer, use, huse, by rw [path]⟩
      · intro starts
        obtain ⟨sourceNumber, sourceStop⟩ := source
        cases sourceStop with
        | boundary sourceIndex =>
            obtain ⟨_, -, same⟩ := sourceOf?_boundary.mp starts
            cases (Port.mk.inj same).2.1
        | use use sourceIndex =>
            obtain ⟨outer, used, hused, same⟩ := sourceOf?_use.mp starts
            obtain ⟨path, -, rfl⟩ := Port.mk.inj same
            obtain ⟨hsite, -⟩ := traced.part_of_path sound rootPath hused hframe path
            rw [lead?_boundary hframe, hsite]
  | use use index =>
      obtain ⟨frame, used, hused, rfl⟩ := targetOf?_use.mp found
      constructor
      · intro leads
        rcases lead_use leads with ⟨_, -, same⟩ | ⟨inner, hpart, same⟩
        · cases same
        · cases same
          obtain ⟨_, _, _, _, innerFrame, -, -, hinner, -⟩ := traced.frame_of_part hpart
          obtain ⟨outer, outerUse, huse, path⟩ := traced.path_of_part hpart hinner
          cases hused.symm.trans huse
          exact sourceOf?_boundary.mpr ⟨innerFrame, hinner, by rw [path]⟩
      · intro starts
        obtain ⟨sourceNumber, sourceStop⟩ := source
        cases sourceStop with
        | boundary sourceIndex =>
            obtain ⟨inner, hinner, same⟩ := sourceOf?_boundary.mp starts
            obtain ⟨path, -, rfl⟩ := Port.mk.inj same
            obtain ⟨-, hpart⟩ := traced.part_of_path sound rootPath hused hinner path.symm
            rw [lead?_use, hpart, Option.map_some]
        | use sourceUse sourceIndex =>
            obtain ⟨_, _, -, same⟩ := sourceOf?_use.mp starts
            cases (Port.mk.inj same).2.1

/-! ## Bodies by path -/

/-- The body of a frame is the one that its path leads to. -/
theorem Traced.bodyAt (sound : program.Sound) (rootPath : root.path = [])
    (traced : Traced program depth root [] unfolding) {number : Nat} {frame : Frame}
    (found : unfolding.frames[number]? = some frame) :
    program.bodyAt? root.body frame.path = some frame.body := by
  -- on the length of the path, from the root down
  induction hlength : frame.path.length using Nat.strongRecOn generalizing number frame with
  | ind length ih =>
      rcases traced.frame_cases found with ⟨-, hroot, -⟩ | ⟨site, -, hpart⟩
      · have top : frame.path = [] := by
          rw [← rootPath, ← hroot]
          rfl
        rw [top, ← hroot]
        rfl
      · obtain ⟨outer, use, before, after, inner, huse, become, hinner, -⟩ :=
          traced.frame_of_part hpart
        cases found.symm.trans hinner
        obtain ⟨path, index, arguments, fresh, target, known⟩ := Scope.become_eq_body become
        change frame.path = outer.path ++ [use.name] at path
        obtain ⟨houter, hused⟩ := use?_eq_some_iff.mp huse
        have outerBody := ih outer.path.length
          (by rw [← hlength, path, List.length_append]; exact Nat.lt_succ_self _) houter rfl
        have named := ResolvedDefinition.find?_name
          (traced.body_sound sound houter).names_distinct (List.mem_of_getElem? hused)
        rw [path]
        exact ResolvedProgram.bodyAt?_concat outerBody named target known

/-! ## The nested diagram of a graph -/

variable {graph : PortGraph} {binding : List Symbol}

/-- The expanded bodies are those of the frames. -/
theorem PlannedBy.expands_iff (rootPath : root.path = [])
    (planned : unfolding.PlannedBy program depth root binding graph) {path : List String} :
    graph.Expands path ↔
      ∃ (number : Nat) (frame : Frame), unfolding.frames[number]? = some frame ∧
        frame.path = path := by
  have instances : graph.instances = unfolding.scopes.tail.map Scope.toInstance :=
    (congrArg GraphPlan.instances planned.plan).trans unfolding.instances_eq
  have top : unfolding.scopes.head? = some root := by
    obtain ⟨frame, hframe, hroot, -⟩ := planned.traced.root_frame
    rw [← hroot, List.head?_eq_getElem?]
    simp [scopes, List.getElem?_map, hframe]
  have paths : graph.Expands path ↔ ∃ scope ∈ unfolding.scopes, scope.path = path := by
    obtain ⟨rest, split⟩ : ∃ rest, unfolding.scopes = root :: rest :=
      ⟨_, List.eq_cons_of_mem_head? top⟩
    unfold PortGraph.Expands
    rw [instances, split]
    simp [rootPath, Scope.toInstance, eq_comm]
  rw [paths]
  simp only [scopes, List.mem_map, Array.mem_toList_iff, Array.mem_iff_getElem?]
  constructor
  · rintro ⟨_, ⟨frame, ⟨number, found⟩, rfl⟩, same⟩
    exact ⟨number, frame, found, same⟩
  · rintro ⟨number, frame, found, same⟩
    exact ⟨_, ⟨frame, ⟨number, found⟩, rfl⟩, same⟩

/-- The links of the nested diagram are those of the frames. -/
theorem PlannedBy.wired_iff (sound : program.Sound) (rootPath : root.path = [])
    (planned : unfolding.PlannedBy program depth root binding graph) {source target : Port} :
    PortGraph.Wired program root.body graph source target ↔
      ∃ start stop, stop ∈ unfolding.linksFrom start ∧
        unfolding.sourceOf? start = some source ∧ unfolding.targetOf? stop = some target := by
  constructor
  · rintro ⟨expands, found, member, starts, ends⟩
    obtain ⟨number, frame, hframe, rfl⟩ := (planned.expands_iff rootPath).mp expands
    rw [planned.traced.bodyAt sound rootPath hframe] at found
    cases found
    refine ⟨⟨number, _⟩, ⟨number, _⟩, mem_linksFrom_iff.mpr ⟨frame, _, hframe, member, rfl, rfl⟩,
      ?_, ?_⟩
    · simpa [sourceOf?, hframe] using starts
    · simpa [targetOf?, hframe] using ends
  · rintro ⟨start, stop, linked, starts, ends⟩
    obtain ⟨frame, link, hframe, member, hsource, rfl⟩ := mem_linksFrom_iff.mp linked
    refine .link ((planned.expands_iff rootPath).mpr ⟨_, frame, hframe, rfl⟩)
      (planned.traced.bodyAt sound rootPath hframe) member ?_ ?_
    · simpa [sourceOf?, hframe, hsource] using starts
    · simpa [targetOf?, hframe] using ends

/-- Where links start, there is a port. -/
theorem PlannedBy.port_of_start (rootPath : root.path = [])
    (planned : unfolding.PlannedBy program depth root binding graph) {source : Endpoint}
    {place : Place} (starts : (source, place) ∈ unfolding.starts root.body.inputs.length) :
    ∃ port, graph.sourcePort? source = some port ∧ unfolding.sourceOf? place = some port := by
  have nodes : graph.nodes = unfolding.nodes := congrArg GraphPlan.nodes planned.plan
  have inputs : graph.inputs = root.body.inputs := congrArg GraphPlan.inputs planned.plan
  rcases mem_starts_iff.mp starts with ⟨port, below, rfl, rfl⟩ |
    ⟨id, node, site, port, hnode, hsite, below, rfl, rfl⟩
  · obtain ⟨top, htop, rfl, -⟩ := planned.traced.root_frame
    refine ⟨⟨[], .input, port⟩, ?_, sourceOf?_boundary.mpr ⟨top, htop, ?_⟩⟩
    · simp [PortGraph.sourcePort?, Endpoint.input, inputs, below]
    · rw [← rootPath]
      rfl
  · obtain ⟨frame, use, before, after, found, huse, become, hfound, -⟩ :=
      planned.traced.node_of_part (planned.traced.part_of_node hsite)
    cases hnode.symm.trans hfound
    obtain ⟨-, -, path⟩ := Scope.become_eq_node become
    refine ⟨⟨node.provenance.path, .output, port⟩, ?_,
      sourceOf?_use.mpr ⟨frame, use, huse, by rw [path]; rfl⟩⟩
    simp [PortGraph.sourcePort?, Endpoint.node, nodes, hnode, below]

/-- Every source of the graph is where links start. -/
theorem PlannedBy.start_of_port (rootPath : root.path = [])
    (planned : unfolding.PlannedBy program depth root binding graph) {source : Endpoint}
    {port : Port} (found : graph.sourcePort? source = some port) :
    ∃ place, (source, place) ∈ unfolding.starts root.body.inputs.length ∧
      unfolding.sourceOf? place = some port := by
  have nodes : graph.nodes = unfolding.nodes := congrArg GraphPlan.nodes planned.plan
  have inputs : graph.inputs = root.body.inputs := congrArg GraphPlan.inputs planned.plan
  have started : ∃ place, (source, place) ∈ unfolding.starts root.body.inputs.length := by
    obtain ⟨vertex, number⟩ := source
    cases vertex with
    | inputs =>
        simp only [PortGraph.sourcePort?, inputs, Option.ite_none_right_eq_some] at found
        exact ⟨_, mem_starts_iff.mpr (.inl ⟨number, found.1, rfl, rfl⟩)⟩
    | outputs => cases found
    | node id =>
        simp only [PortGraph.sourcePort?, nodes, Option.bind_eq_some_iff,
          Option.ite_none_right_eq_some] at found
        obtain ⟨node, hnode, below, -⟩ := found
        obtain ⟨site, hsite⟩ := planned.traced.site_of_node hnode
        exact ⟨_, mem_starts_iff.mpr (.inr ⟨id, node, _, number, hnode, hsite, below, rfl, rfl⟩)⟩
  obtain ⟨place, member⟩ := started
  obtain ⟨same, hsame, hplace⟩ := planned.port_of_start rootPath member
  rw [found] at hsame
  exact ⟨place, member, hsame ▸ hplace⟩

/-- Links do not lead on to where edges start. -/
theorem Traced.starts (traced : Traced program depth root [] unfolding) {inputs : Nat}
    {source : Endpoint} {start : Place} (member : (source, start) ∈ unfolding.starts inputs) :
    unfolding.Starts start := by
  intro place leads
  obtain ⟨number, stop⟩ := place
  cases stop with
  | boundary port =>
      rcases traced.lead_boundary leads with ⟨-, same⟩ | ⟨site, hpart, same⟩
      · cases same
      · rcases mem_starts_iff.mp member with ⟨_, -, -, here⟩ |
          ⟨id, _, nodeSite, _, -, hsite, -, -, here⟩
        · rw [here] at same
          simp at same
        · rw [here] at same
          simp only [Lead.onward.injEq, Place.mk.injEq, LinkEnd.use.injEq] at same
          obtain ⟨sameFrame, sameUse, -⟩ := same
          obtain rfl : nodeSite = site := by
            cases nodeSite
            cases site
            simp_all
          cases (traced.part_of_node hsite).symm.trans hpart
  | use use port =>
      rcases lead_use leads with ⟨_, -, same⟩ | ⟨inner, hpart, same⟩
      · cases same
      · rcases mem_starts_iff.mp member with ⟨_, -, -, rfl⟩ | ⟨_, _, _, _, -, -, -, -, rfl⟩
        · cases same
          obtain ⟨top, htop, -, none⟩ := traced.root_frame
          obtain ⟨_, _, _, _, _, -, -, hinner, some_⟩ := traced.frame_of_part hpart
          cases htop.symm.trans hinner
          cases none.symm.trans some_
        · cases same

/-- A place that is the port of a target leads to it. -/
theorem PlannedBy.lead_of_port (sound : program.Sound) (rootPath : root.path = [])
    (planned : unfolding.PlannedBy program depth root binding graph) {target : Endpoint}
    {place : Place} {port : Port} (found : graph.targetPort? target = some port)
    (placed : unfolding.targetOf? place = some port) :
    unfolding.lead? place = some (.target target) := by
  have nodes : graph.nodes = unfolding.nodes := congrArg GraphPlan.nodes planned.plan
  have traced := planned.traced
  obtain ⟨vertex, index⟩ := target
  obtain ⟨number, stop⟩ := place
  cases vertex with
  | inputs => cases found
  | outputs =>
      simp only [PortGraph.targetPort?, Option.ite_none_right_eq_some, Option.some.injEq] at found
      obtain ⟨-, rfl⟩ := found
      cases stop with
      | boundary port =>
          obtain ⟨frame, hframe, same⟩ := targetOf?_boundary.mp placed
          obtain ⟨path, -, rfl⟩ := Port.mk.inj same
          rcases traced.frame_cases hframe with ⟨-, -, hsite⟩ | ⟨site, -, hpart⟩
          · rw [lead?_boundary hframe, hsite]
            rfl
          · obtain ⟨_, _, -, below⟩ := traced.path_of_part hpart hframe
            rw [← path] at below
            simp at below
      | use use port =>
          obtain ⟨_, _, -, same⟩ := targetOf?_use.mp placed
          cases (Port.mk.inj same).2.1
  | node id =>
      simp only [PortGraph.targetPort?, nodes, Option.bind_eq_some_iff,
        Option.ite_none_right_eq_some, Option.some.injEq] at found
      obtain ⟨node, hnode, -, rfl⟩ := found
      cases stop with
      | boundary port =>
          obtain ⟨_, -, same⟩ := targetOf?_boundary.mp placed
          cases (Port.mk.inj same).2.1
      | use use port =>
          obtain ⟨frame, used, hused, same⟩ := targetOf?_use.mp placed
          obtain ⟨path, -, rfl⟩ := Port.mk.inj same
          obtain ⟨site, hsite⟩ := traced.site_of_node hnode
          have hpart := traced.part_of_node hsite
          obtain ⟨outer, outerUse, before, after, nodeFound, huse, become, hfound, -⟩ :=
            traced.node_of_part hpart
          cases hnode.symm.trans hfound
          obtain ⟨-, -, nodePath⟩ := Scope.become_eq_node become
          have sameSite := traced.site_injective sound rootPath huse hused
            (nodePath.symm.trans path)
          rw [sameSite] at hpart
          rw [lead?_use, hpart, Option.map_some]
          rfl

/-- A target that the end of a link leads to is there, and is the port of that end. -/
theorem PlannedBy.port_of_lead (sound : program.Sound) (rootPath : root.path = [])
    (planned : unfolding.PlannedBy program depth root binding graph) {target : Endpoint}
    {start place : Place} (linked : place ∈ unfolding.linksFrom start)
    (leads : unfolding.lead? place = some (.target target)) :
    ∃ port, graph.targetPort? target = some port ∧ unfolding.targetOf? place = some port := by
  have nodes : graph.nodes = unfolding.nodes := congrArg GraphPlan.nodes planned.plan
  have outputs : graph.outputs = root.body.outputs := congrArg GraphPlan.outputs planned.plan
  have traced := planned.traced
  obtain ⟨frame, link, hframe, member, -, rfl⟩ := mem_linksFrom_iff.mp linked
  have exists_ := (traced.body_sound sound hframe).targets_exist link member
  cases hstop : link.target with
  | boundary port =>
      rw [hstop] at leads exists_
      rcases traced.lead_boundary leads with ⟨zero, same⟩ | ⟨_, -, same⟩
      · cases same
        obtain ⟨top, htop, hroot, -⟩ := traced.root_frame
        cases htop.symm.trans (zero ▸ hframe)
        have within : port < root.body.outputs.length := hroot ▸ exists_
        refine ⟨⟨[], .output, port⟩, ?_,
          targetOf?_boundary.mpr ⟨frame, hframe, by rw [← rootPath, ← hroot]; rfl⟩⟩
        simp [PortGraph.targetPort?, Endpoint.output, outputs, within]
      · cases same
  | use use port =>
      rw [hstop] at leads exists_
      rcases lead_use leads with ⟨id, hpart, same⟩ | ⟨_, -, same⟩
      · cases same
        obtain ⟨outer, used, before, after, node, huse, become, hnode, -⟩ :=
          traced.node_of_part hpart
        obtain ⟨houter, hused⟩ := use?_eq_some_iff.mp huse
        obtain ⟨inputs, -, path⟩ := Scope.become_eq_node become
        obtain ⟨other, hother, below⟩ := exists_
        cases hframe.symm.trans houter
        cases hused.symm.trans hother
        refine ⟨⟨node.provenance.path, .input, port⟩, ?_,
          targetOf?_use.mpr ⟨frame, used, huse, by rw [path]; rfl⟩⟩
        simp [PortGraph.targetPort?, Endpoint.node, nodes, hnode, inputs, below]
      · cases same

/-! ## Following links and being linked -/

theorem Traced.target_of_linked (sound : program.Sound)
    (traced : Traced program depth root [] unfolding) {start place : Place}
    (linked : place ∈ unfolding.linksFrom start) :
    ∃ target, unfolding.targetOf? place = some target := by
  obtain ⟨frame, link, hframe, member, -, rfl⟩ := mem_linksFrom_iff.mp linked
  have exists_ := (traced.body_sound sound hframe).targets_exist link member
  cases hstop : link.target with
  | boundary port => exact ⟨_, targetOf?_boundary.mpr ⟨frame, hframe, rfl⟩⟩
  | use use port =>
      rw [hstop] at exists_
      obtain ⟨used, hused, -⟩ := exists_
      exact ⟨_, targetOf?_use.mpr ⟨frame, used, use?_eq_some_iff.mpr ⟨hframe, hused⟩, rfl⟩⟩

/-- What following links comes to is linked. -/
theorem PlannedBy.linked_of_reaches (sound : program.Sound) (rootPath : root.path = [])
    (planned : unfolding.PlannedBy program depth root binding graph) {start place : Place}
    {source : Port} (starts : unfolding.sourceOf? start = some source)
    (reached : unfolding.Reaches start place) :
    ∃ target, unfolding.targetOf? place = some target ∧
      PortGraph.Linked program root.body graph source target := by
  induction reached with
  | linked hlink =>
      obtain ⟨target, htarget⟩ := planned.traced.target_of_linked sound hlink
      have wired := (planned.wired_iff sound rootPath).mpr ⟨_, _, hlink, starts, htarget⟩
      exact ⟨target, htarget, .single wired⟩
  | next reached follows ih =>
      obtain ⟨port, hport, linked⟩ := ih
      obtain ⟨other, leads, hlink⟩ := mem_nexts_iff.mp follows
      have hother := (planned.traced.onward_iff sound rootPath hport).mp leads
      obtain ⟨target, htarget⟩ := planned.traced.target_of_linked sound hlink
      have wired := (planned.wired_iff sound rootPath).mpr ⟨_, _, hlink, hother, htarget⟩
      exact ⟨target, htarget, .tail linked wired⟩

/-- What is linked is come to by following links. -/
theorem PlannedBy.reaches_of_linked (sound : program.Sound) (rootPath : root.path = [])
    (planned : unfolding.PlannedBy program depth root binding graph) {start : Place}
    {source target : Port} (starts : unfolding.sourceOf? start = some source)
    (linked : PortGraph.Linked program root.body graph source target) :
    ∃ place, unfolding.Reaches start place ∧ unfolding.targetOf? place = some target := by
  induction linked with
  | single wired =>
      obtain ⟨other, place, hlink, hother, hplace⟩ := (planned.wired_iff sound rootPath).mp wired
      obtain rfl := planned.traced.source_injective sound rootPath starts hother
      exact ⟨place, .linked hlink, hplace⟩
  | tail linked wired ih =>
      obtain ⟨before, reached, hbefore⟩ := ih
      obtain ⟨other, place, hlink, hother, hplace⟩ := (planned.wired_iff sound rootPath).mp wired
      have leads := (planned.traced.onward_iff sound rootPath hbefore).mpr hother
      exact ⟨place, .next reached (mem_nexts_iff.mpr ⟨other, leads, hlink⟩), hplace⟩

theorem Reaches.linked_last {start place : Place} (reached : unfolding.Reaches start place) :
    ∃ before, place ∈ unfolding.linksFrom before := by
  cases reached with
  | linked linked => exact ⟨start, linked⟩
  | next reached follows =>
      obtain ⟨source, -, linked⟩ := mem_nexts_iff.mp follows
      exact ⟨source, linked⟩

/-! ## Edges -/

/-- The targets found from where links start. -/
theorem Traced.follow_start (sound : program.Sound)
    (traced : Traced program depth root [] unfolding) {inputs : Nat} {source : Endpoint}
    {start : Place} (member : (source, start) ∈ unfolding.starts inputs) :
    (unfolding.follow unfolding.linkCount (unfolding.linksFrom start) []).Nodup ∧
      ∀ endpoint,
        endpoint ∈ unfolding.follow unfolding.linkCount (unfolding.linksFrom start) [] ↔
          ∃ place, unfolding.Reaches start place ∧
            unfolding.lead? place = some (.target endpoint) := by
  obtain ⟨once, found⟩ := (Searching.start sound traced start).follow sound traced
    (traced.starts member) (Nat.le_add_right _ _)
  exact ⟨once, fun endpoint => by simpa using found endpoint⟩

theorem mem_edges_iff_follow {inputs : Nat} {edge : Edge} :
    edge ∈ unfolding.edges inputs ↔
      ∃ start, (edge.source, start) ∈ unfolding.starts inputs ∧
        edge.target ∈ unfolding.follow unfolding.linkCount (unfolding.linksFrom start) [] := by
  rw [edges_eq_flatMap]
  simp only [List.mem_flatMap, edgesFrom, List.mem_map, Prod.exists]
  constructor
  · rintro ⟨source, start, member, target, found, rfl⟩
    exact ⟨start, member, found⟩
  · rintro ⟨start, member, found⟩
    exact ⟨edge.source, start, member, edge.target, found, rfl⟩

/-- Every edge runs from an existing source to an existing target. -/
theorem PlannedBy.edges_fit (sound : program.Sound) (rootPath : root.path = [])
    (planned : unfolding.PlannedBy program depth root binding graph) :
    ∀ edge ∈ unfolding.edges root.body.inputs.length, graph.Fits edge := by
  intro edge member
  obtain ⟨start, hstart, found⟩ := mem_edges_iff_follow.mp member
  obtain ⟨place, reached, leads⟩ := ((planned.traced.follow_start sound hstart).2 _).mp found
  obtain ⟨before, last⟩ := reached.linked_last
  obtain ⟨source, hsource, -⟩ := planned.port_of_start rootPath hstart
  obtain ⟨target, htarget, -⟩ := planned.port_of_lead sound rootPath last leads
  exact ⟨PortGraph.hasSource_of_port hsource, PortGraph.hasTarget_of_port htarget⟩

theorem ShownBy.nodup_edges (sound : program.Sound)
    (shown : unfolding.ShownBy program depth root binding graph) :
    graph.edges.toList.Nodup := by
  rw [shown.edges, edges_eq_flatMap, List.nodup_flatMap]
  constructor
  · rintro ⟨source, start⟩ member
    exact (shown.traced.follow_start sound member).1.map fun first second same =>
      (Edge.mk.inj same).2
  · have distinct := nodup_starts unfolding root.body.inputs.length
    rw [List.nodup_iff_pairwise_ne, List.pairwise_map] at distinct
    refine distinct.imp ?_
    intro first second different
    rw [Function.onFun_apply, List.disjoint_left]
    simp only [edgesFrom, List.mem_map, not_exists, not_and]
    rintro _ ⟨target, -, rfl⟩ other - same
    exact different (Edge.mk.inj same).1.symm

/-- Edges run exactly where links lead. -/
theorem ShownBy.mem_edges_iff (sound : program.Sound) (rootPath : root.path = [])
    (shown : unfolding.ShownBy program depth root binding graph) {edge : Edge} :
    edge ∈ graph.edges ↔
      ∃ source target, graph.sourcePort? edge.source = some source ∧
        graph.targetPort? edge.target = some target ∧
        PortGraph.Linked program root.body graph source target := by
  rw [← Array.mem_toList_iff, shown.edges, mem_edges_iff_follow]
  constructor
  · rintro ⟨start, member, found⟩
    obtain ⟨place, reached, leads⟩ := ((shown.traced.follow_start sound member).2 _).mp found
    obtain ⟨source, hsource, starts⟩ := shown.port_of_start rootPath member
    obtain ⟨target, htarget, linked⟩ := shown.linked_of_reaches sound rootPath starts reached
    obtain ⟨before, last⟩ := reached.linked_last
    obtain ⟨port, hport, placed⟩ := shown.port_of_lead sound rootPath last leads
    rw [htarget] at placed
    cases placed
    exact ⟨source, target, hsource, hport, linked⟩
  · rintro ⟨source, target, hsource, htarget, linked⟩
    obtain ⟨start, member, starts⟩ := shown.start_of_port rootPath hsource
    obtain ⟨place, reached, placed⟩ := shown.reaches_of_linked sound rootPath starts linked
    have leads := shown.lead_of_port sound rootPath htarget placed
    exact ⟨start, member, ((shown.traced.follow_start sound member).2 _).mpr
      ⟨place, reached, leads⟩⟩

end Unfolding

/--
Flattening loses, invents and repeats no connection: links lead from a source to a target exactly
when there is an edge from the one to the other, and it is there once.
-/
theorem ResolvedProgram.edges_of_expand {program : Program} {root : program.resolved.Index}
    {generators : Option (List Symbol)} {limits : UnfoldingLimits} {graph : PortGraph}
    (expanded : program.resolved.expand root generators limits = .ok graph) :
    graph.edges.toList.Nodup ∧
      ∀ edge, edge ∈ graph.edges ↔
        ∃ source target, graph.sourcePort? edge.source = some source ∧
          graph.targetPort? edge.target = some target ∧
          graph.Linked program.resolved (program.resolved.definition root) source target := by
  have sound := program.resolved_sound
  obtain ⟨binding, unfolding, -, shown⟩ := ResolvedProgram.shown_of_expand sound expanded
  exact ⟨shown.nodup_edges sound, fun edge => shown.mem_edges_iff sound rfl⟩

/-- Instances that only pass on what they get: one in a row, and two wired in a loop. -/
def junctions : Program :=
  .ofLines [
    "def pass = [X | Y] link X >-> Y",
    "def main = [X | Y]",
    "  use pass [X | Y] as I",
    "  use pass [X | Y] as J",
    "  use pass [X | Y] as K",
    "  use +a [X | Y] as A",
    "  link X >-> K.X, K.Y >-> A.X, A.Y >-> Y",
    "       I.Y >-> J.X, J.Y >-> I.X"]

/-- The loop has no edges; the row has two. -/
theorem ResolvedProgram.edges_of_expand_junctions :
    ∃ (root : junctions.resolved.Index) (graph : PortGraph),
      junctions.resolved.expand root none ⟨0, 8, false⟩ = .ok graph ∧
      graph.edges.toList = [⟨.input 0, .node 0 0⟩, ⟨.node 0 0, .output 0⟩] ∧
      graph.edges.toList.Nodup ∧
        ∀ edge, edge ∈ graph.edges ↔
          ∃ source target, graph.sourcePort? edge.source = some source ∧
            graph.targetPort? edge.target = some target ∧
            graph.Linked junctions.resolved (junctions.resolved.definition root) source target := by
  have edges : (junctions.resolved.expand ⟨1, by decide +kernel⟩ none ⟨0, 8, false⟩).toOption.map
      (·.edges.toList) = some [⟨.input 0, .node 0 0⟩, ⟨.node 0 0, .output 0⟩] := by
    decide +kernel
  obtain ⟨graph, found, same⟩ := Option.map_eq_some_iff.mp edges
  have expanded := eq_ok_of_toOption found
  exact ⟨_, graph, expanded, same, ResolvedProgram.edges_of_expand expanded⟩

end FlowDiagram

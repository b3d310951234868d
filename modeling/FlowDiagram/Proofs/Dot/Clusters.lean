import FlowDiagram.Proofs.Dot.RoundTrip
import FlowDiagram.Proofs.Expansion.Naming

/-!
# The names of boxes

The name of a box spells the steps of its path with an underscore between them.  Boxes in one block
have names of their own, but an underscore in a step may be taken for one between two steps: boxes
in different blocks share a name whenever their paths spell the same text.
-/

namespace FlowDiagram

namespace Dot

/-! ## Names in a drawing -/

/-- The blocks with a name, each with the numbers of the blocks around it. -/
def Drawing.clusters (drawing : Drawing) : List (List Nat × String) :=
  drawing.blocks.filterMap fun block => block.name.map fun name => (block.scope, name)

def Drawing.clusterNames (drawing : Drawing) : List String :=
  drawing.clusters.map (·.2)

/-- The paths that the blocks around a box stand for, and its name. -/
def boxCluster (path : List String) : List (List String) × String :=
  (enclosing path.dropLast, blockName path)

theorem clusters_bodyEntries (graph : PortGraph) :
    (bodyEntries graph).filterMap (fun entry => entry.name.map fun name => (entry.scope, name)) =
      (boxPaths graph).map boxCluster := by
  have ranks : ∀ ids : List String, (rankEntries ids).filterMap
      (fun entry => entry.name.map fun name => (entry.scope, name)) = [] := by
    intro ids
    refine List.filterMap_eq_nil_iff.mpr fun entry member => ?_
    rw [eq_of_mem_rankEntries member]
    rfl
  rw [bodyEntries, List.filterMap_append, List.filterMap_append, ranks, ranks, List.nil_append,
    List.nil_append, boxPaths, List.map_map, ← List.filterMap_eq_map]
  refine List.filterMap_congr fun entry member => ?_
  obtain ⟨-, scope, name⟩ := nodeEntries_shape entry member
  simp only [name, scope, Option.map_some, Function.comp_apply, boxCluster]

/-- A drawing has a named block for each box, in the blocks around the box. -/
theorem exists_clusters_dot (graph : PortGraph) (signature : Option Signature) :
    ∃ drawing, Drawing.read (graph.dot signature) = some drawing ∧
      drawing.clusters.map (Prod.map (List.map (blockPath graph)) id) =
        (boxPaths graph).map boxCluster := by
  obtain ⟨drawing, reads, -, blocks, -⟩ := exists_read_dot graph signature
  refine ⟨drawing, reads, ?_⟩
  have told := congrArg
    (List.filterMap fun block => block.2.map fun name => (block.1, name)) blocks
  rw [List.filterMap_map, List.filterMap_map] at told
  rw [← clusters_bodyEntries, Drawing.clusters, List.map_filterMap]
  simpa [Function.comp_def] using told

theorem clusterNames_eq {graph : PortGraph} {drawing : Drawing}
    (clusters : drawing.clusters.map (Prod.map (List.map (blockPath graph)) id) =
      (boxPaths graph).map boxCluster) :
    drawing.clusterNames = (boxPaths graph).map blockName := by
  have names := congrArg (List.map (·.2)) clusters
  simpa [Drawing.clusterNames, Function.comp_def, boxCluster] using names

/-! ## What a name spells -/

theorem isAlphanum_of_isIdentPart {c : Char} (part : isIdentPart c) :
    c.isAlphanum || c == '_' := by
  have digit : '0' ≤ c → c ≤ '9' → c.isDigit := fun above below => by
    simpa [Char.isDigit, Char.le_def] using And.intro above below
  simp only [isIdentPart, isIdentStart, isDigit, Bool.or_eq_true, Bool.and_eq_true,
    decide_eq_true_eq] at part
  simp only [Char.isAlphanum, isAlpha_iff, isUpper_iff, isLower_iff, Bool.or_eq_true]
  rcases part with ((lower | upper) | underscore) | ⟨above, below⟩
  · exact .inl (.inl (.inr lower))
  · exact .inl (.inl (.inl upper))
  · exact .inr underscore
  · exact .inl (.inr (digit above below))

theorem isAlphanum_of_mem_intercalate {path : List String}
    (named : ∀ name ∈ path, IsIdentName name) :
    ∀ c ∈ ("_".intercalate path).toList, c.isAlphanum || c == '_' := by
  have letters : ∀ name, IsIdentName name → ∀ c ∈ name.toList, c.isAlphanum || c == '_' := by
    intro name named c member
    refine isAlphanum_of_isIdentPart ?_
    by_contra other
    exact named.not_mem (Bool.eq_false_iff.mpr other) member
  induction path with
  | nil => simp
  | cons name rest ih =>
      obtain ⟨here, later⟩ := List.forall_mem_cons.mp named
      by_cases last : rest = []
      · subst last
        simpa using letters name here
      · intro c member
        rw [String.intercalate_cons_of_ne_nil last, String.toList_append,
          String.toList_append] at member
        rcases List.mem_append.mp member with front | inRest
        · rcases List.mem_append.mp front with inName | between
          · exact letters name here c inName
          · obtain rfl : c = '_' := List.mem_singleton.mp between
            rfl
        · exact ih later c inRest

/-- Identifiers are spelled in the name of a box as they are. -/
theorem blockName_of_named {path : List String} (named : ∀ name ∈ path, IsIdentName name) :
    blockName path = "cluster_" ++ "_".intercalate path := by
  have kept : sanitize ("_".intercalate path) = "_".intercalate path := by
    rw [sanitize, ← String.toList_inj, String.toList_map]
    exact (List.map_congr_left fun c member =>
      if_pos (isAlphanum_of_mem_intercalate named c member)).trans (List.map_id' _)
  rw [blockName, kept]

theorem blockName_eq_iff {first second : List String} (named : ∀ name ∈ first, IsIdentName name)
    (alsoNamed : ∀ name ∈ second, IsIdentName name) :
    blockName first = blockName second ↔ "_".intercalate first = "_".intercalate second := by
  rw [blockName_of_named named, blockName_of_named alsoNamed, String.append_right_inj]

/-- Texts with the same steps but for the last are as different as the last steps. -/
theorem eq_of_intercalate_concat {separator first second : String} {path : List String}
    (same : separator.intercalate (path ++ [first]) = separator.intercalate (path ++ [second])) :
    first = second := by
  by_cases some_ : path = []
  · subst some_
    simpa using same
  · rw [String.intercalate_append_of_ne_nil some_ (by simp),
      String.intercalate_append_of_ne_nil some_ (by simp), String.append_right_inj] at same
    simpa using same

/-- Boxes in the same block have different names. -/
theorem boxCluster_injective {first second : List String} (box : first ≠ []) (alsoBox : second ≠ [])
    (named : ∀ name ∈ first, IsIdentName name) (alsoNamed : ∀ name ∈ second, IsIdentName name)
    (same : boxCluster first = boxCluster second) : first = second := by
  obtain ⟨around, names⟩ := Prod.mk.inj same
  have spelled := (blockName_eq_iff named alsoNamed).mp names
  have before := enclosing_injective around
  rw [← List.dropLast_append_getLast box, ← List.dropLast_append_getLast alsoBox, before] at spelled
  rw [← List.dropLast_append_getLast box, ← List.dropLast_append_getLast alsoBox, before,
    eq_of_intercalate_concat spelled]

/-! ## Boxes of an expansion -/

theorem encloses_of_paths {graph : PortGraph} {paths : List (List String)} {path : List String}
    (known : graph.nodes.toList.map (·.provenance.path) = paths)
    (leads : path ≠ [] ∧ ∃ inside ∈ paths, path <+: inside.dropLast) : graph.Encloses path := by
  obtain ⟨some_, inside, listed, before⟩ := leads
  rw [← known] at listed
  obtain ⟨node, member, rfl⟩ := List.mem_map.mp listed
  exact ⟨some_, node, member, before⟩

theorem nodup_clusterNames_iff {graph : PortGraph} {drawing : Drawing}
    (names : drawing.clusterNames = (boxPaths graph).map blockName) :
    drawing.clusterNames.Nodup ↔ ∀ first second, graph.Encloses first → graph.Encloses second →
      blockName first = blockName second → first = second := by
  rw [names, List.nodup_map_iff_inj_on (nodup_boxPaths graph)]
  constructor
  · intro apart first second box alsoBox
    exact apart first (mem_boxPaths.mpr box) second (mem_boxPaths.mpr alsoBox)
  · intro apart first listed second alsoListed
    exact apart first second (mem_boxPaths.mp listed) (mem_boxPaths.mp alsoListed)

/-- How the names of boxes tell apart the instances of a graph that has been expanded. -/
structure NamesBoxes (graph : PortGraph) (drawing : Drawing) : Prop where
  instances : ∀ path, graph.Encloses path → ∃ unfolded ∈ graph.instances, unfolded.path = path
  names : ∀ name, name ∈ drawing.clusterNames ↔
    ∃ path, graph.Encloses path ∧ name = "cluster_" ++ "_".intercalate path
  /-- Boxes in the same block have different names. -/
  beside : drawing.clusters.Nodup
  /-- All boxes have different names if their paths spell different texts. -/
  distinct : drawing.clusterNames.Nodup ↔
    ∀ first second, graph.Encloses first → graph.Encloses second →
      "_".intercalate first = "_".intercalate second → first = second

theorem namesBoxes_of_named {graph : PortGraph} {drawing : Drawing}
    (clusters : drawing.clusters.map (Prod.map (List.map (blockPath graph)) id) =
      (boxPaths graph).map boxCluster)
    (instances : ∀ path, graph.Encloses path →
      ∃ unfolded ∈ graph.instances, unfolded.path = path)
    (named : ∀ path, graph.Encloses path → ∀ name ∈ path, IsIdentName name) :
    NamesBoxes graph drawing := by
  have spelled := clusterNames_eq clusters
  constructor
  case instances => exact instances
  case names =>
    intro name
    rw [spelled, List.mem_map]
    constructor
    · rintro ⟨path, listed, rfl⟩
      have box := mem_boxPaths.mp listed
      exact ⟨path, box, blockName_of_named (named path box)⟩
    · rintro ⟨path, box, rfl⟩
      exact ⟨path, mem_boxPaths.mpr box, blockName_of_named (named path box)⟩
  case beside =>
    refine List.Nodup.of_map _ (clusters ▸ (nodup_boxPaths graph).map_on ?_)
    intro first listed second alsoListed
    have box := mem_boxPaths.mp listed
    have alsoBox := mem_boxPaths.mp alsoListed
    exact boxCluster_injective box.1 alsoBox.1 (named first box) (named second alsoBox)
  case distinct =>
    rw [nodup_clusterNames_iff spelled]
    have told (first second : List String) (box : graph.Encloses first)
        (alsoBox : graph.Encloses second) :=
      blockName_eq_iff (named first box) (named second alsoBox)
    exact ⟨fun apart first second box alsoBox same =>
        apart first second box alsoBox ((told first second box alsoBox).mpr same),
      fun apart first second box alsoBox same =>
        apart first second box alsoBox ((told first second box alsoBox).mp same)⟩

end Dot

namespace Unfolding

variable {program : ResolvedProgram} {depth : Nat} {index : program.Index} {binding : List Symbol}
  {unfolding : Unfolding} {graph : PortGraph}

/-- The steps of the path of a box are names of uses. -/
theorem PlannedBy.use_of_encloses
    (planned : unfolding.PlannedBy program depth (ResolvedProgram.rootScope index binding) binding
      graph) {path : List String} (box : graph.Encloses path) :
    ∀ name ∈ path, ∃ body ∈ program.definitions, ∃ use ∈ body.uses, use.name = name := by
  have nodes : graph.nodes = unfolding.nodes := congrArg GraphPlan.nodes planned.plan
  obtain ⟨-, node, member, leads⟩ := box
  rw [nodes] at member
  have listed := List.mem_map_of_mem (f := (·.provenance.path)) member
  obtain ⟨scope, known, use, -, same⟩ := planned.traced.exists_above (List.mem_append_left _ listed)
  rw [same, List.dropLast_concat] at leads
  intro name held
  exact planned.traced.mem_path rfl scope known name (leads.subset held)

end Unfolding

namespace ResolvedProgram

open Dot

variable {source : List Char} {program : Program} {root : program.resolved.Index}
  {generators : Option (List Symbol)} {limits : UnfoldingLimits} {graph : PortGraph}

/-- A box is drawn for an instance, and the steps of its path are identifiers. -/
theorem boxes_of_expand (reads : Program.read source = .ok program)
    (expanded : program.resolved.expand root generators limits = .ok graph) {path : List String}
    (box : graph.Encloses path) :
    (∃ unfolded ∈ graph.instances, unfolded.path = path) ∧
      ∀ name ∈ path, ∃ body ∈ program.resolved.definitions, ∃ use ∈ body.uses,
        use.name = name ∧ IsIdentName name := by
  obtain ⟨binding, unfolding, -, shown⟩ := shown_of_expand program.resolved_sound expanded
  have planned := shown.toPlannedBy
  have named := isIdentName_of_read reads
  have identify := planned.pathsIdentify program.resolved_sound fun body listed use used =>
    (named body listed use used).not_mem (by decide)
  constructor
  · obtain ⟨some_, node, member, leads⟩ := box
    have listed : node.provenance.path ∈ graph.paths :=
      List.mem_append_left _ (List.mem_map_of_mem member)
    refine identify.enclosed _ listed path (leads.trans (List.dropLast_prefix _)) ?_ some_
    rintro rfl
    have shorter := leads.length_le
    rw [List.length_dropLast] at shorter
    have length := List.length_pos_iff.mpr some_
    omega
  · intro name held
    obtain ⟨body, listed, use, used, rfl⟩ := planned.use_of_encloses box name held
    exact ⟨body, listed, use, used, rfl, named body listed use used⟩

/--
In the drawing of an expansion the names of two boxes are the same just where their paths spell the
same text, which takes boxes in different blocks and the name of a use with an underscore in it.
-/
theorem clusterNames_of_expand (reads : Program.read source = .ok program)
    (expanded : program.resolved.expand root generators limits = .ok graph)
    (signature : Option Signature) :
    ∃ drawing, Drawing.read (graph.dot signature) = some drawing ∧ NamesBoxes graph drawing ∧
      ((∀ body ∈ program.resolved.definitions, ∀ use ∈ body.uses, '_' ∉ use.name.toList) →
        drawing.clusterNames.Nodup) := by
  obtain ⟨drawing, drawn, clusters⟩ := exists_clusters_dot graph signature
  have boxes (path : List String) (box : graph.Encloses path) := boxes_of_expand reads expanded box
  have names := namesBoxes_of_named clusters (fun path box => (boxes path box).1)
    fun path box name held => by
      obtain ⟨-, -, -, -, -, named⟩ := (boxes path box).2 name held
      exact named
  refine ⟨drawing, drawn, names, fun plain => names.distinct.mpr ?_⟩
  have letters (path : List String) (box : graph.Encloses path) :
      ∀ name ∈ path, '_' ∉ name.toList := by
    intro name held
    obtain ⟨body, listed, use, used, rfl, -⟩ := (boxes path box).2 name held
    exact plain body listed use used
  intro first second box alsoBox
  exact eq_of_intercalate rfl box.1 alsoBox.1 (letters first box) (letters second alsoBox)

/-- Two names without underscores make up the names of four boxes. -/
theorem clusterNames_of_expand_echo :
    ∃ (root : (Program.ofLines echoLines).resolved.Index) (graph : PortGraph) (drawing : Drawing),
      (Program.ofLines echoLines).resolved.expand root none ⟨1, 12, false⟩ = .ok graph ∧
      Drawing.read (graph.dot none) = some drawing ∧ drawing.clusterNames.Nodup ∧
      ∀ name ∈ ["cluster_A", "cluster_A_B", "cluster_B", "cluster_B_B"],
        name ∈ drawing.clusterNames := by
  have expands : ((Program.ofLines echoLines).resolved.expand ⟨0, by decide +kernel⟩ none
      ⟨1, 12, false⟩).toOption.map (fun graph => graph.nodes.toList.map (·.provenance.path)) =
        some [["A", "A"], ["A", "B", "A"], ["A", "B", "B"], ["B", "A"], ["B", "B", "A"],
          ["B", "B", "B"]] := by
    decide +kernel
  obtain ⟨graph, found, paths⟩ := Option.map_eq_some_iff.mp expands
  have expanded := eq_ok_of_toOption found
  have reads := Program.read_ofLines (by decide +kernel :
    (Program.read (sourceOfLines echoLines)).toOption.isSome = true)
  obtain ⟨drawing, drawn, names, apart⟩ := clusterNames_of_expand reads expanded none
  refine ⟨_, graph, drawing, expanded, drawn, apart (by decide +kernel), ?_⟩
  have boxes : ∀ path ∈ [["A"], ["A", "B"], ["B"], ["B", "B"]],
      "cluster_" ++ "_".intercalate path ∈ drawing.clusterNames := by
    intro path listed
    refine (names.names _).mpr ⟨path, encloses_of_paths paths ?_, rfl⟩
    revert path
    decide
  simpa using boxes

/-- One step with an underscore, and two steps without one, spell the same text. -/
def clashing : Program :=
  .ofLines [
    "def f = [X | Y]",
    "  use +a [X | Y] as S",
    "  link X >-> S.X, S.Y >-> Y",
    "def g = [X | Y]",
    "  use f [X | Y] as B",
    "  link X >-> B.X, B.Y >-> Y",
    "def main = [X | Y]",
    "  use f [X | Y] as A_B",
    "  use g [X | Y] as A",
    "  link X >-> A_B.X, A_B.Y >-> A.X, A.Y >-> Y"]

/-- The boxes of two instances have one name. -/
theorem clusterNames_clashing :
    ∃ (root : clashing.resolved.Index) (graph : PortGraph) (drawing : Drawing),
      clashing.resolved.expand root none ⟨0, 9, false⟩ = .ok graph ∧
      graph.instances.map (·.path) = [["A_B"], ["A"], ["A", "B"]] ∧
      graph.Encloses ["A_B"] ∧ graph.Encloses ["A", "B"] ∧
      Drawing.read (graph.dot none) = some drawing ∧ ¬ drawing.clusterNames.Nodup := by
  have expands : (clashing.resolved.expand ⟨2, by decide +kernel⟩ none
      ⟨0, 9, false⟩).toOption.map (fun graph => (graph.instances.map (·.path),
        graph.nodes.toList.map (·.provenance.path))) =
        some ([["A_B"], ["A"], ["A", "B"]], [["A_B", "S"], ["A", "B", "S"]]) := by
    decide +kernel
  obtain ⟨graph, found, facts⟩ := Option.map_eq_some_iff.mp expands
  obtain ⟨instances, paths⟩ := Prod.mk.inj facts
  obtain ⟨drawing, drawn, clusters⟩ := exists_clusters_dot graph none
  have one : graph.Encloses ["A_B"] := encloses_of_paths paths (by decide)
  have two : graph.Encloses ["A", "B"] := encloses_of_paths paths (by decide)
  refine ⟨_, graph, drawing, eq_ok_of_toOption found, instances, one, two, drawn, fun apart => ?_⟩
  have same := (nodup_clusterNames_iff (clusterNames_eq clusters)).mp apart _ _ one two rfl
  simp at same

end ResolvedProgram

end FlowDiagram

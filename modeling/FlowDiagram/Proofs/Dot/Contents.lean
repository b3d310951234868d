import FlowDiagram.Proofs.Dot.Boxes
import FlowDiagram.Proofs.PortGraph.Spans

/-!
# What a drawing says

The drawing of a port graph states how it looks in general, then the ports on the margins, the nodes
in their boxes, and the edges.  It is read as these statements, each in the blocks that it was put
into.
-/

namespace FlowDiagram.Dot

/-! ## Items -/

def styleStatements : List Statement := [
  .setting "rankdir" "LR",
  .defaults "node" [("fontname", "Helvetica"), ("fontsize", "10")],
  .defaults "edge" [("fontname", "Helvetica"), ("fontsize", "9"), ("arrowsize", "0.6")]]

def inputStatement (signature : Option Signature) (input : String × Nat) : Statement :=
  boundaryStatement (inputId input.2) "lightblue"
    (portText input.1 (signature.bind (·.input? input.1)))

def outputStatement (signature : Option Signature) (output : String × Nat) : Statement :=
  boundaryStatement (outputId output.2) "lightyellow"
    (portText output.1 (signature.bind (·.output? output.1)))

def inputIds (graph : PortGraph) : List String :=
  (List.range graph.inputs.length).map inputId

def outputIds (graph : PortGraph) : List String :=
  (List.range graph.outputs.length).map outputId

def definitions (graph : PortGraph) : List (Placed String) :=
  graph.instances.map placedDefinition

/-- How many boxes lie in each other. -/
def boxDepth (graph : PortGraph) : Nat :=
  ((placedNodes graph).map (·.scope.length)).foldl max 0

/-- The items for the ports on the margins. -/
def marginItems (graph : PortGraph) (signature : Option Signature) : List Item :=
  (graph.inputs.zipIdx.map fun input => .statement (inputStatement signature input)) ++
    (graph.outputs.zipIdx.map fun output => .statement (outputStatement signature output)) ++
    rankItems "source" (inputIds graph) ++ rankItems "sink" (outputIds graph)

/-- The items between the braces of a graph. -/
def bodyItems (graph : PortGraph) (signature : Option Signature) : List Item :=
  styleStatements.map .statement ++ marginItems graph signature ++
    nodeItems (boxDepth graph) [] (definitions graph) (placedNodes graph) ++
    graph.edges.toList.map fun edge => .statement (edgeStatement graph edge)

theorem reads_styleLines : Reads styleLines (styleStatements.map .statement) := by
  have rankdir : Reads ["    rankdir=LR;"] [.statement (.setting "rankdir" "LR")] := by
    have cut : Cut "    rankdir=LR;" [.word "rankdir", .equals, .word "LR", .semicolon] :=
      fun _ => rfl
    exact reads_line cut fun _ => rfl
  have nodes : Reads ["    node [fontname=\"Helvetica\", fontsize=10];"]
      [.statement (.defaults "node" [("fontname", "Helvetica"), ("fontsize", "10")])] := by
    have cut : Cut "    node [fontname=\"Helvetica\", fontsize=10];" [.word "node",
        .openBracket, .word "fontname", .equals, .quoted "Helvetica", .comma, .word "fontsize",
        .equals, .word "10", .closeBracket, .semicolon] := fun _ => rfl
    exact reads_line cut fun _ => rfl
  have edges : Reads ["    edge [fontname=\"Helvetica\", fontsize=9, arrowsize=0.6];"]
      [.statement (.defaults "edge" [("fontname", "Helvetica"), ("fontsize", "9"),
        ("arrowsize", "0.6")])] := by
    have line : "    edge [fontname=\"Helvetica\", fontsize=9, arrowsize=0.6];" =
        "    edge [fontname=\"Helvetica\", " ++ "fontsize=9, arrowsize=0.6];" := rfl
    have font : Cut "    edge [fontname=\"Helvetica\", " [.word "edge", .openBracket,
        .word "fontname", .equals, .quoted "Helvetica", .comma] := fun _ => rfl
    have sizes : Cut "fontsize=9, arrowsize=0.6];" [.word "fontsize", .equals, .word "9",
        .comma, .word "arrowsize", .equals, .word "0.6", .closeBracket, .semicolon] :=
      fun _ => rfl
    rw [line]
    exact reads_line (font.append sizes) fun _ => rfl
  exact (rankdir.append nodes).append edges

theorem reads_boundaryLines (graph : PortGraph) (signature : Option Signature) :
    Reads (boundaryLines graph signature) (marginItems graph signature) := by
  have inputs : Reads (graph.inputs.zipIdx.map fun input => boundaryLine (inputId input.2)
      "lightblue" (portLabel input.1 (signature.bind (·.input? input.1))))
      (graph.inputs.zipIdx.map fun input => .statement (inputStatement signature input)) :=
    reads_map fun input _ => by
      rw [portLabel_eq]
      exact reads_boundaryLine (isNumbered_inputId input.2) (.inl rfl) _
  have outputs : Reads (graph.outputs.zipIdx.map fun output => boundaryLine (outputId output.2)
      "lightyellow" (portLabel output.1 (signature.bind (·.output? output.1))))
      (graph.outputs.zipIdx.map fun output => .statement (outputStatement signature output)) :=
    reads_map fun output _ => by
      rw [portLabel_eq]
      exact reads_boundaryLine (isNumbered_outputId output.2) (.inr rfl) _
  have sources : Reads (rankLines "source" (inputIds graph))
      (rankItems "source" (inputIds graph)) := by
    refine reads_rankLines (.inl rfl) fun id member => ?_
    obtain ⟨port, -, rfl⟩ := List.mem_map.mp member
    exact isNumbered_inputId port
  have sinks : Reads (rankLines "sink" (outputIds graph))
      (rankItems "sink" (outputIds graph)) := by
    refine reads_rankLines (.inr rfl) fun id member => ?_
    obtain ⟨port, -, rfl⟩ := List.mem_map.mp member
    exact isNumbered_outputId port
  exact ((inputs.append outputs).append sources).append sinks

theorem reads_dot (graph : PortGraph) (signature : Option Signature) :
    Reads (["digraph " ++ quoted graph.root ++ " \x7b"] ++ styleLines ++ [""] ++
        boundaryLines graph signature ++ [""] ++ nodeLines graph ++ [""] ++
        graph.edges.toList.map (edgeLine graph) ++ ["\x7d"])
      ([.digraph (labelled graph.root)] ++ bodyItems graph signature ++ [.closes]) := by
  have header : Reads ["digraph " ++ quoted graph.root ++ " \x7b"]
      [.digraph (labelled graph.root)] := by
    have front : Cut "digraph " [.word "digraph"] := fun _ => rfl
    have back : Cut " \x7b" [.openBrace] := fun _ => rfl
    exact reads_line ((front.append (cut_quoted graph.root)).append back) fun _ => rfl
  have blank : Reads [""] [] := by
    have cut : Cut "" [] := fun _ => rfl
    exact reads_line cut fun _ => rfl
  have indent : IsIndent "    " := by simp [IsIndent]
  have nodes : Reads (nodeLines graph)
      (nodeItems (boxDepth graph) [] (definitions graph) (placedNodes graph)) :=
    reads_boxLines _ indent [] _ _
  have edges : Reads (graph.edges.toList.map (edgeLine graph))
      (graph.edges.toList.map fun edge => .statement (edgeStatement graph edge)) :=
    reads_map fun edge _ => reads_edgeLine graph edge
  have closing : Reads ["\x7d"] [.closes] := by
    have cut : Cut "\x7d" [.closeBrace] := fun _ => rfl
    exact reads_line cut parses_closing
  have whole := ((((((((header.append reads_styleLines).append blank).append
    (reads_boundaryLines graph signature)).append blank).append nodes).append blank).append
    edges).append closing)
  simpa [bodyItems, List.append_assoc] using whole

/-! ## Blocks and statements -/

/-- The block around several ports on a margin; it is no box, and has no path. -/
def rankEntries (ids : List String) : List BlockEntry :=
  if 1 < ids.length then [⟨[], [], none⟩] else []

def rankContents (rank : String) (ids : List String) : List Located :=
  if 1 < ids.length then
    ⟨[[]], .setting "rank" rank⟩ :: ids.map fun id => ⟨[[]], .vertex id []⟩
  else []

theorem lays_rankItems (rank : String) (ids : List String) :
    Lays [] (rankItems rank ids) (rankEntries ids) (rankContents rank ids) := by
  unfold rankItems rankEntries rankContents
  split
  · have inside := (lays_statement ([] ++ [[]]) (.setting "rank" rank)).append
      (lays_statements _ ids fun id => .vertex id [])
    exact inside.block none
  · exact lays_nil

/-- The blocks of a drawing. -/
def bodyEntries (graph : PortGraph) : List BlockEntry :=
  rankEntries (inputIds graph) ++ rankEntries (outputIds graph) ++
    nodeEntries (boxDepth graph) [] (placedNodes graph)

/-- The statements of a drawing. -/
def bodyContents (graph : PortGraph) (signature : Option Signature) : List Located :=
  styleStatements.map (⟨[], ·⟩) ++
    (graph.inputs.zipIdx.map fun input => ⟨[], inputStatement signature input⟩) ++
    (graph.outputs.zipIdx.map fun output => ⟨[], outputStatement signature output⟩) ++
    rankContents "source" (inputIds graph) ++ rankContents "sink" (outputIds graph) ++
    nodeContents (boxDepth graph) [] (definitions graph) (placedNodes graph) ++
    graph.edges.toList.map fun edge => ⟨[], edgeStatement graph edge⟩

theorem lays_bodyItems (graph : PortGraph) (signature : Option Signature) :
    Lays [] (bodyItems graph signature) (bodyEntries graph) (bodyContents graph signature) := by
  have style := lays_statements [] styleStatements id
  have inputs := lays_statements [] graph.inputs.zipIdx (inputStatement signature)
  have outputs := lays_statements [] graph.outputs.zipIdx (outputStatement signature)
  have sources := lays_rankItems "source" (inputIds graph)
  have sinks := lays_rankItems "sink" (outputIds graph)
  have nodes := lays_nodeItems (boxDepth graph) [] (definitions graph) (placedNodes graph)
  have edges := lays_statements [] graph.edges.toList (edgeStatement graph)
  have whole := (((((style.append inputs).append outputs).append sources).append sinks).append
    nodes).append edges
  simpa [bodyItems, marginItems, bodyEntries, bodyContents] using whole

/-- The paths that the blocks of a drawing stand for, by their numbers. -/
def blockPath (graph : PortGraph) (number : Nat) : List String :=
  (((bodyEntries graph)[number]?).map (·.path)).getD []

/-- A drawing is read, and all its blocks and statements stand where they were put. -/
theorem exists_read_dot (graph : PortGraph) (signature : Option Signature) :
    ∃ drawing, Drawing.read (graph.dot signature) = some drawing ∧
      drawing.name = labelled graph.root ∧
      drawing.blocks.map (fun block => (block.scope.map (blockPath graph), block.name)) =
        (bodyEntries graph).map (fun entry => (entry.scope, entry.name)) ∧
      drawing.located (blockPath graph) = bodyContents graph signature := by
  obtain ⟨lexemes, scans, parses⟩ := reads_dot graph signature
  obtain ⟨blocks, statements, places, -, told⟩ := lays_bodyItems graph signature [] 0
  have stand : StandFor (blockPath graph) 0 (bodyEntries graph) := by
    intro number entry found
    rw [Nat.zero_add, blockPath, found]
    rfl
  obtain ⟨blocksEq, statementsEq⟩ := told (blockPath graph) rfl stand
  refine ⟨⟨labelled graph.root, blocks, statements⟩, ?_, rfl, blocksEq, statementsEq⟩
  have items : items? lexemes =
      some ([.digraph (labelled graph.root)] ++ bodyItems graph signature ++ [.closes]) := by
    simp [items?, parses []]
  have placed : (bodyItems graph signature ++ [Item.closes]).foldlM Placer.read
      ⟨[], [], [], false⟩ = some ⟨[], blocks.reverse, statements.reverse, true⟩ := by
    rw [List.foldlM_append, places [] [] rfl]
    simp [Placer.read]
  have drawn : drawing? ([.digraph (labelled graph.root)] ++ bodyItems graph signature ++
      [.closes]) = some ⟨labelled graph.root, blocks, statements⟩ := by
    rw [List.append_assoc, List.singleton_append, drawing?, placed]
    simp
  rw [Drawing.read, PortGraph.dot, scans.scan_eq, Option.bind_some, items, Option.bind_some, drawn]

end FlowDiagram.Dot

import FlowDiagram.Connection
import FlowDiagram.Signature.Rules

/-!
# Inference

The rules are applied to the primitives of a graph until nothing changes.  Then either some wire
would have to carry a symbol and lack it, or a merge to produce a symbol that no input can supply,
or the facts on the boundary are the signature.
-/

namespace FlowDiagram

/-! ## Wires and sites -/

namespace PortGraph

/-- The sources of a graph: the inputs of the root, then the outputs of the nodes. -/
def sources (graph : PortGraph) : List Endpoint :=
  (List.range graph.inputs.length).map Endpoint.input ++
    graph.nodes.toList.zipIdx.flatMap fun (node, id) =>
      (List.range node.outputs.length).map (Endpoint.node id)

/-- The number of the first wire of each node from which wires go on at `next`. -/
def firstWires (next : Wire) : List Node → List Wire
  | [] => []
  | node :: rest => next :: firstWires (next + node.outputs.length) rest

/-- The number of the first wire of each node. -/
def wireStarts (graph : PortGraph) : Array Wire :=
  (firstWires graph.inputs.length graph.nodes.toList).toArray

/-- The wire that starts at a source; `starts` are the graph's own `wireStarts`. -/
def wire? (graph : PortGraph) (starts : Array Wire) (source : Endpoint) : Option Wire :=
  match source.vertex with
  | .inputs => if source.port < graph.inputs.length then some source.port else none
  | .outputs => none
  | .node id =>
    match graph.nodes[id]?, starts[id]? with
    | some node, some start =>
      if source.port < node.outputs.length then some (start + source.port) else none
    | _, _ => none

/-- The wire that feeds a target. -/
def feedingWire? (graph : PortGraph) (starts : Array Wire) (target : Endpoint) : Option Wire :=
  (graph.predecessors target).head?.bind (graph.wire? starts)

/-- The values of a list, unless one is missing. -/
def allPresent {α : Type} : List (Option α) → Option (List α)
  | [] => some []
  | none :: _ => none
  | some value :: rest => (allPresent rest).map (value :: ·)

end PortGraph

/-- A primitive node with the wires at its ports. -/
structure Site where
  id : Nat
  node : Node
  primitive : Primitive
  inputs : List Wire
  outputs : List Wire

def Site.wires (site : Site) : List Wire :=
  site.inputs ++ site.outputs

/-- The site of a node, if it is primitive and all its inputs are fed. -/
def PortGraph.site? (graph : PortGraph) (starts : Array Wire) (id : Nat) (node : Node) :
    Option Site :=
  match node.kind with
  | .truncated .. => none
  | .primitive primitive =>
    let inputs := (List.range node.inputs.length).map fun port =>
      graph.feedingWire? starts (.node id port)
    let outputs := (List.range node.outputs.length).map fun port =>
      graph.wire? starts (.node id port)
    match PortGraph.allPresent inputs, PortGraph.allPresent outputs with
    | some inputs, some outputs => some ⟨id, node, primitive, inputs, outputs⟩
    | _, _ => none

/-- The sites of a graph, in the order of the nodes. -/
def PortGraph.sites (graph : PortGraph) : List Site :=
  let starts := graph.wireStarts
  graph.nodes.toList.zipIdx.filterMap fun (node, id) => graph.site? starts id node

/-! ## The order of work -/

/-- Numbers waiting for their turn, each at most once; first come, first served. -/
structure Agenda where
  front : List Nat
  back : List Nat
  waiting : Array Bool

namespace Agenda

/-- All numbers below `count`, in order. -/
def all (count : Nat) : Agenda :=
  ⟨List.range count, [], Array.replicate count true⟩

/-- The numbers that wait, next first. -/
def toList (agenda : Agenda) : List Nat :=
  agenda.front ++ agenda.back.reverse

/-- Let a number wait, unless it does already. -/
def add (agenda : Agenda) (number : Nat) : Agenda :=
  match agenda.waiting[number]? with
  | some false =>
    { agenda with
      back := number :: agenda.back
      waiting := agenda.waiting.setIfInBounds number true }
  | _ => agenda

/-- The next number, and the agenda without it. -/
def next? (agenda : Agenda) : Option (Nat × Agenda) :=
  match agenda.front with
  | number :: rest =>
    some (number, ⟨rest, agenda.back, agenda.waiting.setIfInBounds number false⟩)
  | [] =>
    match agenda.back.reverse with
    | number :: rest => some (number, ⟨rest, [], agenda.waiting.setIfInBounds number false⟩)
    | [] => none

end Agenda

/-- The numbers of the sites at each wire. -/
def sitesAt (wires : Nat) (sites : List Site) : Array (List Nat) :=
  let latestFirst := sites.zipIdx.foldl (fun table (site, number) =>
    site.wires.foldl (fun table wire => table.modify wire (number :: ·)) table)
    (Array.replicate wires [])
  latestFirst.map List.reverse

/-- How much is known of a wire. -/
def Facts.amount (facts : Facts) (wire : Wire) : Nat × Nat :=
  ((facts.get wire).includes.size, (facts.get wire).excludes.size)

/-- Apply one site; the sites at wires of which more is known now have to wait for a turn. -/
def applySite (table : Array (List Nat)) (site : Site) (facts : Facts) (agenda : Agenda) :
    Facts × Agenda :=
  let before := site.wires.map fun wire => (wire, facts.amount wire)
  let after := facts.apply site.primitive site.inputs site.outputs
  let changed := before.filter fun (wire, amount) => after.amount wire != amount
  (after, (changed.flatMap fun (wire, _) => (table[wire]?).getD []).foldl Agenda.add agenda)

/-- Apply the sites whose turn it is, at most `steps` of them. -/
def applySites (sites : Array Site) (table : Array (List Nat)) :
    Nat → Facts → Agenda → Facts
  | 0, facts, _ => facts
  | steps + 1, facts, agenda =>
    match agenda.next? with
    | none => facts
    | some (number, agenda) =>
      match sites[number]? with
      | none => applySites sites table steps facts agenda
      | some site =>
        let (facts, agenda) := applySite table site facts agenda
        applySites sites table steps facts agenda

/--
A bound on the number of turns: each fact learned makes each site wait at most once, and there is
at most one fact of each sort per wire and symbol.
-/
def turnBound (wires : Nat) (sites : List Site) : Nat :=
  let symbols := (sites.filterMap (·.primitive.symbol?)).length
  sites.length * (2 * wires * symbols + 1)

/-- All that the rules imply in a graph. -/
def PortGraph.facts (graph : PortGraph) (sites : List Site) : Facts :=
  let wires := graph.sources.length
  applySites sites.toArray (sitesAt wires sites) (turnBound wires sites) (.unknown wires)
    (.all sites.length)

/-! ## Contradictions -/

inductive TypingFault where
  /-- A merge must produce a symbol that every input lacks. -/
  | unsupplied (id : Nat) (node : Node) (symbol : Symbol)
  /-- An output of a node must carry and lack the same symbols. -/
  | outputConflict (node : Node) (port : String) (symbols : List Symbol)
  /-- An input of the root must carry and lack the same symbols. -/
  | inputConflict (port : String) (symbols : List Symbol)
  deriving DecidableEq

inductive InferenceError where
  /-- No time was left. -/
  | deadline
  | faults (faults : List TypingFault)
  deriving DecidableEq

/-- The symbols that the output of a merge carries although every input lacks them. -/
def Facts.unsupplied (facts : Facts) (inputs : List Wire) (output : Wire) : List Symbol :=
  (facts.get output).includes.toList.filter fun symbol =>
    inputs.all fun wire =>
      decide (symbol ∉ (facts.get wire).includes) && decide (symbol ∈ (facts.get wire).excludes)

/-- The faults of a site: only a merge can lack a supply. -/
def Site.faults (facts : Facts) (site : Site) : List TypingFault :=
  match site.primitive, site.outputs with
  | .union _, output :: _ | .join, output :: _ =>
    (facts.unsupplied site.inputs output).map (.unsupplied site.id site.node)
  | _, _ => []

/-- The symbols that a wire must carry and lack. -/
def PortType.conflicts (type : PortType) : List Symbol :=
  type.includes.toList.filter fun symbol => decide (symbol ∈ type.excludes)

/-- The fault of a wire, which starts at `source`. -/
def PortGraph.wireFault? (graph : PortGraph) (facts : Facts) (source : Endpoint) (wire : Wire) :
    Option TypingFault :=
  match (facts.get wire).conflicts with
  | [] => none
  | symbols =>
    match source.vertex with
    | .node id =>
      (graph.nodes[id]?).map fun node =>
        .outputConflict node ((node.outputs[source.port]?).getD "") symbols
    | _ => some (.inputConflict ((graph.inputs[source.port]?).getD "") symbols)

def PortGraph.typingFaults (graph : PortGraph) (sites : List Site) (facts : Facts) :
    List TypingFault :=
  sites.flatMap (Site.faults facts) ++
    graph.sources.zipIdx.filterMap fun (source, wire) => graph.wireFault? facts source wire

/-! ## The signature -/

/-- What is known of the boundary. -/
def PortGraph.signature (graph : PortGraph) (facts : Facts) : Signature :=
  let starts := graph.wireStarts
  let type (wire : Option Wire) : PortType := (wire.map facts.get).getD .unknown
  { inputs := graph.inputs.zipIdx.map fun (name, port) =>
      ⟨name, type (graph.wire? starts (.input port))⟩
    outputs := graph.outputs.zipIdx.map fun (name, port) =>
      ⟨name, type (graph.feedingWire? starts (.output port))⟩ }

/-- The signature of a graph.  Where there are sites the clock is looked at, and `expired` says
whether the time is up then. -/
def PortGraph.infer (graph : PortGraph) (expired : Bool) : Except InferenceError Signature :=
  let sites := graph.sites
  if expired && !sites.isEmpty then .error .deadline
  else
    let facts := graph.facts sites
    match graph.typingFaults sites facts with
    | [] => .ok (graph.signature facts)
    | faults => .error (.faults faults)

/-! ## Diagnostics -/

/-- Symbols in a message: their written names, each once, in increasing order. -/
def symbolsText (symbols : List Symbol) : String :=
  Text.commaList
    (SymbolSet.ofList (symbols.map fun symbol => "`" ++ Symbol.written symbol ++ "`")).toList

def TypingFault.diagnostic (graph : PortGraph) : TypingFault → Diagnostic
  | .unsupplied id node symbol =>
    (Diagnostic.error .contradiction node.provenance.span
      (node.describe ++ " must produce `" ++ symbol.written ++
        "` but every input excludes it")).withHint (node.origin id)
  | .outputConflict node port symbols =>
    .error .contradiction node.provenance.span
      ("output `" ++ port ++ "` of " ++ node.describe ++ " must both carry and not carry " ++
        symbolsText symbols)
  | .inputConflict port symbols =>
    .error .contradiction graph.rootSpan
      ("input `" ++ port ++ "` of `" ++ graph.root ++ "` must both carry and not carry " ++
        symbolsText symbols)

def InferenceError.diagnostics (graph : PortGraph) : InferenceError → List Diagnostic
  | .deadline =>
    [(Diagnostic.error .resourceExceeded graph.rootSpan
      "type inference did not finish before the compile deadline").withHint
      "lower the expansion depth"]
  | .faults found => found.map (TypingFault.diagnostic graph)

end FlowDiagram

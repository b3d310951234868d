import FlowDiagram.Diagnostic
import FlowDiagram.PortGraph

/-!
# Connections

A graph is connected when every input of a node and every output of the root is fed by exactly one
edge, and every output of a node and every input of the root feeds at least one.
-/

namespace FlowDiagram

/-- A port that is not connected as it should be. -/
inductive ConnectionFault where
  | nodeInput (id : Nat) (node : Node) (port : String) (edges : Nat)
  | nodeOutput (id : Nat) (node : Node) (port : String)
  | rootInput (port : String)
  | rootOutput (port : String) (edges : Nat)
  deriving DecidableEq

inductive ConnectionError where
  /-- No time was left. -/
  | deadline
  | faults (faults : List ConnectionFault)
  deriving DecidableEq

namespace PortGraph

/-- Faults of the ports of a list, each judged by its number and its name. -/
def portFaults (judge : Nat → String → Option ConnectionFault) (names : List String) :
    List ConnectionFault :=
  names.zipIdx.filterMap fun (name, port) => judge port name

/-- Faults of the ports of a node. -/
def nodeFaults (graph : PortGraph) (id : Nat) (node : Node) : List ConnectionFault :=
  portFaults (fun port name =>
    let edges := (graph.incoming (.node id port)).length
    if edges = 1 then none else some (.nodeInput id node name edges)) node.inputs ++
  portFaults (fun port name =>
    if graph.outgoing (.node id port) = [] then some (.nodeOutput id node name) else none)
    node.outputs

/-- Faults of the ports of the root. -/
def rootFaults (graph : PortGraph) : List ConnectionFault :=
  portFaults (fun port name =>
    if graph.outgoing (.input port) = [] then some (.rootInput name) else none) graph.inputs ++
  portFaults (fun port name =>
    let edges := (graph.incoming (.output port)).length
    if edges = 1 then none else some (.rootOutput name edges)) graph.outputs

/-- All faults: the nodes in their order, then the root. -/
def connectionFaults (graph : PortGraph) : List ConnectionFault :=
  (graph.nodes.toList.zipIdx.flatMap fun (node, id) => graph.nodeFaults id node) ++
    graph.rootFaults

/-- Check that every port is connected as it should be.  Where there are nodes the clock is looked
at, and `expired` says whether the time is up then. -/
def checkConnections (graph : PortGraph) (expired : Bool) : Except ConnectionError Unit :=
  if expired && !graph.nodes.isEmpty then .error .deadline
  else
    match graph.connectionFaults with
    | [] => .ok ()
    | faults => .error (.faults faults)

end PortGraph

/-! ## Diagnostics -/

/-- How a message names a node: its path and what it is. -/
def Node.describe (node : Node) : String :=
  "`" ++ pathText node.provenance.path ++ "` (" ++ node.kind.text ++ ")"

/-- Which definition a node came from. -/
def Node.origin (id : Nat) (node : Node) : String :=
  "node n" ++ toString id ++ " was produced by `" ++ node.provenance.definition ++ "`"

/-- How many edges there are where there should be one. -/
def edgeCountText (edges : Nat) : String :=
  " has " ++ toString edges ++ " incoming edges, expected exactly one"

def ConnectionFault.diagnostic (graph : PortGraph) : ConnectionFault → Diagnostic
  | .nodeInput id node port edges =>
    (Diagnostic.error .portMismatch node.provenance.span
      ("input `" ++ port ++ "` of " ++ node.describe ++ edgeCountText edges)).withHint
      (node.origin id)
  | .nodeOutput id node port =>
    (Diagnostic.error .portMismatch node.provenance.span
      ("output `" ++ port ++ "` of " ++ node.describe ++ " is not connected")).withHint
      (node.origin id)
  | .rootInput port =>
    .error .portMismatch graph.rootSpan
      ("input `" ++ port ++ "` of `" ++ graph.root ++ "` is not connected")
  | .rootOutput port edges =>
    .error .portMismatch graph.rootSpan
      ("output `" ++ port ++ "` of `" ++ graph.root ++ "`" ++ edgeCountText edges)

def ConnectionError.diagnostics (graph : PortGraph) : ConnectionError → List Diagnostic
  | .deadline =>
    [.error .resourceExceeded graph.rootSpan
      "port check did not finish before the compile deadline"]
  | .faults found => found.map (ConnectionFault.diagnostic graph)

end FlowDiagram

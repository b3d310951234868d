import FlowDiagram.Compilation
import FlowDiagram.Json.Datum

/-!
# What is told in JSON

The data of graphs, all of which can be written, and the JSON forms of signatures, fingerprints and
diagnostics.
-/

namespace FlowDiagram

open Json (ofNat strings)

/-! ## Graphs -/

def Primitive.datum : Primitive → Datum
  | .add symbol => .tagged "add" (.text symbol)
  | .remove symbol => .tagged "remove" (.text symbol)
  | .spawn symbol => .tagged "spawn" (.text symbol)
  | .union count => .tagged "union" (.ofNat count)
  | .join => .text "join"
  | .split => .text "split"

theorem Primitive.writable (box : Primitive) : box.datum.Writable := by
  cases box <;> simp [datum, Datum.writable_tagged]

def NodeKind.datum : NodeKind → Datum
  | .primitive box => .tagged "primitive" box.datum
  | .truncated definition generators =>
    .tagged "truncated"
      (.record [("definition", .text definition), ("generators", .texts generators)])

theorem NodeKind.writable (kind : NodeKind) : kind.datum.Writable := by
  cases kind with
  | primitive box => exact Datum.writable_tagged _ box.writable
  | truncated definition generators =>
    exact Datum.writable_tagged _ (Datum.writable_record (by simp))

def Provenance.datum (provenance : Provenance) : Datum :=
  .record
    [("path", .texts provenance.path),
      ("definition", .text provenance.definition),
      ("level", .ofNat provenance.level),
      ("status", .text (if provenance.depthExceeded then "depth_exceeded" else "inlined"))]

theorem Provenance.writable (provenance : Provenance) : provenance.datum.Writable :=
  Datum.writable_record (by simp)

def Node.datum (id : Nat) (node : Node) : Datum :=
  .record
    [("id", .ofNat id),
      ("kind", node.kind.datum),
      ("inputs", .texts node.inputs),
      ("outputs", .texts node.outputs),
      ("provenance", node.provenance.datum)]

theorem Node.writable (id : Nat) (node : Node) : (node.datum id).Writable :=
  Datum.writable_record (by simp [node.kind.writable, node.provenance.writable])

def Vertex.datum : Vertex → Datum
  | .inputs => .text "inputs"
  | .outputs => .text "outputs"
  | .node id => .tagged "node" (.ofNat id)

theorem Vertex.writable (vertex : Vertex) : vertex.datum.Writable := by
  cases vertex <;> simp [datum, Datum.writable_tagged]

def Endpoint.datum (endpoint : Endpoint) : Datum :=
  .record [("vertex", endpoint.vertex.datum), ("port", .ofNat endpoint.port)]

theorem Endpoint.writable (endpoint : Endpoint) : endpoint.datum.Writable :=
  Datum.writable_record (by simp [endpoint.vertex.writable])

def Edge.datum (number : Nat) (edge : Edge) : Datum :=
  .record
    [("id", .ofNat number), ("source", edge.source.datum), ("target", edge.target.datum)]

theorem Edge.writable (number : Nat) (edge : Edge) : (edge.datum number).Writable :=
  Datum.writable_record (by simp [edge.source.writable, edge.target.writable])

def Instance.datum (inst : Instance) : Datum :=
  .record
    [("path", .texts inst.path),
      ("definition", .text inst.definition),
      ("generators", .texts inst.generators),
      ("level", .ofNat inst.level)]

theorem Instance.writable (inst : Instance) : inst.datum.Writable :=
  Datum.writable_record (by simp)

def PortGraph.datum (graph : PortGraph) : Datum :=
  .record
    [("root", .text graph.root),
      ("generators", .texts graph.generators),
      ("inputs", .texts graph.inputs),
      ("outputs", .texts graph.outputs),
      ("nodes", .list (graph.nodes.mapIdx Node.datum).toList),
      ("edges", .list (graph.edges.mapIdx Edge.datum).toList),
      ("instances", .list (graph.instances.map Instance.datum))]

/-- The keys in the data of a graph are texts, whatever the graph. -/
theorem PortGraph.writable (graph : PortGraph) : graph.datum.Writable := by
  have nodes := Datum.writable_list_mapIdx Node.writable graph.nodes
  have edges := Datum.writable_list_mapIdx Edge.writable graph.edges
  have instances := Datum.writable_list_map Instance.writable graph.instances
  refine Datum.writable_record ?_
  simp only [List.forall_mem_cons, Datum.writable_text, Datum.writable_texts, true_and]
  exact ⟨nodes, edges, instances, List.forall_mem_nil _⟩

def PortGraph.json (graph : PortGraph) : Json := graph.datum.json graph.writable

/-! ## Signatures -/

def PortSignature.json (port : PortSignature) : Json :=
  .record
    [("name", .string port.name),
      ("includes", strings port.type.includes.toList),
      ("excludes", strings port.type.excludes.toList)]

def Signature.json (signature : Signature) : Json :=
  .record
    [("inputs", .array (signature.inputs.map PortSignature.json)),
      ("outputs", .array (signature.outputs.map PortSignature.json))]

/-! ## Fingerprints and diagnostics -/

def Fingerprint.json (fingerprint : Fingerprint) : Json :=
  .record
    [("source_hash", .string fingerprint.source),
      ("registry_fingerprint", .string fingerprint.registry),
      ("compiler_version", .string fingerprint.version)]

def RelatedPlace.json (place : RelatedPlace) : Json :=
  .record
    [("label", .string place.label), ("start", ofNat place.span.start),
      ("end", ofNat place.span.stop)]

def Diagnostic.json (diagnostic : Diagnostic) : Json :=
  .record
    [("kind", .string diagnostic.kind.name),
      ("code", .string diagnostic.kind.code),
      ("level", .string diagnostic.severity.name),
      ("message", .string diagnostic.message),
      ("line", .ofOption (fun position => ofNat position.line) diagnostic.position),
      ("column", .ofOption (fun position => ofNat position.column) diagnostic.position),
      ("hint", .ofOption .string diagnostic.hint),
      ("related", .array (diagnostic.related.map RelatedPlace.json))]

end FlowDiagram

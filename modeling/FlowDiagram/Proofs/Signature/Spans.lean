import FlowDiagram.Proofs.PortGraph.Spans
import FlowDiagram.Signature.Inference

/-!
# Inference without spans

Inference keeps nodes only to name them in an error: the facts of a graph are those of the graph
without spans, and so are its signature and what contradicts itself in it.
-/

namespace FlowDiagram

/-! ## Sites -/

def Site.withoutSpan (site : Site) : Site :=
  { site with node := site.node.withoutSpan }

namespace PortGraph

variable (graph : PortGraph)

/-- The sites of a graph without spans. -/
theorem sites_withoutSpans : graph.withoutSpans.sites = graph.sites.map Site.withoutSpan :=
  Relabelling.spanless.sites graph

end PortGraph

/-! ## Facts -/

theorem sitesAt_withoutSpan (wires : Nat) (sites : List Site) :
    sitesAt wires (sites.map Site.withoutSpan) = sitesAt wires sites := by
  rw [sitesAt, List.zipIdx_map, List.foldl_map]
  rfl

theorem applySites_withoutSpan (sites : Array Site) (table : Array (List Nat)) (steps : Nat)
    (facts : Facts) (agenda : Agenda) :
    applySites (sites.map Site.withoutSpan) table steps facts agenda =
      applySites sites table steps facts agenda := by
  induction steps generalizing facts agenda with
  | zero => rfl
  | succ steps ih =>
      rw [applySites, applySites]
      cases agenda.next? with
      | none => rfl
      | some next =>
          obtain ⟨number, agenda⟩ := next
          have there : (sites.map Site.withoutSpan)[number]? =
              sites[number]?.map Site.withoutSpan := Array.getElem?_map
          simp only [there]
          cases sites[number]? with
          | none => exact ih facts agenda
          | some site => exact ih _ _

theorem turnBound_withoutSpan (wires : Nat) (sites : List Site) :
    turnBound wires (sites.map Site.withoutSpan) = turnBound wires sites := by
  rw [turnBound, List.filterMap_map, List.length_map]
  rfl

theorem PortGraph.facts_withoutSpans (graph : PortGraph) (sites : List Site) :
    graph.withoutSpans.facts (sites.map Site.withoutSpan) = graph.facts sites := by
  have sources : graph.withoutSpans.sources = graph.sources := Relabelling.spanless.sources graph
  rw [facts, sources, sitesAt_withoutSpan, turnBound_withoutSpan, List.length_map,
    ← List.map_toArray, applySites_withoutSpan]
  rfl

/-! ## Contradictions -/

def TypingFault.withoutSpans : TypingFault → TypingFault
  | .unsupplied id node symbol => .unsupplied id node.withoutSpan symbol
  | .outputConflict node port symbols => .outputConflict node.withoutSpan port symbols
  | .inputConflict port symbols => .inputConflict port symbols

def InferenceError.withoutSpans : InferenceError → InferenceError
  | .deadline => .deadline
  | .faults found => .faults (found.map TypingFault.withoutSpans)

theorem Site.faults_withoutSpan (facts : Facts) (site : Site) :
    site.withoutSpan.faults facts = (site.faults facts).map TypingFault.withoutSpans := by
  obtain ⟨id, node, primitive, inputs, outputs⟩ := site
  unfold faults withoutSpan
  dsimp only
  split
  · rw [List.map_map]
    rfl
  · rw [List.map_map]
    rfl
  · rfl

namespace PortGraph

variable (graph : PortGraph)

theorem wireFault?_withoutSpans (facts : Facts) (source : Endpoint) (wire : Wire) :
    graph.withoutSpans.wireFault? facts source wire =
      (graph.wireFault? facts source wire).map TypingFault.withoutSpans := by
  obtain ⟨vertex, port⟩ := source
  unfold wireFault?
  cases (facts.get wire).conflicts with
  | nil => rfl
  | cons symbol rest =>
      cases vertex with
      | node id =>
          simp only [getElem?_nodes_withoutSpans, Option.map_map]
          rfl
      | _ => rfl

theorem typingFaults_withoutSpans (sites : List Site) (facts : Facts) :
    graph.withoutSpans.typingFaults (sites.map Site.withoutSpan) facts =
      (graph.typingFaults sites facts).map TypingFault.withoutSpans := by
  have sources : graph.withoutSpans.sources = graph.sources := Relabelling.spanless.sources graph
  rw [typingFaults, sources, typingFaults, List.map_append, List.flatMap_map,
    List.map_flatMap, List.map_filterMap]
  simp only [Site.faults_withoutSpan, wireFault?_withoutSpans]

theorem signature_withoutSpans (facts : Facts) :
    graph.withoutSpans.signature facts = graph.signature facts := by
  have starts : graph.withoutSpans.wireStarts = graph.wireStarts :=
    Relabelling.spanless.wireStarts graph
  have wire (starts : Array Wire) : graph.withoutSpans.wire? starts = graph.wire? starts :=
    funext (Relabelling.spanless.wire? graph starts)
  have feedingWire (starts : Array Wire) :
      graph.withoutSpans.feedingWire? starts = graph.feedingWire? starts :=
    funext (Relabelling.spanless.feedingWire? graph starts)
  unfold signature
  simp only [starts, wire, feedingWire]
  rfl

/-- The same signature is inferred, or the same contradictions are found. -/
theorem infer_withoutSpans (expired : Bool) :
    graph.withoutSpans.infer expired =
      (graph.infer expired).mapError InferenceError.withoutSpans := by
  have some_ : (graph.sites.map Site.withoutSpan).isEmpty = graph.sites.isEmpty :=
    List.isEmpty_map
  unfold infer
  dsimp only
  rw [sites_withoutSpans, some_, facts_withoutSpans, typingFaults_withoutSpans,
    signature_withoutSpans]
  split
  · rfl
  · cases graph.typingFaults graph.sites (graph.facts graph.sites) <;> rfl

end PortGraph

theorem InferenceError.diagnostics_withoutSpans (graph : PortGraph) (error : InferenceError) :
    error.withoutSpans.diagnostics graph.withoutSpans =
      (error.diagnostics graph).map Diagnostic.withoutPlaces := by
  have each : ∀ fault : TypingFault, fault.withoutSpans.diagnostic graph.withoutSpans =
      (fault.diagnostic graph).withoutPlaces := by
    intro fault
    cases fault <;> rfl
  cases error with
  | deadline => rfl
  | faults found => simp [withoutSpans, diagnostics, each, Function.comp_def]

end FlowDiagram

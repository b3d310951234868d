import FlowDiagram.Unfolding

/-!
# Edges of an unfolded diagram

Links run inside the bodies of frames; edges run between nodes and the boundary of the root.  An
edge is found by following links: into a frame by the port of the use it stands for, and out of it
by the boundary of its body, until a node or the boundary of the root is reached.
-/

namespace FlowDiagram

/-- An end of a link in the body of a frame. -/
structure Place where
  frame : Nat
  stop : LinkEnd
  deriving DecidableEq

/-- Where a link leads: to a target, or to a place where further links start. -/
inductive Lead where
  | target (endpoint : Endpoint)
  | onward (source : Place)
  deriving DecidableEq

namespace Unfolding

/-- The places where links from a place end, in the order of the links. -/
def linksFrom (unfolding : Unfolding) (source : Place) : List Place :=
  match unfolding.frames[source.frame]? with
  | none => []
  | some frame =>
    (frame.body.links.filter (·.source == source.stop)).map fun link => ⟨source.frame, link.target⟩

/-- Where the end of a link leads. -/
def lead? (unfolding : Unfolding) (place : Place) : Option Lead :=
  match unfolding.frames[place.frame]? with
  | none => none
  | some frame =>
    match place.stop with
    | .boundary port =>
      match frame.site with
      | none => some (.target (.output port))
      | some site => some (.onward ⟨site.frame, .use site.use port⟩)
    | .use number port =>
      match frame.parts[number]? with
      | none => none
      | some (.node id) => some (.target (.node id port))
      | some (.frame inner) => some (.onward ⟨inner, .boundary port⟩)

/-- How many links there are in all frames. -/
def linkCount (unfolding : Unfolding) : Nat :=
  unfolding.frames.foldl (fun count frame => count + frame.body.links.length) 0

/--
The targets that places lead to, nearest first.  Places seen before lead nowhere new, so `steps`
need not exceed the number of links.
-/
def follow (unfolding : Unfolding) (steps : Nat) (places seen : List Place) : List Endpoint :=
  match steps, places with
  | 0, _ => []
  | _, [] => []
  | steps + 1, place :: rest =>
    if place ∈ seen then unfolding.follow steps rest seen
    else
      match unfolding.lead? place with
      | none => unfolding.follow steps rest (place :: seen)
      | some (.target endpoint) => endpoint :: unfolding.follow steps rest (place :: seen)
      | some (.onward source) =>
        unfolding.follow steps (unfolding.linksFrom source ++ rest) (place :: seen)

/-- The edges from an endpoint, which lies at a place. -/
def edgesFrom (unfolding : Unfolding) (steps : Nat) (source : Endpoint) (place : Place) :
    List Edge :=
  (unfolding.follow steps (unfolding.linksFrom place) []).map fun target => ⟨source, target⟩

/-- The edges from the inputs of the root. -/
def inputEdges (unfolding : Unfolding) (steps inputs : Nat) : List Edge :=
  (List.range inputs).flatMap fun port =>
    unfolding.edgesFrom steps (.input port) ⟨0, .boundary port⟩

/-- The edges from the outputs of a node, which stands for the use at `site`. -/
def nodeEdges (unfolding : Unfolding) (steps id : Nat) (site : UseSite) (node : Node) :
    List Edge :=
  (List.range node.outputs.length).flatMap fun port =>
    unfolding.edgesFrom steps (.node id port) ⟨site.frame, .use site.use port⟩

/-- All edges, by their sources: the inputs of the root, then the nodes in their order. -/
def edges (unfolding : Unfolding) (inputs : Nat) : List Edge :=
  let steps := unfolding.linkCount
  unfolding.inputEdges steps inputs ++
    ((unfolding.sites.zip unfolding.nodes).toList.zipIdx.flatMap fun ((site, node), id) =>
      unfolding.nodeEdges steps id site node)

end Unfolding

end FlowDiagram

import FlowDiagram.Proofs.Signature.Closed

/-!
# Wires in place of wires

Where one graph has wires in place of those of another, at the same sites with symbols renamed, what
turns tell of a wire there is also told of the wire in its place, by all facts without a fault with
which the sites are at rest.
-/

namespace FlowDiagram

theorem Primitive.rename_id (primitive : Primitive) : primitive.rename id = primitive := by
  cases primitive <;> rfl

namespace PortGraph

/-! ## After some turns -/

/-- What is known of the wires of a graph after the turns of some sites. -/
def after (graph : PortGraph) (order : List Site) : Facts :=
  order.foldl Facts.turn (.unknown graph.sources.length)

/-- Turns add only what a view closed under the rules of the sites allows. -/
theorem grows_after (graph : PortGraph) {view : View} {order : List Site}
    (closed : ∀ site ∈ order, view.Closed site.primitive site.inputs site.outputs) :
    Facts.Grows view (.unknown graph.sources.length) (graph.after order) :=
  .foldl (fun facts site member => facts.grows_turn (closed site member)) _

theorem size_after (graph : PortGraph) (order : List Site) :
    (graph.after order).size = graph.sources.length := by
  have free : ∀ site ∈ order, View.anything.Closed site.primitive site.inputs site.outputs :=
    fun site _ => View.closed_of_wires site.primitive fun _ _ _ _ => trivial
  exact (graph.grows_after free).size.trans Array.size_replicate

/-- All that the rules imply in a graph is known after the turns of its sites in some order. -/
theorem facts_eq_after (graph : PortGraph) {sites : List Site} (within : sites ⊆ graph.sites) :
    ∃ order ⊆ sites, graph.facts sites = graph.after order := by
  have turns := graph.facts_turnsEnd fun site member => graph.sites_inside site (within member)
  obtain ⟨order, subset, ends⟩ := turns.exists_order
  exact ⟨order, subset, ends.symm⟩

/-! ## Wires in place of wires -/

/--
One graph has wires in place of those of another: they are the wires of the same sites, symbols
renamed, and of the same ports of the boundary.
-/
structure Follows (graph deeper : PortGraph) (rename : Symbol → Symbol) (along : Wire → Wire) :
    Prop where
  sites : ∀ site ∈ graph.sites, ∃ there ∈ deeper.sites,
    there.primitive = site.primitive.rename rename ∧ there.inputs = site.inputs.map along ∧
      there.outputs = site.outputs.map along
  inputs : ∀ port, port < graph.inputs.length →
    deeper.wire? deeper.wireStarts (.input port) =
      (graph.wire? graph.wireStarts (.input port)).map along
  outputs : ∀ port, port < graph.outputs.length →
    deeper.feedingWire? deeper.wireStarts (.output port) =
      (graph.feedingWire? graph.wireStarts (.output port)).map along

/-- The wire of the deeper graph in place of a wire, given the sources in place of sources. -/
def wireAlong (graph deeper : PortGraph) (feeding : Endpoint → Endpoint) (wire : Wire) : Wire :=
  ((graph.sources[wire]?).bind fun source =>
    deeper.wire? deeper.wireStarts (feeding source)).getD 0

/-- A graph has its own wires in their places. -/
theorem Follows.refl (graph : PortGraph) : graph.Follows graph id id where
  sites site member := ⟨site, member, site.primitive.rename_id.symm, by simp, by simp⟩
  inputs _ _ := by simp
  outputs _ _ := by simp

variable {graph deeper : PortGraph} {feeding : Endpoint → Endpoint}

theorem wireAlong_eq {source : Endpoint} {wire : Wire}
    (starts : graph.wire? graph.wireStarts source = some wire)
    (exists_ : deeper.HasSource (feeding source)) :
    deeper.wire? deeper.wireStarts (feeding source) =
      some (graph.wireAlong deeper feeding wire) := by
  obtain ⟨there, found, -⟩ := wire_of_source exists_
  simp [wireAlong, wire?_eq_some_iff.mp starts, found]

/-- The wires in place of those at some ports, if each is at the same port. -/
theorem wires_along {ports : List Nat} {wire? there? : Nat → Option Wire}
    {wires theres : List Wire} {along : Wire → Wire} (listed : ports.map wire? = wires.map some)
    (listedThere : ports.map there? = theres.map some)
    (each : ∀ port ∈ ports, ∀ wire, wire? port = some wire → there? port = some (along wire)) :
    theres = wires.map along := by
  induction ports generalizing wires theres with
  | nil =>
      rw [List.map_eq_nil_iff.mp listed.symm, List.map_eq_nil_iff.mp listedThere.symm]
      rfl
  | cons port rest ih =>
      obtain ⟨wire, later, rfl, found, hlater⟩ := List.map_eq_cons_iff.mp listed.symm
      obtain ⟨there, theresLater, rfl, foundThere, hthere⟩ :=
        List.map_eq_cons_iff.mp listedThere.symm
      obtain ⟨here, inRest⟩ := List.forall_mem_cons.mp each
      have same : there = along wire := Option.some.inj (foundThere.trans (here wire found.symm))
      rw [same, ih hlater.symm hthere.symm inRest, List.map_cons]

/-! ## Facts in place of facts -/

section Facts

variable {rename : Symbol → Symbol} {along : Wire → Wire} {facts other : Facts}

/-- What is known after some turns is known of the wires in place of the wires. -/
theorem Follows.known_after (follows : graph.Follows deeper rename along)
    (injective : Function.Injective rename) {order : List Site} (within : order ⊆ graph.sites)
    (size : other.size = deeper.sources.length)
    (atRest : ∀ site ∈ deeper.sites, site.AtRest other)
    (faultless : deeper.typingFaults deeper.sites other = []) (wire : Wire) (sort : Bool)
    (symbol : Symbol) (known : symbol ∈ ((graph.after order).get wire).known sort) :
    rename symbol ∈ (other.get (along wire)).known sort := by
  let view : View := fun wire sort symbol => rename symbol ∈ (other.get (along wire)).known sort
  have closed : ∀ site ∈ order, view.Closed site.primitive site.inputs site.outputs := by
    intro site member
    obtain ⟨there, thereMember, primitive, inputs, outputs⟩ := follows.sites site (within member)
    have closedThere := closed_of_faultless size atRest faultless there thereMember
    rw [primitive, inputs, outputs] at closedThere
    exact closedThere.pullBack injective fun wire _ sort symbol => Iff.rfl
  exact (graph.grows_after closed).within (Facts.within_unknown view _) wire sort symbol known

/-- What is known of a wire is known of the wire in its place. -/
theorem Follows.known (follows : graph.Follows deeper rename along)
    (injective : Function.Injective rename)
    (faultless : deeper.typingFaults deeper.sites (deeper.facts deeper.sites) = []) :
    ∀ wire sort symbol, symbol ∈ ((graph.facts graph.sites).get wire).known sort →
      rename symbol ∈ ((deeper.facts deeper.sites).get (along wire)).known sort := by
  obtain ⟨order, within, turned⟩ := graph.facts_eq_after (List.Subset.refl graph.sites)
  rw [turned]
  exact follows.known_after injective within (deeper.size_facts deeper.sites)
    (deeper.facts_atRest deeper.sites_inside) faultless

/-- Facts are without a fault if such are known of the wires in place of the wires. -/
theorem Follows.faultless_of_known (follows : graph.Follows deeper rename along)
    (size : facts.size = graph.sources.length) (otherSize : other.size = deeper.sources.length)
    (known : ∀ wire sort symbol, symbol ∈ (facts.get wire).known sort →
      rename symbol ∈ (other.get (along wire)).known sort)
    (faultless : deeper.typingFaults deeper.sites other = []) :
    graph.typingFaults graph.sites facts = [] := by
  obtain ⟨consistent, suppliedThere⟩ := (faultless_iff otherSize).mp faultless
  refine (faultless_iff size).mpr ⟨?_, ?_⟩
  · intro wire symbol includes excludes
    exact consistent (along wire) _ (known wire true symbol includes)
      (known wire false symbol excludes)
  · intro site member
    obtain ⟨there, thereMember, primitive, inputs, outputs⟩ := follows.sites site member
    have supplied := suppliedThere there thereMember
    have supplies : ∀ output, other.Supplies (site.inputs.map along) (along output) →
        facts.Supplies site.inputs output := by
      intro output supplies symbol includes
      obtain ⟨_, image, possible⟩ := supplies _ (known output true symbol includes)
      obtain ⟨input, member, rfl⟩ := List.mem_map.mp image
      exact ⟨input, member, fun lacked => possible (known input false symbol lacked)⟩
    unfold Site.Supplied at supplied ⊢
    rw [primitive, outputs, inputs] at supplied
    split
    · rename_i merges wires
      rw [merges, wires] at supplied
      exact supplies _ supplied
    · rename_i merges wires
      rw [merges, wires] at supplied
      exact supplies _ supplied
    · trivial

end Facts

end PortGraph

end FlowDiagram

import FlowDiagram.Proofs.Expansion.Renaming
import FlowDiagram.Proofs.Signature.Order

/-!
# Renaming the symbols of a graph

When all symbols of a graph are permuted, its sites are those of the graph with symbols permuted.
What is known of a wire is then known of it under other names, in both directions, so inference
fails or not as it did before, and the signature is the one before, renamed.
-/

namespace FlowDiagram

/-! ## Signatures -/

/-- The set of what the members of a set are renamed to. -/
def SymbolSet.rename (rename : Symbol → Symbol) (set : SymbolSet) : SymbolSet :=
  ofList (set.toList.map rename)

def PortType.rename (rename : Symbol → Symbol) (type : PortType) : PortType :=
  ⟨type.includes.rename rename, type.excludes.rename rename⟩

def PortSignature.rename (rename : Symbol → Symbol) (port : PortSignature) : PortSignature :=
  { port with type := port.type.rename rename }

/-- Rename the symbols of a signature; the names of the ports stay. -/
def Signature.rename (rename : Symbol → Symbol) (signature : Signature) : Signature where
  inputs := signature.inputs.map (PortSignature.rename rename)
  outputs := signature.outputs.map (PortSignature.rename rename)

@[simp]
theorem SymbolSet.mem_rename {rename : Symbol → Symbol} {set : SymbolSet} {symbol : Symbol} :
    symbol ∈ set.rename rename ↔ ∃ other ∈ set, rename other = symbol := by
  rw [SymbolSet.rename, mem_ofList, List.mem_map]
  rfl

theorem PortType.mem_known_rename {rename : Symbol → Symbol} {type : PortType} {sort : Bool}
    {symbol : Symbol} : symbol ∈ (type.rename rename).known sort ↔
      ∃ other ∈ type.known sort, rename other = symbol := by
  cases sort <;> exact SymbolSet.mem_rename

/-! ## Renaming again -/

theorem Primitive.rename_comp (first second : Symbol → Symbol) (primitive : Primitive) :
    (primitive.rename first).rename second = primitive.rename (second ∘ first) := by
  cases primitive <;> rfl

theorem NodeKind.rename_comp (first second : Symbol → Symbol) (kind : NodeKind) :
    (kind.rename first).rename second = kind.rename (second ∘ first) := by
  cases kind with
  | primitive primitive => exact congrArg NodeKind.primitive (primitive.rename_comp first second)
  | truncated definition generators => simp [NodeKind.rename]

theorem NodeKind.rename_id (kind : NodeKind) : kind.rename id = kind := by
  cases kind with
  | primitive primitive => exact congrArg NodeKind.primitive primitive.rename_id
  | truncated definition generators => simp [NodeKind.rename]

namespace PortGraph

theorem rename_comp (first second : Symbol → Symbol) (graph : PortGraph) :
    (graph.rename first).rename second = graph.rename (second ∘ first) := by
  simp [PortGraph.rename, GraphPlan.rename, Node.rename, Instance.rename, NodeKind.rename_comp,
    Function.comp_def]

theorem rename_id (graph : PortGraph) : graph.rename id = graph := by
  have node : Node.rename id = id := by
    funext node
    simp [Node.rename, NodeKind.rename_id]
  have unfolded : Instance.rename id = id := by
    funext unfolded
    simp [Instance.rename]
  simp [PortGraph.rename, GraphPlan.rename, node, unfolded]

theorem rename_symm (permutation : Equiv.Perm Symbol) (graph : PortGraph) :
    (graph.rename permutation).rename permutation.symm = graph := by
  rw [rename_comp, Equiv.symm_comp_self, rename_id]

/-! ## Wires in place of wires -/

variable {graph : PortGraph} {rename : Symbol → Symbol} {permutation : Equiv.Perm Symbol}

theorem sites_rename (rename : Symbol → Symbol) (graph : PortGraph) :
    (graph.rename rename).sites = graph.sites.map (Relabelling.renames rename).site :=
  (Relabelling.renames rename).sites graph

/-- Each wire has itself in its place when the symbols of the graph are renamed. -/
theorem follows_rename (rename : Symbol → Symbol) (graph : PortGraph) :
    graph.Follows (graph.rename rename) rename id where
  sites site member := by
    refine ⟨(Relabelling.renames rename).site site, ?_, rfl, (List.map_id _).symm,
      (List.map_id _).symm⟩
    rw [sites_rename]
    exact List.mem_map_of_mem member
  inputs port _ := by
    have starts := (Relabelling.renames rename).wireStarts graph
    have wire := (Relabelling.renames rename).wire? graph graph.wireStarts (.input port)
    rw [Option.map_id, id, ← wire, ← starts]
    rfl
  outputs port _ := by
    have starts := (Relabelling.renames rename).wireStarts graph
    have wire := (Relabelling.renames rename).feedingWire? graph graph.wireStarts (.output port)
    rw [Option.map_id, id, ← wire, ← starts]
    rfl

theorem follows_rename_back (permutation : Equiv.Perm Symbol) (graph : PortGraph) :
    (graph.rename permutation).Follows graph permutation.symm id := by
  have back := (graph.rename permutation).follows_rename permutation.symm
  rwa [rename_symm] at back

/-- If two changes make the same of a graph, they make the same of what its primitives act on. -/
theorem agree_of_rename_eq {change : Symbol → Symbol}
    (same : graph.rename change = graph.rename rename) :
    ∀ symbol ∈ namedBy graph.sites, change symbol = rename symbol := by
  intro symbol member
  obtain ⟨site, listed, acts⟩ := List.mem_filterMap.mp member
  have isSite := mem_sites_iff.mp listed
  have node : (graph.rename change).nodes[site.id]? = (graph.rename rename).nodes[site.id]? :=
    congrArg (fun graph => graph.nodes[site.id]?) same
  have renamed : site.primitive.rename change = site.primitive.rename rename := by
    simpa [PortGraph.rename, GraphPlan.rename, isSite.node, Node.rename, isSite.kind,
      NodeKind.rename] using node
  have symbols := congrArg Primitive.symbol? renamed
  simpa [Primitive.symbol?_rename, acts] using symbols

/-! ## Inference -/

/-- The signature of a graph, where the same is known of each wire under other names. -/
theorem signature_rename {facts there : Facts} {change : Symbol → Symbol}
    (same : ∀ wire, there.get wire = (facts.get wire).rename change) :
    (graph.rename rename).signature there = (graph.signature facts).rename change := by
  have starts : (graph.rename rename).wireStarts = graph.wireStarts :=
    (Relabelling.renames rename).wireStarts graph
  have wire (source : Endpoint) : (graph.rename rename).wire? graph.wireStarts source =
      graph.wire? graph.wireStarts source :=
    (Relabelling.renames rename).wire? graph graph.wireStarts source
  have feedingWire (target : Endpoint) :
      (graph.rename rename).feedingWire? graph.wireStarts target =
        graph.feedingWire? graph.wireStarts target :=
    (Relabelling.renames rename).feedingWire? graph graph.wireStarts target
  have type (wire : Option Wire) : (wire.map there.get).getD .unknown =
      ((wire.map facts.get).getD .unknown).rename change := by
    cases wire with
    | none => rfl
    | some wire => exact same wire
  unfold signature Signature.rename
  simp only [starts, wire, feedingWire, type, List.map_map]
  rfl

/--
What is known of a wire when symbols are permuted is what was known of it, renamed; of a symbol
that no site names, nothing is known.
-/
theorem facts_rename (agree : ∀ symbol ∈ namedBy graph.sites, permutation symbol = rename symbol)
    (faultless : graph.typingFaults graph.sites (graph.facts graph.sites) = [])
    (faultlessThere : (graph.rename permutation).typingFaults (graph.rename permutation).sites
      ((graph.rename permutation).facts (graph.rename permutation).sites) = [])
    (wire : Wire) :
    ((graph.rename permutation).facts (graph.rename permutation).sites).get wire =
      ((graph.facts graph.sites).get wire).rename rename := by
  have known := (graph.follows_rename permutation).known permutation.injective faultlessThere wire
  have knownBack :=
    (graph.follows_rename_back permutation).known permutation.symm.injective faultless wire
  have about : (graph.facts graph.sites).Within (Facts.about (namedBy graph.sites)) := by
    obtain ⟨order, within, turned⟩ := graph.facts_eq_after (List.Subset.refl graph.sites)
    rw [turned]
    exact after_about within
  refine PortType.eq_of_known fun sort symbol => ?_
  rw [PortType.mem_known_rename]
  constructor
  · intro there
    have here := knownBack sort symbol there
    refine ⟨permutation.symm symbol, here, ?_⟩
    rw [← agree _ (about wire sort _ here), Equiv.apply_symm_apply]
  · rintro ⟨other, here, rfl⟩
    rw [← agree other (about wire sort other here)]
    exact known sort other here

/-- With its symbols permuted a graph has its signature, renamed. -/
theorem infer_permuted (agree : ∀ symbol ∈ namedBy graph.sites, permutation symbol = rename symbol)
    {signature : Signature} (inferred : graph.infer false = .ok signature) :
    (graph.rename permutation).infer false = .ok (signature.rename rename) := by
  obtain ⟨faultless, rfl⟩ := infer_eq_ok_iff.mp inferred
  have back := graph.follows_rename_back permutation
  have faultlessThere := back.faultless_of_known (size_facts _ _) (graph.size_facts _)
    (back.known permutation.symm.injective faultless) faultless
  refine infer_eq_ok_iff.mpr ⟨faultlessThere, Eq.symm ?_⟩
  exact signature_rename (facts_rename agree faultless faultlessThere)

/-- Time is up before the first site, if it is up at all. -/
theorem infer_eq_ite (graph : PortGraph) (expired : Bool) :
    graph.infer expired =
      if expired && !graph.sites.isEmpty then .error .deadline else graph.infer false :=
  rfl

/-- Inference succeeds with the symbols permuted exactly if it does so before. -/
theorem infer_rename
    (agree : ∀ symbol ∈ namedBy graph.sites, permutation symbol = rename symbol) (expired : Bool) :
    ((graph.rename permutation).infer expired).toOption =
      (graph.infer expired).toOption.map (Signature.rename rename) := by
  have sites : (graph.rename permutation).sites.isEmpty = graph.sites.isEmpty := by
    rw [sites_rename, List.isEmpty_map]
  rw [infer_eq_ite, infer_eq_ite graph, sites]
  split
  · rfl
  · cases here : graph.infer false with
    | ok signature => rw [infer_permuted agree here]; rfl
    | error error =>
        cases there : (graph.rename permutation).infer false with
        | error error => rfl
        | ok signature =>
            have back := infer_permuted (fun _ _ => rfl : ∀ symbol ∈ namedBy _,
              permutation.symm symbol = permutation.symm symbol) there
            rw [rename_symm, here] at back
            cases back

end PortGraph

end FlowDiagram

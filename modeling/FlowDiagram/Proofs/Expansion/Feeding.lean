import FlowDiagram.Proofs.Expansion.Connected
import FlowDiagram.Proofs.Expansion.Deepening

/-!
# What feeds a port

In the nested diagram one link at most ends at a port, so that all ports from which links lead to
the same port lie in one row, and none comes before a source of the graph.  What feeds a node or a
root output one level deeper therefore also lies before what fed it: in place of each source the
deeper graph has one that feeds all that the source fed.
-/

namespace FlowDiagram

variable {program : ResolvedProgram} {root : ResolvedDefinition} {graph : PortGraph}

/-! ## Links that end at one port -/

/-- A port at which links end tells in which body they do, and there at which end of a link. -/
theorem targetPort?_injective {body other : ResolvedDefinition} {path otherPath : List String}
    {stop otherStop : LinkEnd} {port : Port} (found : body.targetPort? path stop = some port)
    (foundOther : other.targetPort? otherPath otherStop = some port) :
    path = otherPath ∧ (body = other → (body.uses.map (·.name)).Nodup → stop = otherStop) := by
  cases stop with
  | boundary number =>
      cases found
      cases otherStop with
      | boundary otherNumber =>
          cases foundOther
          exact ⟨rfl, fun _ _ => rfl⟩
      | use otherUse otherNumber =>
          obtain ⟨used, -, same⟩ := Option.map_eq_some_iff.mp foundOther
          cases same
  | use use number =>
      obtain ⟨used, hused, rfl⟩ := Option.map_eq_some_iff.mp found
      cases otherStop with
      | boundary otherNumber => cases foundOther
      | use otherUse otherNumber =>
          obtain ⟨otherUsed, hother, same⟩ := Option.map_eq_some_iff.mp foundOther
          obtain ⟨paths, -, rfl⟩ := Port.mk.inj same
          obtain ⟨rfl, names⟩ := List.append_inj' paths rfl
          refine ⟨rfl, ?_⟩
          rintro rfl distinct
          have below := (List.getElem?_eq_some_iff.mp hused).1
          have sameUse : use = otherUse := by
            refine (List.getElem?_inj (by simpa using below) distinct).mp ?_
            rw [List.getElem?_map, List.getElem?_map, hused, hother, Option.map_some,
              Option.map_some, List.singleton_inj.mp names]
          rw [sameUse]

namespace PortGraph

/-- One link at most ends at a port. -/
theorem Wired.source_unique (sound : program.Sound) (known : root ∈ program.definitions)
    {source other target : Port} (wired : Wired program root graph source target)
    (otherWired : Wired program root graph other target) : source = other := by
  obtain ⟨-, found, member, starts, ends⟩ := wired
  obtain ⟨-, otherFound, otherMember, otherStarts, otherEnds⟩ := otherWired
  obtain ⟨rfl, stops⟩ := targetPort?_injective ends otherEnds
  cases found.symm.trans otherFound
  have bodySound := sound _ (ResolvedProgram.bodyAt?_mem known found)
  have sameStop := stops rfl bodySound.names_distinct
  rw [List.inj_on_of_nodup_map bodySound.targets_distinct member otherMember sameStop] at starts
  exact Option.some.inj (starts.symm.trans otherStarts)

/-- Of two ports that are linked to the same, one is or comes before the other. -/
theorem Linked.comparable (sound : program.Sound) (known : root ∈ program.definitions)
    {source other target : Port} (linked : Linked program root graph source target)
    (otherLinked : Linked program root graph other target) :
    Relation.ReflTransGen (Wired program root graph) source other ∨
      Relation.ReflTransGen (Wired program root graph) other source := by
  have unique : Relator.RightUnique (Function.swap (Wired program root graph)) :=
    fun _ _ _ first second => Wired.source_unique sound known first second
  have back := Relation.ReflTransGen.total_of_right_unique unique linked.to_reflTransGen.swap
    otherLinked.to_reflTransGen.swap
  exact back.symm.imp Relation.reflTransGen_swap.mp Relation.reflTransGen_swap.mp

end PortGraph

/-! ## Sources -/

/-- No link ends at a source of the graph. -/
theorem Unfolding.PlannedBy.not_wired {depth : Nat} {top : Scope} {binding : List Symbol}
    {unfolding : Unfolding} (sound : program.Sound) (rootPath : top.path = [])
    (planned : unfolding.PlannedBy program depth top binding graph) {source : Endpoint}
    {port : Port} (found : graph.sourcePort? source = some port) (before : Port) :
    ¬ PortGraph.Wired program top.body graph before port := by
  intro wired
  obtain ⟨place, member, starts⟩ := planned.start_of_port rootPath found
  obtain ⟨_, stop, -, -, ends⟩ := (planned.wired_iff sound rootPath).mp wired
  exact planned.traced.starts member stop
    ((planned.traced.onward_iff sound rootPath ends).mpr starts)

/-- Nothing comes before a source of the graph. -/
theorem Unfolding.PlannedBy.eq_of_before {depth : Nat} {top : Scope} {binding : List Symbol}
    {unfolding : Unfolding} (sound : program.Sound) (rootPath : top.path = [])
    (planned : unfolding.PlannedBy program depth top binding graph) {source : Endpoint}
    {before port : Port} (found : graph.sourcePort? source = some port)
    (leads : Relation.ReflTransGen (PortGraph.Wired program top.body graph) before port) :
    before = port := by
  rcases Relation.ReflTransGen.cases_tail leads with same | ⟨last, -, wired⟩
  · exact same.symm
  · exact absurd wired (planned.not_wired sound rootPath found last)

/-! ## One level deeper -/

/--
In place of each source of a graph, the deeper graph has one that feeds all that the source fed and
that is there still; a source that is there still is its own place.
-/
theorem ResolvedProgram.exists_feeding {program : ResolvedProgram} (sound : program.Sound)
    {root : program.Index} {generators deeperGenerators : Option (List Symbol)}
    {limits deeperLimits : UnfoldingLimits} {graph deeper : PortGraph}
    (expanded : program.expand root generators limits = .ok graph)
    (expandedDeeper : program.expand root deeperGenerators deeperLimits = .ok deeper)
    (connected : deeper.Connected) {depth : Nat} {rename : Symbol → Symbol} {place : Nat → Nat}
    (refined : graph.RefinedBy deeper depth rename place) :
    ∃ feeding : Endpoint → Endpoint,
      (∀ source, graph.Lasting source → feeding source = source.move place) ∧
      ∀ source target, ⟨source, target⟩ ∈ graph.edges → graph.Lasting target →
        ⟨feeding source, target.move place⟩ ∈ deeper.edges := by
  obtain ⟨_, _, -, shown⟩ := shown_of_expand sound expanded
  obtain ⟨_, _, -, deeperShown⟩ := shown_of_expand sound expandedDeeper
  obtain ⟨-, outputs⟩ := boundary_of_expand sound expanded expandedDeeper
  have known := definition_mem root
  -- an edge to what stays is one of ports that are linked in the deeper graph too
  have linked : ∀ source target, ⟨source, target⟩ ∈ graph.edges → graph.Lasting target →
      ∃ from_ onto, graph.sourcePort? source = some from_ ∧
        deeper.targetPort? (target.move place) = some onto ∧
        PortGraph.Linked program (program.definition root) deeper from_ onto := by
    intro source target member lasts
    obtain ⟨from_, onto, hfrom, honto, linked⟩ := (shown.mem_edges_iff sound rfl).mp member
    refine ⟨from_, onto, hfrom, ?_, linked.mono fun path expands =>
      expands.refined refined.instances⟩
    exact (PortGraph.targetPort?_move outputs refined.nodes lasts).trans honto
  have each : ∀ source, ∃ there : Endpoint,
      (graph.Lasting source → there = source.move place) ∧
      ∀ target, ⟨source, target⟩ ∈ graph.edges → graph.Lasting target →
        ⟨there, target.move place⟩ ∈ deeper.edges := by
    intro source
    by_cases lasts : graph.Lasting source
    · exact ⟨source.move place, fun _ => rfl, fun target member targetLasts =>
        refined.edges ⟨source, target⟩ member lasts targetLasts⟩
    by_cases fed : ∃ target, ⟨source, target⟩ ∈ graph.edges ∧ graph.Lasting target
    · obtain ⟨target, member, targetLasts⟩ := fed
      obtain ⟨from_, onto, hfrom, honto, chain⟩ := linked source target member targetLasts
      obtain ⟨there, feeds, -⟩ := connected.feedingSource (PortGraph.hasTarget_of_port honto)
      obtain ⟨first, last, hfirst, hlast, deeperChain⟩ :=
        (deeperShown.mem_edges_iff sound rfl).mp ((feeds there).mpr rfl)
      cases honto.symm.trans hlast
      have before : Relation.ReflTransGen
          (PortGraph.Wired program (program.definition root) deeper) first from_ := by
        rcases PortGraph.Linked.comparable sound known deeperChain chain with before | after
        · exact before
        · rw [deeperShown.eq_of_before sound rfl hfirst after]
      refine ⟨there, fun sourceLasts => absurd sourceLasts lasts, ?_⟩
      intro other otherMember otherLasts
      obtain ⟨same, otherOnto, hsame, hother, otherChain⟩ :=
        linked source other otherMember otherLasts
      cases hfrom.symm.trans hsame
      exact (deeperShown.mem_edges_iff sound rfl).mpr
        ⟨first, otherOnto, hfirst, hother, Relation.TransGen.trans_right before otherChain⟩
    · exact ⟨source, fun sourceLasts => absurd sourceLasts lasts, fun target member targetLasts =>
        absurd ⟨target, member, targetLasts⟩ fed⟩
  exact ⟨fun source => (each source).choose, fun source => (each source).choose_spec.1,
    fun source => (each source).choose_spec.2⟩

end FlowDiagram

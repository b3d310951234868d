import FlowDiagram.Proofs.Signature.Following
import Mathlib.Order.Lattice.Nat

/-!
# Other orders of work

Sites may take their turns in any order.  Where an order ends with all sites at rest and without a
fault, its facts are closed under the rules of all sites, and no turns can lead to more; so two such
orders end with the same facts.  Every order in which each site has a turn again and again comes to
rest, as there are only so many facts.
-/

namespace FlowDiagram

/-! ## Growing from turn to turn -/

namespace Facts

/-- Turns only ever add facts. -/
theorem free_turns (facts : Facts) (order : List Site) :
    Grows .anything facts (order.foldl turn facts) :=
  .foldl (fun facts site _ => facts.free_turn site) facts

/-- Two states that grow into each other are the same. -/
theorem Grows.antisymm {view other : View} {before after : Facts} (grows : Grows view before after)
    (back : Grows other after before) : after = before := by
  refine eq_of_get grows.size fun wire => PortType.eq_of_known fun sort symbol => ?_
  exact ⟨back.keeps wire sort symbol, grows.keeps wire sort symbol⟩

/-- If the turns of some sites change nothing in the end, each of these sites is at rest. -/
theorem atRest_of_turns {facts : Facts} {order : List Site}
    (unchanged : order.foldl turn facts = facts) : ∀ site ∈ order, site.AtRest facts := by
  induction order with
  | nil => simp
  | cons site rest ih =>
      -- what the first turn adds, the others cannot take away
      have back := (facts.turn site).free_turns rest
      rw [List.foldl_cons] at unchanged
      rw [unchanged] at back
      have first : facts.turn site = facts := (facts.free_turn site).antisymm back
      rw [first] at unchanged
      exact List.forall_mem_cons.mpr ⟨first, ih unchanged⟩

end Facts

namespace PortGraph

variable {graph : PortGraph} {order : List Site}

theorem after_append (graph : PortGraph) (order more : List Site) :
    graph.after (order ++ more) = more.foldl Facts.turn (graph.after order) :=
  List.foldl_append

/-- Further turns only add facts. -/
theorem free_after {longer : List Site} (begins : order <+: longer) :
    Facts.Grows .anything (graph.after order) (graph.after longer) := by
  obtain ⟨more, rfl⟩ := begins
  rw [after_append]
  exact (graph.after order).free_turns more

/-- All that turns tell is about the symbols that the sites of the graph name. -/
theorem after_about (within : order ⊆ graph.sites) :
    (graph.after order).Within (Facts.about (namedBy graph.sites)) :=
  (graph.grows_after fun site member => View.closed_of_symbols
    (fun _ acts => mem_namedBy (within member) acts) site.inputs site.outputs).within
    (Facts.within_unknown _ _)

/-- As turns go on, nothing changes any more from some time on. -/
theorem exists_last {orders : Nat → List Site} (within : ∀ turns, orders turns ⊆ graph.sites)
    (longer : ∀ turns, orders turns <+: orders (turns + 1)) :
    ∃ last, ∀ later, last ≤ later → graph.after (orders later) = graph.after (orders last) := by
  let wires := graph.sources.length
  let totals := Set.range fun turns => (graph.after (orders turns)).total wires
  have bounded : BddAbove totals := by
    refine ⟨2 * wires * (namedBy graph.sites).length, ?_⟩
    rintro _ ⟨turns, rfl⟩
    exact Facts.total_le (after_about (within turns)) wires
  -- from the time when the most is known, no more can be learned
  obtain ⟨last, most⟩ := Nat.sSup_mem (Set.range_nonempty _) bounded
  refine ⟨last, fun later from_last => ?_⟩
  have begins : orders last <+: orders later := by
    induction later, from_last using Nat.le_induction with
    | base => exact List.prefix_refl _
    | succ later _ ih => exact ih.trans (longer later)
  refine (free_after begins).eq_of_total (graph.size_after _) ?_
  have atMost : (graph.after (orders later)).total wires ≤ sSup totals :=
    le_csSup bounded ⟨later, rfl⟩
  exact atMost.trans_eq most.symm

/-! ## Orders that come to rest -/

/-- What facts say of a graph is what inference says: whether it fails, and the signature if not. -/
structure Concurs (graph : PortGraph) (facts : Facts) : Prop where
  faultless_iff : graph.typingFaults graph.sites facts = [] ↔
    ∃ signature, graph.infer false = .ok signature
  signature_eq : ∀ signature, graph.infer false = .ok signature →
    graph.signature facts = signature

/-- Two orders that come to rest end with the same facts, unless those have a fault. -/
theorem after_eq_of_faultless {other : List Site} (within : order ⊆ graph.sites)
    (otherWithin : other ⊆ graph.sites)
    (atRest : ∀ site ∈ graph.sites, site.AtRest (graph.after order))
    (otherAtRest : ∀ site ∈ graph.sites, site.AtRest (graph.after other))
    (faultless : graph.typingFaults graph.sites (graph.after order) = []) :
    graph.after other = graph.after order := by
  have follows := Follows.refl graph
  have size := graph.size_after order
  have otherSize := graph.size_after other
  have known := follows.known_after Function.injective_id otherWithin size atRest faultless
  have otherFaultless := follows.faultless_of_known otherSize size known faultless
  have back :=
    follows.known_after Function.injective_id within otherSize otherAtRest otherFaultless
  refine Facts.eq_of_get (otherSize.trans size.symm) fun wire => ?_
  exact PortType.eq_of_known fun sort symbol => ⟨known wire sort symbol, back wire sort symbol⟩

/-- An order that comes to rest says of a graph what inference does. -/
theorem concurs_after (within : order ⊆ graph.sites)
    (atRest : ∀ site ∈ graph.sites, site.AtRest (graph.after order)) :
    graph.Concurs (graph.after order) := by
  obtain ⟨worked, workedWithin, turned⟩ := graph.facts_eq_after (List.Subset.refl graph.sites)
  have workedAtRest := graph.facts_atRest graph.sites_inside
  rw [turned] at workedAtRest
  have same (inferred : ∃ signature, graph.infer false = .ok signature) :
      graph.after order = graph.facts graph.sites := by
    obtain ⟨signature, inferred⟩ := inferred
    have faultless := (infer_eq_ok_iff.mp inferred).1
    rw [turned] at faultless ⊢
    exact after_eq_of_faultless workedWithin within workedAtRest atRest faultless
  constructor
  case faultless_iff =>
    constructor
    · intro faultless
      have same := after_eq_of_faultless within workedWithin atRest workedAtRest faultless
      rw [← same, ← turned] at faultless
      exact ⟨_, infer_eq_ok_iff.mpr ⟨faultless, rfl⟩⟩
    · intro inferred
      rw [same inferred]
      obtain ⟨signature, inferred⟩ := inferred
      exact (infer_eq_ok_iff.mp inferred).1
  case signature_eq =>
    intro signature inferred
    rw [same ⟨signature, inferred⟩]
    exact (infer_eq_ok_iff.mp inferred).2.symm

/-! ## Fair orders and sweeps -/

/-- In an order without an end, each site has a turn again and again. -/
structure Fair (graph : PortGraph) (order : Nat → Site) : Prop where
  sites : ∀ turn, order turn ∈ graph.sites
  again : ∀ site ∈ graph.sites, ∀ turn, ∃ later, turn ≤ later ∧ order later = site

/-- The first turns of an order without an end. -/
def firstTurns (order : Nat → Site) (turns : Nat) : List Site :=
  (List.range turns).map order

theorem firstTurns_succ (order : Nat → Site) (turns : Nat) :
    firstTurns order (turns + 1) = firstTurns order turns ++ [order turns] := by
  simp [firstTurns, List.range_succ]

theorem Fair.firstTurns_subset {order : Nat → Site} (fair : graph.Fair order) (turns : Nat) :
    firstTurns order turns ⊆ graph.sites := by
  intro site member
  obtain ⟨turn, -, rfl⟩ := List.mem_map.mp member
  exact fair.sites turn

/-- A fair order comes to rest, and nothing changes from then on. -/
theorem Fair.exists_last {order : Nat → Site} (fair : graph.Fair order) :
    ∃ last, ∀ later, last ≤ later →
      graph.after (firstTurns order later) = graph.after (firstTurns order last) ∧
        ∀ site ∈ graph.sites, site.AtRest (graph.after (firstTurns order later)) := by
  obtain ⟨last, constant⟩ := PortGraph.exists_last fair.firstTurns_subset fun turns =>
    firstTurns_succ order turns ▸ List.prefix_append _ _
  refine ⟨last, fun later from_last => ⟨constant later from_last, fun site member => ?_⟩⟩
  -- a turn of the site that is still to come changes nothing
  obtain ⟨turn, from_later, rfl⟩ := fair.again site member later
  have before := constant turn (from_last.trans from_later)
  have after := constant (turn + 1) ((from_last.trans from_later).trans (Nat.le_succ turn))
  rw [firstTurns_succ, after_append] at after
  unfold Site.AtRest
  calc (graph.after (firstTurns order later)).turn (order turn)
      = (graph.after (firstTurns order turn)).turn (order turn) := by
        rw [constant later from_last, before]
    _ = graph.after (firstTurns order last) := after
    _ = graph.after (firstTurns order later) := (constant later from_last).symm

/-- What is known after one turn of each site in the order of the nodes. -/
def sweep (graph : PortGraph) (facts : Facts) : Facts :=
  graph.sites.foldl Facts.turn facts

/-- What is known after so many sweeps. -/
def swept (graph : PortGraph) (rounds : Nat) : Facts :=
  graph.sweep^[rounds] (.unknown graph.sources.length)

theorem swept_succ (graph : PortGraph) (rounds : Nat) :
    graph.swept (rounds + 1) = graph.sweep (graph.swept rounds) :=
  Function.iterate_succ_apply' ..

/-- The turns of so many sweeps. -/
def sweptOrder (graph : PortGraph) : Nat → List Site
  | 0 => []
  | rounds + 1 => graph.sweptOrder rounds ++ graph.sites

theorem swept_eq_after (graph : PortGraph) (rounds : Nat) :
    graph.swept rounds = graph.after (graph.sweptOrder rounds) := by
  induction rounds with
  | zero => rfl
  | succ rounds ih =>
      rw [swept_succ, ih, sweptOrder, after_append]
      rfl

theorem sweptOrder_subset (graph : PortGraph) (rounds : Nat) :
    graph.sweptOrder rounds ⊆ graph.sites := by
  induction rounds with
  | zero => exact List.nil_subset _
  | succ rounds ih => exact List.append_subset.mpr ⟨ih, List.Subset.refl _⟩

/-- Some sweep changes nothing. -/
theorem exists_idle_sweep (graph : PortGraph) :
    ∃ rounds, graph.swept (rounds + 1) = graph.swept rounds := by
  obtain ⟨last, constant⟩ := graph.exists_last graph.sweptOrder_subset fun _ =>
    List.prefix_append _ _
  refine ⟨last, ?_⟩
  rw [swept_eq_after, swept_eq_after]
  exact constant (last + 1) (Nat.le_succ last)

/-- Where a sweep changes nothing, all sites are at rest. -/
theorem atRest_of_idle_sweep {rounds : Nat}
    (idle : graph.swept (rounds + 1) = graph.swept rounds) :
    ∀ site ∈ graph.sites, site.AtRest (graph.swept rounds) := by
  rw [swept_succ] at idle
  exact Facts.atRest_of_turns idle

end PortGraph

end FlowDiagram

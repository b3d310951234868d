import FlowDiagram.Proofs.Signature.Agenda
import FlowDiagram.Proofs.Signature.Site
import Mathlib.Algebra.Order.BigOperators.Group.Finset

/-!
# Until nothing changes

The sites of a graph are applied in turn.  A site that is not at rest waits for its turn, and every
turn either ends the wait of one site or adds a fact.  As there are only so many facts, the turns
that are granted are enough to bring all sites to rest, and so to settle them.
-/

namespace FlowDiagram

/-! ## Amounts -/

namespace SymbolSet

theorem nodup (set : SymbolSet) : set.toList.Nodup :=
  set.increasing.imp (by
    rintro symbol _ less rfl
    exact String.lt_irrefl symbol less)

theorem size_le {set : SymbolSet} {symbols : List Symbol}
    (within : ∀ symbol ∈ set, symbol ∈ symbols) :
    set.size ≤ symbols.length :=
  (set.nodup.subperm within).length_le

/-- A set as large as one that it contains has no other members. -/
theorem mem_of_size_le {first second : SymbolSet} (within : ∀ symbol ∈ first, symbol ∈ second)
    (le : second.size ≤ first.size) {symbol : Symbol} (member : symbol ∈ second) :
    symbol ∈ first :=
  ((first.nodup.subperm within).perm_of_length_le le).mem_iff.mpr member

end SymbolSet

namespace Facts

variable {view : View} {before after : Facts}

theorem Grows.amount_le (grows : Grows view before after) (wire : Wire) :
    (before.amount wire).1 ≤ (after.amount wire).1 ∧
      (before.amount wire).2 ≤ (after.amount wire).2 :=
  ⟨SymbolSet.size_le (grows.keeps wire true), SymbolSet.size_le (grows.keeps wire false)⟩

/-- A wire of which no more is known than before is one of which the same is known. -/
theorem Grows.sameAt (grows : Grows view before after) {wire : Wire}
    (amount : after.amount wire = before.amount wire) : SameAt before after wire := by
  obtain ⟨includes, excludes⟩ := Prod.mk.inj amount
  intro sort symbol
  refine ⟨grows.keeps wire sort symbol, fun known => ?_⟩
  cases sort with
  | true => exact SymbolSet.mem_of_size_le (grows.keeps wire true) includes.le known
  | false => exact SymbolSet.mem_of_size_le (grows.keeps wire false) excludes.le known

/-- How many facts there are. -/
def total (facts : Facts) (wires : Nat) : Nat :=
  ∑ wire ∈ Finset.range wires, ((facts.amount wire).1 + (facts.amount wire).2)

theorem total_le {facts : Facts} {symbols : List Symbol} (within : facts.Within (about symbols))
    (wires : Nat) : facts.total wires ≤ 2 * wires * symbols.length := by
  have each : ∀ wire ∈ Finset.range wires,
      (facts.amount wire).1 + (facts.amount wire).2 ≤ 2 * symbols.length := by
    intro wire _
    have includes : (facts.amount wire).1 ≤ symbols.length :=
      SymbolSet.size_le (within wire true)
    have excludes : (facts.amount wire).2 ≤ symbols.length :=
      SymbolSet.size_le (within wire false)
    omega
  have summed := Finset.sum_le_card_nsmul _ _ _ each
  rw [Finset.card_range, Nat.nsmul_eq_mul] at summed
  unfold total
  calc _ ≤ wires * (2 * symbols.length) := summed
    _ = 2 * wires * symbols.length := by rw [Nat.mul_left_comm, Nat.mul_assoc]

theorem Grows.total_le (grows : Grows view before after) (wires : Nat) :
    before.total wires ≤ after.total wires :=
  Finset.sum_le_sum fun wire _ =>
    Nat.add_le_add (grows.amount_le wire).1 (grows.amount_le wire).2

theorem Grows.total_lt (grows : Grows view before after) {wires : Nat} {wire : Wire}
    (inside : wire < wires) (changed : after.amount wire ≠ before.amount wire) :
    before.total wires < after.total wires := by
  refine Finset.sum_lt_sum (fun wire _ =>
    Nat.add_le_add (grows.amount_le wire).1 (grows.amount_le wire).2)
    ⟨wire, Finset.mem_range.mpr inside, ?_⟩
  have le := grows.amount_le wire
  by_contra stays
  exact changed (Prod.ext (by omega) (by omega))

/-- Where there are no more facts than before, they are the same. -/
theorem Grows.eq_of_total (grows : Grows view before after) {wires : Nat}
    (size : before.size = wires) (total : after.total wires ≤ before.total wires) :
    after = before := by
  refine eq_of_get grows.size fun wire => ?_
  by_cases inside : wire < wires
  · by_contra differs
    have changed : after.amount wire ≠ before.amount wire :=
      fun same => differs (grows.sameAt same).get_eq.symm
    have more := grows.total_lt inside changed
    omega
  · have outside := Nat.not_lt.mp inside
    rw [get_of_size_le (by rwa [grows.size, size]), get_of_size_le (by rwa [size])]

end Facts

/-! ## One turn -/

/-- The numbers of the sites at the wires of a site of which its turn tells more. -/
def requeued (table : Array (List Nat)) (site : Site) (facts : Facts) : List Nat :=
  let after := facts.turn site
  let before := site.wires.map fun wire => (wire, facts.amount wire)
  (before.filter fun (wire, amount) => after.amount wire != amount).flatMap fun (wire, _) =>
    (table[wire]?).getD []

theorem applySite_eq (table : Array (List Nat)) (site : Site) (facts : Facts) (agenda : Agenda) :
    applySite table site facts agenda =
      (facts.turn site, (requeued table site facts).foldl Agenda.add agenda) := rfl

theorem mem_requeued {table : Array (List Nat)} {site : Site} {facts : Facts} {number : Nat} :
    number ∈ requeued table site facts ↔
      ∃ wire ∈ site.wires,
        (facts.turn site).amount wire ≠ facts.amount wire ∧ number ∈ (table[wire]?).getD [] := by
  unfold requeued
  simp only [List.mem_flatMap, List.mem_filter, List.mem_map, bne_iff_ne]
  constructor
  · rintro ⟨_, ⟨⟨wire, member, rfl⟩, changed⟩, noted⟩
    exact ⟨wire, member, changed, noted⟩
  · rintro ⟨wire, member, changed, noted⟩
    exact ⟨_, ⟨⟨wire, member, rfl⟩, changed⟩, noted⟩

/--
What holds between two turns: all facts are about known symbols, and what is not at rest waits.
-/
structure Working (wires : Nat) (sites : List Site) (symbols : List Symbol) (facts : Facts)
    (agenda : Agenda) : Prop where
  size : facts.size = wires
  within : facts.Within (Facts.about symbols)
  sound : agenda.Sound sites.length
  waits : ∀ (number : Nat) (site : Site), sites[number]? = some site → ¬ site.AtRest facts →
    number ∈ agenda.toList

/-- A bound on the turns still to come: those that wait, and all sites for each fact unknown. -/
def turnsLeft (wires : Nat) (sites : List Site) (symbols : List Symbol) (facts : Facts)
    (agenda : Agenda) : Nat :=
  agenda.toList.length + sites.length * (2 * wires * symbols.length - facts.total wires)

section

variable {wires : Nat} {sites : List Site} {symbols : List Symbol} {facts : Facts}
  {agenda rest : Agenda} {number : Nat} {site : Site}

/-- A turn keeps what holds between turns. -/
theorem Working.turn (working : Working wires sites symbols facts agenda)
    (inside : ∀ site ∈ sites, ∀ wire ∈ site.wires, wire < wires)
    (named : ∀ symbol, site.primitive.symbol? = some symbol → symbol ∈ symbols)
    (found : sites[number]? = some site) (next : agenda.next? = some (number, rest)) :
    Working wires sites symbols (facts.turn site)
      ((requeued (sitesAt wires sites) site facts).foldl Agenda.add rest) := by
  have grows := facts.grows_turn (View.closed_of_symbols named site.inputs site.outputs)
  obtain ⟨listed, -⟩ := Agenda.toList_eq_of_next next
  have restSound := working.sound.next next
  refine ⟨grows.size.trans working.size, grows.within working.within, restSound.addAll _, ?_⟩
  intro other otherSite otherFound restless
  have otherInside := (List.getElem?_eq_some_iff.mp otherFound).1
  by_cases changed : ∃ wire ∈ otherSite.wires, ¬ Facts.SameAt facts (facts.turn site) wire
  · -- a wire of which more is known now is one of the site whose turn it is
    obtain ⟨wire, member, differs⟩ := changed
    have touched : wire ∈ site.wires := by
      by_contra outside
      exact differs (site.sameAt_turn facts outside)
    have below := inside otherSite (List.mem_of_getElem? otherFound) wire member
    refine Agenda.mem_addAll restSound (mem_requeued.mpr ⟨wire, touched, ?_, ?_⟩) otherInside
    · exact fun same => differs (grows.sameAt same)
    · exact mem_sitesAt otherFound member below
  · simp only [not_exists, not_and, not_not] at changed
    have before : ¬ otherSite.AtRest facts :=
      fun atRest => restless (atRest.of_same grows.size changed)
    have waited := working.waits other otherSite otherFound before
    rw [listed, List.mem_cons] at waited
    rcases waited with rfl | waits
    · obtain rfl : site = otherSite := Option.some.inj (found.symm.trans otherFound)
      exact absurd (Site.atRest_of_sameOn changed) before
    · exact Agenda.mem_addAll_of_mem waits

/-- After a turn there are fewer to come. -/
theorem Working.turnsLeft_lt (working : Working wires sites symbols facts agenda)
    (inside : ∀ wire ∈ site.wires, wire < wires)
    (named : ∀ symbol, site.primitive.symbol? = some symbol → symbol ∈ symbols)
    (next : agenda.next? = some (number, rest)) :
    turnsLeft wires sites symbols (facts.turn site)
        ((requeued (sitesAt wires sites) site facts).foldl Agenda.add rest) <
      turnsLeft wires sites symbols facts agenda := by
  have grows := facts.grows_turn (View.closed_of_symbols named site.inputs site.outputs)
  obtain ⟨listed, -⟩ := Agenda.toList_eq_of_next next
  have restSound := working.sound.next next
  have bounded := Facts.total_le (grows.within working.within) wires
  unfold turnsLeft
  by_cases changed : ∃ wire ∈ site.wires, (facts.turn site).amount wire ≠ facts.amount wire
  · -- more is known, so all may wait
    obtain ⟨wire, member, differs⟩ := changed
    have more := grows.total_lt (inside wire member) differs
    have length := (restSound.addAll (requeued (sitesAt wires sites) site facts)).length_le
    have fewer :
        sites.length * (2 * wires * symbols.length - (facts.turn site).total wires) +
          sites.length ≤
        sites.length * (2 * wires * symbols.length - facts.total wires) := by
      rw [← Nat.mul_succ]
      exact Nat.mul_le_mul_left sites.length (by omega)
    rw [listed, List.length_cons]
    omega
  · -- nothing is requeued
    have none_requeued : requeued (sitesAt wires sites) site facts = [] := by
      refine List.eq_nil_iff_forall_not_mem.mpr fun other member => changed ?_
      obtain ⟨wire, touched, differs, -⟩ := mem_requeued.mp member
      exact ⟨wire, touched, differs⟩
    have fewer := Nat.mul_le_mul_left sites.length
      (Nat.sub_le_sub_left (grows.total_le wires) (2 * wires * symbols.length))
    rw [none_requeued, listed, List.foldl_nil, List.length_cons]
    omega

/-! ## All turns -/

/--
The turns of those that wait lead from some facts to others, with which nothing waits any more; as
long as something waits, it is the number of a site.
-/
inductive TurnsEnd (sites : List Site) (table : Array (List Nat)) :
    Facts → Agenda → Facts → Prop where
  | idle {facts : Facts} {agenda : Agenda} (none_waits : agenda.next? = none) :
      TurnsEnd sites table facts agenda facts
  | turn {facts final : Facts} {agenda rest : Agenda} {number : Nat} {site : Site}
      (next : agenda.next? = some (number, rest)) (found : sites[number]? = some site)
      (later : TurnsEnd sites table (applySite table site facts rest).1
        (applySite table site facts rest).2 final) :
      TurnsEnd sites table facts agenda final

/-- As many turns as are left lead to where nothing waits. -/
theorem Working.turnsEnd (working : Working wires sites symbols facts agenda)
    (inside : ∀ site ∈ sites, ∀ wire ∈ site.wires, wire < wires)
    (named : ∀ site ∈ sites, ∀ symbol, site.primitive.symbol? = some symbol → symbol ∈ symbols)
    {steps : Nat} (enough : turnsLeft wires sites symbols facts agenda ≤ steps) :
    TurnsEnd sites (sitesAt wires sites) facts agenda
      (applySites sites.toArray (sitesAt wires sites) steps facts agenda) := by
  induction steps generalizing facts agenda with
  | zero =>
      have idle : agenda.toList = [] := by
        unfold turnsLeft at enough
        exact List.eq_nil_of_length_eq_zero (by omega)
      exact .idle (Agenda.next_eq_none_iff.mpr idle)
  | succ steps ih =>
      unfold applySites
      cases next : agenda.next? with
      | none => exact .idle next
      | some taken =>
          obtain ⟨number, rest⟩ := taken
          have waits : number ∈ agenda.toList := by
            rw [(Agenda.toList_eq_of_next next).1]
            exact List.mem_cons_self
          have found := List.getElem?_eq_getElem (working.sound.lt waits)
          have member := List.mem_of_getElem? found
          have fewer := working.turnsLeft_lt (inside _ member) (named _ member) next
          have turned := working.turn inside (named _ member) found next
          simp only [List.getElem?_toArray, found]
          exact .turn next found (ih turned (Nat.le_of_lt_succ (fewer.trans_le enough)))

/-- The turns of those that wait are the turns of some sites in some order. -/
theorem TurnsEnd.exists_order {table : Array (List Nat)} {final : Facts}
    (turns : TurnsEnd sites table facts agenda final) :
    ∃ order ⊆ sites, order.foldl Facts.turn facts = final := by
  induction turns with
  | idle => exact ⟨[], List.nil_subset sites, rfl⟩
  | turn _ found _ ih =>
      obtain ⟨order, within, ends⟩ := ih
      exact ⟨_ :: order, List.cons_subset.mpr ⟨List.mem_of_getElem? found, within⟩, ends⟩

/-- Where the turns end, all sites are at rest. -/
theorem TurnsEnd.atRest {final : Facts}
    (turns : TurnsEnd sites (sitesAt wires sites) facts agenda final)
    (working : Working wires sites symbols facts agenda)
    (inside : ∀ site ∈ sites, ∀ wire ∈ site.wires, wire < wires)
    (named : ∀ site ∈ sites, ∀ symbol, site.primitive.symbol? = some symbol → symbol ∈ symbols) :
    ∀ site ∈ sites, site.AtRest final := by
  induction turns with
  | idle none_waits =>
      intro site member
      obtain ⟨number, found⟩ := List.getElem?_of_mem member
      by_contra restless
      have waits := working.waits number site found restless
      simp [Agenda.next_eq_none_iff.mp none_waits] at waits
  | turn next found _ ih =>
      exact ih (working.turn inside (named _ (List.mem_of_getElem? found)) found next)

end

/-- Turns add only what a view closed under the rules of all sites allows. -/
theorem applySites_grows {view : View} {sites : List Site} (table : Array (List Nat))
    (closed : ∀ site ∈ sites, view.Closed site.primitive site.inputs site.outputs)
    (steps : Nat) (facts : Facts) (agenda : Agenda) :
    Facts.Grows view facts (applySites sites.toArray table steps facts agenda) := by
  induction steps generalizing facts agenda with
  | zero => exact .refl facts
  | succ steps ih =>
      unfold applySites
      cases agenda.next? with
      | none => exact .refl facts
      | some taken =>
          obtain ⟨number, rest⟩ := taken
          cases found : sites[number]? with
          | none => simpa only [List.getElem?_toArray, found] using ih facts rest
          | some site =>
              have turn := facts.grows_turn (closed site (List.mem_of_getElem? found))
              simpa only [List.getElem?_toArray, found, applySite_eq] using turn.trans (ih _ _)

namespace PortGraph

/-- All that the rules imply in a graph is in any view that is closed under them. -/
theorem facts_within (graph : PortGraph) {view : View} {sites : List Site}
    (closed : ∀ site ∈ sites, view.Closed site.primitive site.inputs site.outputs) :
    (graph.facts sites).Within view :=
  (applySites_grows _ closed _ _ _).within (Facts.within_unknown view _)

/-- There are facts for each wire of a graph. -/
theorem size_facts (graph : PortGraph) (sites : List Site) :
    (graph.facts sites).size = graph.sources.length := by
  have free : ∀ site ∈ sites, View.anything.Closed site.primitive site.inputs site.outputs :=
    fun site _ => View.closed_of_wires site.primitive fun _ _ _ _ => trivial
  exact (applySites_grows _ free _ _ _).size.trans Array.size_replicate

/-- The symbols that some sites name. -/
def namedBy (sites : List Site) : List Symbol :=
  sites.filterMap (·.primitive.symbol?)

theorem mem_namedBy {sites : List Site} {site : Site} (member : site ∈ sites) {symbol : Symbol}
    (acts : site.primitive.symbol? = some symbol) : symbol ∈ namedBy sites :=
  List.mem_filterMap.mpr ⟨site, member, acts⟩

/-- Before the first turn nothing is known, and all sites wait. -/
theorem working_all (wires : Nat) (sites : List Site) :
    Working wires sites (namedBy sites) (.unknown wires) (.all sites.length) := by
  refine ⟨Array.size_replicate, Facts.within_unknown _ _, Agenda.all_sound _, ?_⟩
  intro number site found _
  rw [Agenda.toList_all]
  exact List.mem_range.mpr (List.getElem?_eq_some_iff.mp found).1

/-- All turns, starting with each site's, end with all that the rules imply in a graph. -/
theorem facts_turnsEnd (graph : PortGraph) {sites : List Site}
    (inside : ∀ site ∈ sites, ∀ wire ∈ site.wires, wire < graph.sources.length) :
    TurnsEnd sites (sitesAt graph.sources.length sites) (.unknown graph.sources.length)
      (.all sites.length) (graph.facts sites) := by
  refine (working_all _ sites).turnsEnd inside (fun _ member _ => mem_namedBy member) ?_
  unfold turnsLeft turnBound
  rw [Agenda.toList_all, List.length_range, Nat.mul_succ, Nat.add_comm]
  exact Nat.add_le_add_right (Nat.mul_le_mul_left _ (Nat.sub_le _ _)) _

/-- With all that the rules imply in a graph, its sites are at rest. -/
theorem facts_atRest (graph : PortGraph) {sites : List Site}
    (inside : ∀ site ∈ sites, ∀ wire ∈ site.wires, wire < graph.sources.length) :
    ∀ site ∈ sites, site.AtRest (graph.facts sites) :=
  (graph.facts_turnsEnd inside).atRest (working_all _ sites) inside
    fun _ member _ => mem_namedBy member

/-- All that the rules imply in a graph settles all its sites. -/
theorem facts_settled (graph : PortGraph) {sites : List Site}
    (fits : ∀ site ∈ sites, site.Fits graph.sources.length) :
    ∀ site ∈ sites, site.Settled (graph.facts sites) := by
  intro site member
  have atRest := graph.facts_atRest (fun site member => (fits site member).inside) site member
  exact atRest.settled (graph.size_facts sites ▸ fits site member)

end PortGraph

end FlowDiagram

import FlowDiagram.Proofs.Signature.Laws
import FlowDiagram.Proofs.Signature.Locality
import FlowDiagram.Signature.Inference

/-!
# Sites

A site is settled when what is possible at its wires obeys the law of its primitive.  It is at rest,
and thereby settled, when a turn of its own changes nothing, and it stays so until more is known of
one of its wires.
-/

namespace FlowDiagram

/-- A site has as many wires as its primitive has ports, and at least one goes in. -/
structure Site.Fits (wires : Nat) (site : Site) : Prop where
  inputs : site.inputs.length = site.primitive.inputs
  outputs : site.outputs.length = site.primitive.outputs
  fed : 0 < site.primitive.inputs
  inside : ∀ wire ∈ site.wires, wire < wires

/-- Two states of the facts tell the same of a wire. -/
def Facts.SameAt (before after : Facts) (wire : Wire) : Prop :=
  ∀ sort symbol, symbol ∈ (before.get wire).known sort ↔ symbol ∈ (after.get wire).known sort

/-- Of some wires, two states of the facts tell the same. -/
def Facts.SameOn (before after : Facts) (wires : List Wire) : Prop :=
  ∀ wire ∈ wires, Facts.SameAt before after wire

/-- What is known after the turn of a site. -/
def Facts.turn (facts : Facts) (site : Site) : Facts :=
  facts.apply site.primitive site.inputs site.outputs

/-- A turn of a site changes nothing. -/
def Site.AtRest (facts : Facts) (site : Site) : Prop :=
  facts.turn site = facts

/-- Unless known facts contradict each other, what is possible at a site obeys its law. -/
def Site.Settled (facts : Facts) (site : Site) : Prop :=
  (∀ wire ∈ site.wires, facts.Consistent wire) →
    site.primitive.Lawful (site.inputs.map facts.possible) (site.outputs.map facts.possible)

/-- The view of the facts about certain symbols. -/
def Facts.about (symbols : List Symbol) : View := fun _ _ symbol => symbol ∈ symbols

theorem Facts.SameAt.get_eq {before after : Facts} {wire : Wire}
    (same : Facts.SameAt before after wire) : before.get wire = after.get wire :=
  PortType.eq_of_known same

/-- A view that any fact about the wires of a primitive is in. -/
theorem View.closed_of_wires {view : View} (primitive : Primitive) {inputs outputs : List Wire}
    (free : ∀ wire ∈ inputs ++ outputs, ∀ sort symbol, view wire sort symbol) :
    view.Closed primitive inputs outputs := by
  have agrees : ∀ first ∈ inputs ++ outputs, ∀ second ∈ inputs ++ outputs, ∀ except,
      view.Agrees first second except := fun first inFirst second inSecond _ sort symbol _ =>
    iff_of_true (free first inFirst sort symbol) (free second inSecond sort symbol)
  have merges : ∀ output ∈ outputs, view.Merges inputs output := fun output member =>
    ⟨fun _ _ symbol _ => free output (List.mem_append_right _ member) true symbol,
      fun input inside symbol _ => free input (List.mem_append_left _ inside) false symbol,
      fun _ symbol _ => free output (List.mem_append_right _ member) false symbol,
      fun before only after split symbol _ _ =>
        free only (List.mem_append_left _ (split ▸ by simp)) true symbol⟩
  unfold View.Closed
  split
  · exact ⟨free _ (by simp) _ _, free _ (by simp) _ _, agrees _ (by simp) _ (by simp) _⟩
  · exact ⟨free _ (by simp) _ _, free _ (by simp) _ _, agrees _ (by simp) _ (by simp) _⟩
  · exact ⟨free _ (by simp) _ _, agrees _ (by simp) _ (by simp) _⟩
  · exact merges _ List.mem_cons_self
  · exact merges _ List.mem_cons_self
  · exact fun output member => agrees _ (by simp) output (by simp [member]) none
  · trivial

/-- The rules of a primitive speak of no symbol but its own and those that are known. -/
theorem View.closed_of_symbols {symbols : List Symbol} {primitive : Primitive}
    (named : ∀ symbol, primitive.symbol? = some symbol → symbol ∈ symbols)
    (inputs outputs : List Wire) : (Facts.about symbols).Closed primitive inputs outputs := by
  have agrees : ∀ first second except, (Facts.about symbols).Agrees first second except :=
    fun _ _ _ _ _ _ => Iff.rfl
  have merges : ∀ output, (Facts.about symbols).Merges inputs output := fun output =>
    ⟨fun _ _ _ known => known, fun _ _ _ known => known,
      fun fed _ all => all (inputs.head fed) (List.head_mem fed), fun _ _ _ _ _ known _ => known⟩
  unfold View.Closed
  split
  · exact ⟨named _ rfl, named _ rfl, agrees _ _ _⟩
  · exact ⟨named _ rfl, named _ rfl, agrees _ _ _⟩
  · exact ⟨named _ rfl, agrees _ _ _⟩
  · exact merges _
  · exact merges _
  · exact fun output _ => agrees _ output none
  · trivial

/-- A turn adds only what a view closed under the rules of the site allows. -/
theorem Facts.grows_turn (facts : Facts) {view : View} {site : Site}
    (closed : view.Closed site.primitive site.inputs site.outputs) :
    Grows view facts (facts.turn site) :=
  facts.grows_apply closed

/-- A turn only ever adds facts. -/
theorem Facts.free_turn (facts : Facts) (site : Site) : Grows .anything facts (facts.turn site) :=
  facts.grows_turn (View.closed_of_wires site.primitive fun _ _ _ _ => trivial)

/-- A turn of a site leaves all other wires as they are. -/
theorem Site.sameAt_turn (facts : Facts) (site : Site) {wire : Wire}
    (outside : wire ∉ site.wires) : Facts.SameAt facts (facts.turn site) wire := by
  let view : View := fun wire sort symbol =>
    wire ∈ site.wires ∨ symbol ∈ (facts.get wire).known sort
  have closed : view.Closed site.primitive site.inputs site.outputs :=
    View.closed_of_wires site.primitive fun wire member sort symbol => .inl member
  have grows := facts.grows_turn closed
  intro sort symbol
  refine ⟨grows.keeps wire sort symbol, fun known => ?_⟩
  have within := grows.within (fun wire sort symbol known => .inr known) wire sort symbol known
  exact within.resolve_left outside

/-! ## Rest -/

/-- A site is at rest when its turn tells nothing new of its own wires. -/
theorem Site.atRest_of_sameOn {facts : Facts} {site : Site}
    (same : Facts.SameOn facts (facts.turn site) site.wires) : site.AtRest facts := by
  refine Facts.eq_of_get (facts.free_turn site).size fun wire => ?_
  by_cases member : wire ∈ site.wires
  · exact (same wire member).get_eq.symm
  · exact (site.sameAt_turn facts member).get_eq.symm

/-- A site stays at rest while the same is known of its wires. -/
theorem Site.AtRest.of_same {before after : Facts} {site : Site} (atRest : site.AtRest before)
    (size : after.size = before.size) (same : Facts.SameOn before after site.wires) :
    site.AtRest after := by
  have alike : Facts.Alike site.wires before after :=
    ⟨size.symm, fun wire member => (same wire member).get_eq⟩
  have turned : Facts.Alike site.wires (before.turn site) (after.turn site) :=
    alike.apply site.primitive (List.Subset.refl _)
  refine Site.atRest_of_sameOn fun wire member sort symbol => ?_
  have told : (after.turn site).get wire = after.get wire := by
    rw [← turned.get wire member, atRest, alike.get wire member]
  rw [told]

/-- A site at rest is settled. -/
theorem Site.AtRest.settled {facts : Facts} {site : Site} (atRest : site.AtRest facts)
    (fits : site.Fits facts.size) : site.Settled facts := by
  have unchanged : (facts.turn site).KnownIn facts site.wires := by
    rw [atRest]
    exact fun _ _ _ _ known => known
  exact Facts.lawful_of_unchanged fits.inputs fits.outputs fits.fed fits.inside unchanged

/-! ## The sites at a wire -/

/-- Note the number of a site at all its wires. -/
def recordSite (table : Array (List Nat)) (entry : Site × Nat) : Array (List Nat) :=
  entry.1.wires.foldl (fun table wire => table.modify wire (entry.2 :: ·)) table

theorem sitesAt_eq (wires : Nat) (sites : List Site) :
    sitesAt wires sites =
      (sites.zipIdx.foldl recordSite (Array.replicate wires [])).map List.reverse := rfl

theorem size_recordSite (table : Array (List Nat)) (entry : Site × Nat) :
    (recordSite table entry).size = table.size := by
  unfold recordSite
  induction entry.1.wires generalizing table with
  | nil => rfl
  | cons wire rest ih => rw [List.foldl_cons, ih, Array.size_modify]

theorem mem_modify_cons {table : Array (List Nat)} {wire target number other : Nat} :
    other ∈ ((table.modify target (number :: ·))[wire]?).getD [] ↔
      other ∈ (table[wire]?).getD [] ∨ wire = target ∧ wire < table.size ∧ other = number := by
  rw [Array.getElem?_modify]
  cases hlist : table[wire]? with
  | none =>
      have outside := Array.getElem?_eq_none_iff.mp hlist
      simp [Nat.not_lt.mpr outside]
  | some list =>
      have inside := (Array.getElem?_eq_some_iff.mp hlist).1
      by_cases same : target = wire
      · simp [same, inside, or_comm]
      · simp [same, Ne.symm same]

theorem mem_recordSite {entry : Site × Nat} {table : Array (List Nat)} {wire other : Nat} :
    other ∈ ((recordSite table entry)[wire]?).getD [] ↔
      other ∈ (table[wire]?).getD [] ∨
        wire ∈ entry.1.wires ∧ wire < table.size ∧ other = entry.2 := by
  unfold recordSite
  induction entry.1.wires generalizing table with
  | nil => simp
  | cons first rest ih =>
      rw [List.foldl_cons, ih, mem_modify_cons, Array.size_modify, List.mem_cons]
      grind

theorem mem_recordSites {entries : List (Site × Nat)} {table : Array (List Nat)}
    {wire other : Nat} :
    other ∈ ((entries.foldl recordSite table)[wire]?).getD [] ↔
      other ∈ (table[wire]?).getD [] ∨
        wire < table.size ∧ ∃ site, (site, other) ∈ entries ∧ wire ∈ site.wires := by
  induction entries generalizing table with
  | nil => simp
  | cons entry rest ih =>
      rw [List.foldl_cons, ih, mem_recordSite, size_recordSite]
      simp only [List.mem_cons]
      grind

/-- The number of a site is noted at each of its wires. -/
theorem mem_sitesAt {wires : Nat} {sites : List Site} {number : Nat} {site : Site} {wire : Wire}
    (found : sites[number]? = some site) (member : wire ∈ site.wires) (inside : wire < wires) :
    number ∈ ((sitesAt wires sites)[wire]?).getD [] := by
  have recorded : number ∈
      ((sites.zipIdx.foldl recordSite (Array.replicate wires []))[wire]?).getD [] := by
    refine mem_recordSites.mpr (.inr ⟨by simpa using inside, site, ?_, member⟩)
    exact List.mem_zipIdx_iff_getElem?.mpr found
  rw [sitesAt_eq, Array.getElem?_map]
  cases hlist : (sites.zipIdx.foldl recordSite (Array.replicate wires []))[wire]? with
  | none => simp [hlist] at recorded
  | some list => simpa [hlist] using recorded

end FlowDiagram

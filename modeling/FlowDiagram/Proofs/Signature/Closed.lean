import FlowDiagram.Proofs.Signature.Inference

/-!
# Facts closed under the rules

Facts without a fault with which all sites are at rest are themselves closed under the rules of all
sites, and so is what they say of the sites of another graph, if these are sites of the graph when
wires and symbols are renamed.
-/

namespace FlowDiagram

/-! ## Pulling views back -/

section Pullback

variable {view other : View} {along : Wire → Wire} {rename : Symbol → Symbol}

/-- What one view says of a wire, another says of the wire that it is mapped to, symbols renamed. -/
def View.PullsBack (view other : View) (along : Wire → Wire) (rename : Symbol → Symbol)
    (wire : Wire) : Prop :=
  ∀ sort symbol, other wire sort symbol ↔ view (along wire) sort (rename symbol)

theorem View.Agrees.pullBack (injective : Function.Injective rename) {first second : Wire}
    {except : Option Symbol} (firstBack : view.PullsBack other along rename first)
    (secondBack : view.PullsBack other along rename second)
    (agrees : view.Agrees (along first) (along second) (except.map rename)) :
    other.Agrees first second except := by
  intro sort symbol different
  rw [firstBack, secondBack]
  refine agrees sort (rename symbol) fun same => different ?_
  exact Option.map_injective injective same

theorem View.Merges.pullBack {inputs : List Wire} {output : Wire}
    (back : ∀ wire ∈ inputs ++ [output], view.PullsBack other along rename wire)
    (merges : view.Merges (inputs.map along) (along output)) : other.Merges inputs output := by
  have inputBack : ∀ input ∈ inputs, view.PullsBack other along rename input :=
    fun input member => back input (List.mem_append_left _ member)
  have outputBack : view.PullsBack other along rename output := back output (by simp)
  constructor
  case carried =>
    intro input member symbol known
    rw [outputBack]
    exact merges.carried _ (List.mem_map_of_mem member) _ ((inputBack input member _ _).mp known)
  case lacked =>
    intro input member symbol known
    rw [inputBack input member]
    exact merges.lacked _ (List.mem_map_of_mem member) _ ((outputBack _ _).mp known)
  case lackedByAll =>
    intro fed symbol all
    rw [outputBack]
    refine merges.lackedByAll (by simpa using fed) _ fun there image => ?_
    obtain ⟨input, member, rfl⟩ := List.mem_map.mp image
    exact (inputBack input member _ _).mp (all input member)
  case supplied =>
    rintro before only after rfl symbol known others
    rw [inputBack only (by simp)]
    refine merges.supplied (before.map along) (along only) (after.map along) (by simp) _
      ((outputBack _ _).mp known) fun there image => ?_
    rw [← List.map_append] at image
    obtain ⟨input, member, rfl⟩ := List.mem_map.mp image
    have inside : input ∈ before ++ only :: after := by
      simp only [List.mem_append, List.mem_cons] at member ⊢
      exact member.imp_right .inr
    exact (inputBack input inside _ _).mp (others input member)

/-- Pulled back from a view that is closed under the rules of a primitive, a view is so too. -/
theorem View.Closed.pullBack (injective : Function.Injective rename) {primitive : Primitive}
    {inputs outputs : List Wire}
    (back : ∀ wire ∈ inputs ++ outputs, view.PullsBack other along rename wire)
    (closed : view.Closed (primitive.rename rename) (inputs.map along) (outputs.map along)) :
    other.Closed primitive inputs outputs := by
  unfold View.Closed
  split
  · rename_i input _ output _
    obtain ⟨carried, lacked, agrees⟩ := closed
    have inputBack := back input (by simp)
    have outputBack := back output (by simp)
    exact ⟨(outputBack _ _).mpr carried, (inputBack _ _).mpr lacked,
      agrees.pullBack injective inputBack outputBack⟩
  · rename_i input _ output _
    obtain ⟨carried, lacked, agrees⟩ := closed
    have inputBack := back input (by simp)
    have outputBack := back output (by simp)
    exact ⟨(inputBack _ _).mpr carried, (outputBack _ _).mpr lacked,
      agrees.pullBack injective inputBack outputBack⟩
  · rename_i input _ output _
    obtain ⟨carried, agrees⟩ := closed
    have outputBack := back output (by simp)
    exact ⟨(outputBack _ _).mpr carried,
      agrees.pullBack injective (back input (by simp)) outputBack⟩
  · exact View.Merges.pullBack (fun wire member => back wire (by simp at member ⊢; grind)) closed
  · exact View.Merges.pullBack (fun wire member => back wire (by simp at member ⊢; grind)) closed
  · rename_i input _
    intro output member
    have agrees := closed (along output) (List.mem_map_of_mem member)
    exact agrees.pullBack injective (back input (by simp)) (back output (by simp [member]))
  · trivial

end Pullback

/-! ## Where the rules have nothing to add -/

/-- Each symbol known to come out of a merge may come in at one of its inputs. -/
def Facts.Supplies (facts : Facts) (inputs : List Wire) (output : Wire) : Prop :=
  ∀ symbol ∈ (facts.get output).includes, ∃ input ∈ inputs, symbol ∉ (facts.get input).excludes

namespace Facts

variable {facts middle : Facts} {wires before after : List Wire} {only : Wire}

/-- Where a supply adds nothing, the one input that may carry the symbol does. -/
theorem supply_known {symbol : Symbol} (inside : only ∈ wires ∧ only < middle.size)
    (others : ∀ input ∈ before ++ after,
      symbol ∈ (middle.get input).excludes ∧ symbol ∉ (middle.get input).includes)
    (possible : symbol ∉ (middle.get only).excludes)
    (unchanged : (supply (before ++ only :: after) middle symbol).KnownIn facts wires) :
    symbol ∈ (facts.get only).includes := by
  have candidates : (before ++ only :: after).filter
      (fun wire => decide (symbol ∉ (middle.get wire).excludes)) = [only] := by
    refine List.filter_eq_cons_iff.mpr ⟨before, after, rfl, ?_, by simpa using possible, ?_⟩
    · intro input member
      simpa using (others input (List.mem_append_left after member)).1
    · refine List.filter_eq_nil_iff.mpr fun input member => ?_
      simpa using (others input (List.mem_append_right before member)).1
  unfold supply at unchanged
  split at unchanged
  · rename_i carried
    obtain ⟨input, member, carries⟩ := List.any_eq_true.mp carried
    rw [decide_eq_true_iff] at carries
    rw [List.mem_append, List.mem_cons] at member
    rcases member with inBefore | rfl | inAfter
    · exact absurd carries (others input (List.mem_append_left after inBefore)).2
    · exact unchanged input inside.1 true symbol carries
    · exact absurd carries (others input (List.mem_append_right before inAfter)).2
  · rw [candidates] at unchanged
    exact carry_known inside.1 inside.2 unchanged (SymbolSet.mem_singleton.mpr rfl)

/-- Where all supplies add nothing, so it is for each symbol. -/
theorem supplies_known {symbols : List Symbol} (grows : Grows .anything facts middle)
    (inside : ∀ input ∈ before ++ only :: after, input ∈ wires ∧ input < facts.size)
    (consistent : ∀ wire ∈ wires, facts.Consistent wire)
    (unchanged : (symbols.foldl (supply (before ++ only :: after)) middle).KnownIn facts wires)
    {symbol : Symbol} (member : symbol ∈ symbols)
    (others : ∀ input ∈ before ++ after, symbol ∈ (facts.get input).excludes)
    (possible : symbol ∉ (facts.get only).excludes) : symbol ∈ (facts.get only).includes := by
  have here : only ∈ wires ∧ only < facts.size := inside only (by simp)
  induction symbols generalizing middle with
  | nil => cases member
  | cons first rest ih =>
      have later : Grows .anything (supply (before ++ only :: after) middle first)
          (rest.foldl (supply (before ++ only :: after))
            (supply (before ++ only :: after) middle first)) :=
        grows_supplies (View.anything_merges _ only) _ fun _ _ _ => trivial
      have supplied : Grows .anything middle (supply (before ++ only :: after) middle first) :=
        grows_supply middle (View.anything_merges _ only) fun _ => trivial
      rcases List.mem_cons.mp member with rfl | inRest
      · have firstUnchanged := unchanged.before later
        -- between the facts and what they end in again, the same is known
        have backwards : middle.KnownIn facts wires := firstUnchanged.before supplied
        refine supply_known ⟨here.1, grows.size ▸ here.2⟩ (fun input touched => ?_) ?_
          firstUnchanged
        · have listed : input ∈ before ++ only :: after := by
            simp only [List.mem_append, List.mem_cons] at touched ⊢
            exact touched.imp_right .inr
          have inWires := (inside input listed).1
          have lacked := others input touched
          exact ⟨grows.keeps input false symbol lacked, fun carried =>
            consistent input inWires symbol (backwards input inWires true symbol carried) lacked⟩
        · exact fun lacked => possible (backwards only here.1 false symbol lacked)
      · exact ih (grows.trans supplied) unchanged inRest

/-- Where a merge has nothing to add to consistent facts, they are closed under its rules. -/
theorem merges_of_unchanged {inputs : List Wire} {output : Wire}
    (inputsInside : ∀ input ∈ inputs, input ∈ wires ∧ input < facts.size)
    (outputInside : output ∈ wires ∧ output < facts.size)
    (unchanged : (facts.merge inputs output).KnownIn facts wires)
    (consistent : ∀ wire ∈ wires, facts.Consistent wire)
    (supplies : facts.Supplies inputs output) : (View.ofFacts facts).Merges inputs output := by
  obtain ⟨entered, lackedByAll⟩ := told_of_merge inputsInside outputInside unchanged
  constructor
  case carried => exact fun input member => (entered input member).1
  case lacked => exact fun input member => (entered input member).2
  case lackedByAll => exact lackedByAll
  case supplied =>
    rintro before only after rfl symbol known others
    have merges := View.anything_merges (before ++ only :: after) output
    have told : Grows .anything facts
        (((before ++ only :: after).foldl (mergeInput output) facts).lack output
          (((before ++ only :: after).foldl (mergeInput output) facts).lackedByAll
            (before ++ only :: after))) :=
      (Grows.foldl (fun facts _ member => grows_mergeInput facts merges member) facts).trans
        (free_lack ..)
    have possible : symbol ∉ (facts.get only).excludes := by
      obtain ⟨input, member, possible⟩ := supplies symbol known
      rw [List.mem_append, List.mem_cons] at member
      rcases member with inBefore | rfl | inAfter
      · exact absurd (others input (List.mem_append_left after inBefore)) possible
      · exact possible
      · exact absurd (others input (List.mem_append_right before inAfter)) possible
    exact supplies_known told inputsInside consistent unchanged
      (told.keeps output true symbol known) others possible

end Facts

/-- Where a site is a merge, each symbol known to come out of it may come in. -/
def Site.Supplied (facts : Facts) (site : Site) : Prop :=
  match site.primitive, site.outputs with
  | .union _, output :: _ | .join, output :: _ => facts.Supplies site.inputs output
  | _, _ => True

theorem Site.supplied_of_faultless {facts : Facts} {site : Site}
    (faultless : site.faults facts = []) (consistent : ∀ wire, facts.Consistent wire) :
    site.Supplied facts := by
  have supplies : ∀ output, (facts.unsupplied site.inputs output).map
      (TypingFault.unsupplied site.id site.node) = [] → facts.Supplies site.inputs output := by
    intro output none_ symbol known
    have found := List.filter_eq_nil_iff.mp (List.map_eq_nil_iff.mp none_) symbol known
    simp only [List.all_eq_true, Bool.and_eq_true, decide_eq_true_eq, not_forall] at found
    obtain ⟨input, member, free⟩ := found
    refine ⟨input, member, fun lacked => free ⟨fun carried => ?_, lacked⟩⟩
    exact consistent input symbol carried lacked
  unfold Site.faults at faultless
  unfold Site.Supplied
  split
  · rename_i merges outputs
    rw [merges, outputs] at faultless
    exact supplies _ faultless
  · rename_i merges outputs
    rw [merges, outputs] at faultless
    exact supplies _ faultless
  · trivial

/-- Where what comes out may come in, a site has no fault. -/
theorem Site.Supplied.faultless {facts : Facts} {site : Site} (supplied : site.Supplied facts) :
    site.faults facts = [] := by
  have unsupplied : ∀ output, facts.Supplies site.inputs output →
      facts.unsupplied site.inputs output = [] := by
    intro output supplies
    refine List.filter_eq_nil_iff.mpr fun symbol known lacked => ?_
    obtain ⟨input, member, possible⟩ := supplies symbol known
    have absent := List.all_eq_true.mp lacked input member
    simp only [Bool.and_eq_true, decide_eq_true_eq] at absent
    exact possible absent.2
  unfold Site.Supplied at supplied
  unfold Site.faults
  split
  · rename_i merges outputs
    rw [merges, outputs] at supplied
    rw [unsupplied _ supplied, List.map_nil]
  · rename_i merges outputs
    rw [merges, outputs] at supplied
    rw [unsupplied _ supplied, List.map_nil]
  · rfl

/-- Facts to which a site has nothing to add are closed under its rules. -/
theorem Site.AtRest.closed {facts : Facts} {site : Site} (atRest : site.AtRest facts)
    (inside : ∀ wire ∈ site.wires, wire < facts.size)
    (consistent : ∀ wire ∈ site.wires, facts.Consistent wire) (supplied : site.Supplied facts) :
    (View.ofFacts facts).Closed site.primitive site.inputs site.outputs := by
  obtain ⟨id, node, primitive, inputs, outputs⟩ := site
  have unchanged : (facts.apply primitive inputs outputs).KnownIn facts (inputs ++ outputs) := by
    rw [show facts.apply primitive inputs outputs = facts from atRest]
    exact fun _ _ _ _ known => known
  have known : ∀ wire ∈ inputs ++ outputs, wire ∈ inputs ++ outputs ∧ wire < facts.size :=
    fun wire member => ⟨member, inside wire member⟩
  change (View.ofFacts facts).Closed primitive inputs outputs
  unfold View.Closed
  split
  · rename_i input _ output _
    exact Facts.told_of_unchanged (known input (by simp)) (known output (by simp)) (by simp)
      (by simp) unchanged
  · rename_i input _ output _
    exact Facts.told_of_unchanged (known input (by simp)) (known output (by simp)) (by simp)
      (by simp) unchanged
  · rename_i input _ output _
    exact Facts.told_of_spawn (known input (by simp)) (known output (by simp)) unchanged
  · rename_i output _
    exact Facts.merges_of_unchanged (fun input member => known input (by simp [member]))
      (known output (by simp)) unchanged consistent supplied
  · rename_i output _
    exact Facts.merges_of_unchanged (fun input member => known input (by simp [member]))
      (known output (by simp)) unchanged consistent supplied
  · rename_i input _
    exact Facts.told_of_split (known input (by simp))
      (fun output member => known output (List.mem_append_right _ member)) (.refl facts) unchanged
  · trivial

namespace PortGraph

variable {graph : PortGraph} {facts : Facts}

/-- Facts are without a fault when none contradict each other and what comes out may come in. -/
theorem faultless_iff (size : facts.size = graph.sources.length) :
    graph.typingFaults graph.sites facts = [] ↔
      (∀ wire, facts.Consistent wire) ∧ ∀ site ∈ graph.sites, site.Supplied facts := by
  constructor
  · intro faultless
    have consistent := consistent_of_faultless size faultless
    refine ⟨consistent, fun site member => Site.supplied_of_faultless ?_ consistent⟩
    exact List.flatMap_eq_nil_iff.mp (List.append_eq_nil_iff.mp faultless).1 site member
  · rintro ⟨consistent, supplied⟩
    refine List.append_eq_nil_iff.mpr ⟨?_, ?_⟩
    · exact List.flatMap_eq_nil_iff.mpr fun site member => (supplied site member).faultless
    · refine List.filterMap_eq_nil_iff.mpr ?_
      rintro ⟨source, wire⟩ member
      exact (wireFault?_eq_none_iff (List.mem_zipIdx_iff_getElem?.mp member)).mpr (consistent wire)

/-- Facts without a fault are closed under the rules of all sites if these are at rest. -/
theorem closed_of_faultless (size : facts.size = graph.sources.length)
    (atRest : ∀ site ∈ graph.sites, site.AtRest facts)
    (faultless : graph.typingFaults graph.sites facts = []) :
    ∀ site ∈ graph.sites,
      (View.ofFacts facts).Closed site.primitive site.inputs site.outputs := by
  intro site member
  obtain ⟨consistent, supplied⟩ := (faultless_iff size).mp faultless
  refine (atRest site member).closed ?_ (fun wire _ => consistent wire) (supplied site member)
  exact size ▸ graph.sites_inside site member

end PortGraph

end FlowDiagram

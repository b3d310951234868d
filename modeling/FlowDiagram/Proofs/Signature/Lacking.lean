import FlowDiagram.Proofs.Signature.Closed
import FlowDiagram.Proofs.Signature.Inference

/-!
# Lacking a symbol together

When one wire lacks a symbol, the laws of the primitives make others lack it too.  If none of these
is known to carry the symbol, then there is a flow in which they all lack it, and only they.
-/

namespace FlowDiagram

/-! ## What primitives do to a symbol -/

/-- All flows that go in or come out have the symbol, or none has. -/
def Primitive.Passes (symbol : Symbol) : Primitive → Prop
  | .add own | .remove own | .spawn own => own ≠ symbol
  | .split => True
  | .union _ | .join => False

def Primitive.IsMerge : Primitive → Prop
  | .union _ | .join => True
  | _ => False

theorem Primitive.IsMerge.lawful {primitive : Primitive} (merges : primitive.IsMerge)
    {inputs : List (Set Symbol)} {output : Set Symbol}
    (union : output = {symbol | ∃ input ∈ inputs, symbol ∈ input}) :
    primitive.Lawful inputs [output] := by
  cases primitive with
  | union count => exact union
  | join => exact union
  | add own => exact merges.elim
  | remove own => exact merges.elim
  | spawn own => exact merges.elim
  | split => exact merges.elim

/-- A site whose primitive has one port on each side has one wire on each. -/
theorem Site.Fits.single {wires : Nat} {site : Site} (fits : site.Fits wires)
    (inputs : site.primitive.inputs = 1) (outputs : site.primitive.outputs = 1) :
    ∃ input output, site.inputs = [input] ∧ site.outputs = [output] := by
  obtain ⟨input, single⟩ := List.length_eq_one_iff.mp (fits.inputs.trans inputs)
  obtain ⟨output, only⟩ := List.length_eq_one_iff.mp (fits.outputs.trans outputs)
  exact ⟨input, output, single, only⟩

theorem Site.Fits.exists_output {wires : Nat} {site : Site} (fits : site.Fits wires)
    (merges : site.primitive.IsMerge) : ∃ output, site.outputs = [output] := by
  refine List.length_eq_one_iff.mp (fits.outputs.trans ?_)
  cases acts : site.primitive with
  | split => exact (acts ▸ merges : Primitive.IsMerge .split).elim
  | _ => rfl

theorem Site.Fits.inputs_ne_nil {wires : Nat} {site : Site} (fits : site.Fits wires) :
    site.inputs ≠ [] :=
  List.ne_nil_of_length_pos (fits.inputs ▸ fits.fed)

namespace View

theorem ofFlow_false {carried : Wire → Set Symbol} {wire : Wire} {symbol : Symbol} :
    View.ofFlow carried wire false symbol ↔ symbol ∉ carried wire := by
  simp [View.ofFlow]

variable {view : View} {site : Site} {wires : Nat} {symbol : Symbol}

/-- A view is closed under the rules of a site. -/
abbrev ClosedAt (view : View) (site : Site) : Prop :=
  view.Closed site.primitive site.inputs site.outputs

theorem ClosedAt.added (closed : view.ClosedAt site) (fits : site.Fits wires)
    (adds : site.primitive = .add symbol) :
    (∀ input ∈ site.inputs, view input false symbol) ∧
      ∀ output ∈ site.outputs, view output true symbol := by
  obtain ⟨input, output, single, only⟩ := fits.single (by rw [adds]; rfl) (by rw [adds]; rfl)
  unfold ClosedAt at closed
  rw [adds, single, only] at closed
  rw [single, only]
  exact ⟨List.forall_mem_singleton.mpr closed.2.1, List.forall_mem_singleton.mpr closed.1⟩

theorem ClosedAt.removed (closed : view.ClosedAt site) (fits : site.Fits wires)
    (removes : site.primitive = .remove symbol) :
    (∀ input ∈ site.inputs, view input true symbol) ∧
      ∀ output ∈ site.outputs, view output false symbol := by
  obtain ⟨input, output, single, only⟩ := fits.single (by rw [removes]; rfl) (by rw [removes]; rfl)
  unfold ClosedAt at closed
  rw [removes, single, only] at closed
  rw [single, only]
  exact ⟨List.forall_mem_singleton.mpr closed.1, List.forall_mem_singleton.mpr closed.2.1⟩

theorem ClosedAt.spawned (closed : view.ClosedAt site) (fits : site.Fits wires)
    (spawns : site.primitive = .spawn symbol) :
    ∀ output ∈ site.outputs, view output true symbol := by
  obtain ⟨input, output, single, only⟩ := fits.single (by rw [spawns]; rfl) (by rw [spawns]; rfl)
  unfold ClosedAt at closed
  rw [spawns, single, only] at closed
  rw [only]
  exact List.forall_mem_singleton.mpr closed.1

theorem ClosedAt.merges (closed : view.ClosedAt site) (fits : site.Fits wires)
    (merges : site.primitive.IsMerge) {output : Wire} (leaves : output ∈ site.outputs) :
    view.Merges site.inputs output := by
  obtain ⟨only, single⟩ := fits.exists_output merges
  rw [single, List.mem_singleton] at leaves
  subst leaves
  obtain ⟨id, node, primitive, inputs, outputs⟩ := site
  obtain rfl : outputs = [output] := single
  cases primitive with
  | union count => exact closed
  | join => exact closed
  | add own => exact merges.elim
  | remove own => exact merges.elim
  | spawn own => exact merges.elim
  | split => exact merges.elim

/-- Closed under the rules where a symbol is passed, a view has it alike at all wires there. -/
theorem ClosedAt.passes (closed : view.ClosedAt site) (fits : site.Fits wires)
    (passes : site.primitive.Passes symbol) {here there : Wire} (touchesHere : here ∈ site.wires)
    (touchesThere : there ∈ site.wires) (sort : Bool) :
    view here sort symbol ↔ view there sort symbol := by
  obtain ⟨input, single, same⟩ : ∃ input, site.inputs = [input] ∧
      ∀ output ∈ site.outputs, (view input sort symbol ↔ view output sort symbol) := by
    obtain ⟨id, node, primitive, inputs, outputs⟩ := site
    have agree : ∀ own input output, own ≠ symbol → view.Agrees input output (some own) →
        ∀ other ∈ [output], (view input sort symbol ↔ view other sort symbol) :=
      fun own input output other agrees => List.forall_mem_singleton.mpr
        (agrees sort symbol fun same => other (Option.some.inj same).symm)
    cases primitive with
    | add own =>
        obtain ⟨input, output, single, only⟩ := fits.single rfl rfl
        obtain ⟨rfl, rfl⟩ : inputs = [input] ∧ outputs = [output] := ⟨single, only⟩
        exact ⟨input, rfl, agree own input output passes closed.2.2⟩
    | remove own =>
        obtain ⟨input, output, single, only⟩ := fits.single rfl rfl
        obtain ⟨rfl, rfl⟩ : inputs = [input] ∧ outputs = [output] := ⟨single, only⟩
        exact ⟨input, rfl, agree own input output passes closed.2.2⟩
    | spawn own =>
        obtain ⟨input, output, single, only⟩ := fits.single rfl rfl
        obtain ⟨rfl, rfl⟩ : inputs = [input] ∧ outputs = [output] := ⟨single, only⟩
        exact ⟨input, rfl, agree own input output passes closed.2⟩
    | union count => exact passes.elim
    | join => exact passes.elim
    | split =>
        obtain ⟨input, rfl⟩ := List.length_eq_one_iff.mp fits.inputs
        exact ⟨input, rfl, fun output member => closed output member sort symbol nofun⟩
  have all : ∀ wire ∈ site.wires, (view input sort symbol ↔ view wire sort symbol) := by
    rw [Site.wires, single]
    exact List.forall_mem_cons.mpr ⟨Iff.rfl, same⟩
  exact (all here touchesHere).symm.trans (all there touchesThere)

end View

namespace PortGraph

/-! ## Lacking with a wire -/

/-- The wires that the laws make lack a symbol when the wire `start` lacks it. -/
inductive LacksWith (graph : PortGraph) (symbol : Symbol) (start : Wire) : Wire → Prop
  | start : LacksWith graph symbol start start
  | added {site : Site} {wire : Wire} (listed : site ∈ graph.sites)
    (adds : site.primitive = .add symbol) (enters : wire ∈ site.inputs) :
    LacksWith graph symbol start wire
  | removed {site : Site} {wire : Wire} (listed : site ∈ graph.sites)
    (removes : site.primitive = .remove symbol) (leaves : wire ∈ site.outputs) :
    LacksWith graph symbol start wire
  | passed {site : Site} {here there : Wire} (listed : site ∈ graph.sites)
    (passes : site.primitive.Passes symbol) (touchesHere : here ∈ site.wires)
    (touchesThere : there ∈ site.wires) (lacks : LacksWith graph symbol start here) :
    LacksWith graph symbol start there
  | entering {site : Site} {input output : Wire} (listed : site ∈ graph.sites)
    (merges : site.primitive.IsMerge) (enters : input ∈ site.inputs)
    (leaves : output ∈ site.outputs) (lacks : LacksWith graph symbol start output) :
    LacksWith graph symbol start input
  | leaving {site : Site} {output : Wire} (listed : site ∈ graph.sites)
    (merges : site.primitive.IsMerge) (leaves : output ∈ site.outputs)
    (lack : ∀ input ∈ site.inputs, LacksWith graph symbol start input) :
    LacksWith graph symbol start output

section

variable {graph : PortGraph} {view : View} {symbol : Symbol} {start wire : Wire}
  (fits : ∀ site ∈ graph.sites, site.Fits graph.sources.length)
  (closed : ∀ site ∈ graph.sites, view.ClosedAt site)
include fits closed

/-- In a view closed under the rules, what is to lack a symbol with a wire lacks it if that does. -/
theorem LacksWith.lacked (lacks : graph.LacksWith symbol start wire)
    (absent : view start false symbol) : view wire false symbol := by
  induction lacks with
  | start => exact absent
  | added listed adds enters => exact ((closed _ listed).added (fits _ listed) adds).1 _ enters
  | removed listed removes leaves =>
      exact ((closed _ listed).removed (fits _ listed) removes).2 _ leaves
  | passed listed passes touchesHere touchesThere _ ih =>
      exact ((closed _ listed).passes (fits _ listed) passes touchesHere touchesThere false).mp ih
  | entering listed merges enters leaves _ ih =>
      exact ((closed _ listed).merges (fits _ listed) merges leaves).lacked _ enters symbol ih
  | leaving listed merges leaves _ ih =>
      have rule := (closed _ listed).merges (fits _ listed) merges leaves
      exact rule.lackedByAll (fits _ listed).inputs_ne_nil symbol ih

/--
In a view closed under the rules, a wire that is to lack a symbol with another and yet carries it
makes that one carry it too, unless a merge stands between that may take it from several inputs.
-/
theorem LacksWith.carried_or_contested (consistent : ∀ wire symbol, view wire true symbol →
      ¬ view wire false symbol)
    (lacks : graph.LacksWith symbol start wire) (carried : view wire true symbol) :
    view start true symbol ∨ ∃ site ∈ graph.sites, site.primitive.IsMerge ∧
      (∀ output ∈ site.outputs, view output true symbol) ∧
      (∀ before only after, site.inputs = before ++ only :: after →
        ∃ other ∈ before ++ after, ¬ view other false symbol) ∧
      ∀ input ∈ site.inputs, graph.LacksWith symbol start input := by
  induction lacks with
  | start => exact .inl carried
  | added listed adds enters =>
      have absent := ((closed _ listed).added (fits _ listed) adds).1 _ enters
      exact absurd absent (consistent _ _ carried)
  | removed listed removes leaves =>
      have absent := ((closed _ listed).removed (fits _ listed) removes).2 _ leaves
      exact absurd absent (consistent _ _ carried)
  | passed listed passes touchesHere touchesThere _ ih =>
      exact ih (((closed _ listed).passes (fits _ listed) passes touchesHere touchesThere
        true).mpr carried)
  | entering listed merges enters leaves _ ih =>
      have rule := (closed _ listed).merges (fits _ listed) merges leaves
      exact ih (rule.carried _ enters symbol carried)
  | @leaving site output listed merges leaves lack ih =>
      have rule := (closed _ listed).merges (fits _ listed) merges leaves
      by_cases single : ∃ before input after, site.inputs = before ++ input :: after ∧
          ∀ other ∈ before ++ after, view other false symbol
      · -- the one input that may bring the symbol does
        obtain ⟨before, input, after, split, others⟩ := single
        have brings := rule.supplied before input after split symbol carried others
        exact ih input (split ▸ by simp) brings
      · refine .inr ⟨site, listed, merges, ?_, ?_, lack⟩
        · obtain ⟨only, one⟩ := (fits _ listed).exists_output merges
          rw [one, List.mem_singleton] at leaves
          rw [one]
          exact List.forall_mem_singleton.mpr (leaves ▸ carried)
        · intro before input after split
          by_contra none_other
          push Not at none_other
          exact single ⟨before, input, after, split, none_other⟩

end

/-! ## A flow without the symbol -/

/--
The symbols that wires are not known to lack, except that one symbol is just on those wires that
need not lack it with the wire `start`.
-/
def flowWithout (graph : PortGraph) (symbol : Symbol) (start wire : Wire) : Set Symbol :=
  {other | (other = symbol → ¬ graph.LacksWith symbol start wire) ∧
    (other ≠ symbol → other ∈ (graph.facts graph.sites).possible wire)}

section

variable {graph : PortGraph} {symbol : Symbol} {start wire : Wire}

theorem mem_flowWithout_self :
    symbol ∈ graph.flowWithout symbol start wire ↔ ¬ graph.LacksWith symbol start wire := by
  simp [flowWithout]

theorem mem_flowWithout_of_ne {other : Symbol} (different : other ≠ symbol) :
    other ∈ graph.flowWithout symbol start wire ↔
      other ∈ (graph.facts graph.sites).possible wire := by
  simp [flowWithout, different]

theorem not_mem_flowWithout {own : Symbol}
    (absent : own ∈ ((graph.facts graph.sites).get wire).excludes)
    (lacks : own = symbol → graph.LacksWith symbol start wire) :
    own ∉ graph.flowWithout symbol start wire := by
  by_cases same : own = symbol
  · exact fun there => there.1 same (lacks same)
  · exact fun there => there.2 same absent

section

variable {site : Site} (listed : site ∈ graph.sites) (fits : site.Fits graph.sources.length)
  (closed : (View.ofFacts (graph.facts graph.sites)).ClosedAt site)
include listed fits closed

theorem flowWithout_passes {other : Symbol} (passes : site.primitive.Passes other)
    {first second : Wire} (touchesFirst : first ∈ site.wires)
    (touchesSecond : second ∈ site.wires) :
    other ∈ graph.flowWithout symbol start first ↔
      other ∈ graph.flowWithout symbol start second := by
  by_cases same : other = symbol
  · subst same
    rw [mem_flowWithout_self, mem_flowWithout_self]
    exact not_congr ⟨.passed listed passes touchesFirst touchesSecond,
      .passed listed passes touchesSecond touchesFirst⟩
  · rw [mem_flowWithout_of_ne same, mem_flowWithout_of_ne same]
    exact not_congr (closed.passes fits passes touchesFirst touchesSecond false)

theorem lawful_without_merge (merges : site.primitive.IsMerge) :
    site.primitive.Lawful (site.inputs.map (graph.flowWithout symbol start))
      (site.outputs.map (graph.flowWithout symbol start)) := by
  obtain ⟨output, only⟩ := fits.exists_output merges
  have leaves : output ∈ site.outputs := only ▸ List.mem_singleton_self output
  have rule := closed.merges fits merges leaves
  rw [only]
  refine merges.lawful ?_
  ext other
  simp only [List.mem_map, exists_exists_and_eq_and, Set.mem_ofPred_eq]
  by_cases same : other = symbol
  · subst same
    simp only [mem_flowWithout_self]
    constructor
    · intro free
      by_contra none_free
      push Not at none_free
      exact free (.leaving listed merges leaves none_free)
    · rintro ⟨input, enters, free⟩ lacks
      exact free (.entering listed merges enters leaves lacks)
  · simp only [mem_flowWithout_of_ne same]
    constructor
    · intro possible
      by_contra none_possible
      refine possible (rule.lackedByAll fits.inputs_ne_nil other fun input enters => ?_)
      exact not_not.mp fun free => none_possible ⟨input, enters, free⟩
    · rintro ⟨input, enters, possible⟩ lacked
      exact possible (rule.lacked input enters other lacked)

theorem lawful_without_split (splits : site.primitive = .split) :
    site.primitive.Lawful (site.inputs.map (graph.flowWithout symbol start))
      (site.outputs.map (graph.flowWithout symbol start)) := by
  obtain ⟨input, single⟩ := List.length_eq_one_iff.mp (splits ▸ fits.inputs)
  obtain ⟨first, second, pair⟩ := List.length_eq_two.mp (splits ▸ fits.outputs)
  have copies : ∀ output ∈ site.outputs,
      graph.flowWithout symbol start output = graph.flowWithout symbol start input := by
    intro output leaves
    ext other
    have passes : site.primitive.Passes other := splits ▸ trivial
    exact flowWithout_passes listed fits closed passes (List.mem_append_right _ leaves)
      (by simp [Site.wires, single])
  rw [splits, single, pair]
  exact ⟨copies first (by simp [pair]), copies second (by simp [pair])⟩

/-- Where a primitive acts on a symbol, what comes out is what goes in but for that. -/
theorem flowWithout_acts (symbol : Symbol) (start : Wire) {own : Symbol}
    (acts : site.primitive.symbol? = some own) :
    ∃ input output, site.inputs = [input] ∧ site.outputs = [output] ∧
      ∀ other, some other ≠ some own → (other ∈ graph.flowWithout symbol start input ↔
        other ∈ graph.flowWithout symbol start output) := by
  obtain ⟨inputs, outputs, passes⟩ : site.primitive.inputs = 1 ∧ site.primitive.outputs = 1 ∧
      ∀ other, own ≠ other → site.primitive.Passes other := by
    cases found : site.primitive with
    | add other | remove other | spawn other =>
        rw [found] at acts
        exact ⟨rfl, rfl, fun _ => Option.some.inj acts ▸ id⟩
    | union count | join | split =>
        rw [found] at acts
        cases acts
  obtain ⟨input, output, single, only⟩ := fits.single inputs outputs
  refine ⟨input, output, single, only, fun other different => ?_⟩
  exact flowWithout_passes listed fits closed (passes other fun same => different (same ▸ rfl))
    (by simp [Site.wires, single]) (by simp [Site.wires, only])

/-- A symbol can be kept out of a site, if no wire is to lack it that is known to carry it. -/
theorem lawful_without (carries : ∀ wire, ∀ other ∈ ((graph.facts graph.sites).get wire).includes,
      other ∈ graph.flowWithout symbol start wire) :
    site.primitive.Lawful (site.inputs.map (graph.flowWithout symbol start))
      (site.outputs.map (graph.flowWithout symbol start)) := by
  cases acts : site.primitive with
  | add own =>
      obtain ⟨input, output, single, only, agrees⟩ :=
        flowWithout_acts listed fits closed symbol start (by rw [acts]; rfl)
      have enters : input ∈ site.inputs := by simp [single]
      have leaves : output ∈ site.outputs := by simp [only]
      obtain ⟨absent, present⟩ := closed.added fits acts
      rw [single, only]
      refine ⟨not_mem_flowWithout (absent _ enters) fun same => ?_,
        Facts.eq_insert_of_agrees (carries _ _ (present _ leaves)) agrees⟩
      exact .added listed (same ▸ acts) enters
  | remove own =>
      obtain ⟨input, output, single, only, agrees⟩ :=
        flowWithout_acts listed fits closed symbol start (by rw [acts]; rfl)
      have enters : input ∈ site.inputs := by simp [single]
      have leaves : output ∈ site.outputs := by simp [only]
      obtain ⟨present, absent⟩ := closed.removed fits acts
      rw [single, only]
      refine ⟨carries _ _ (present _ enters),
        Facts.eq_diff_of_agrees (not_mem_flowWithout (absent _ leaves) fun same => ?_) agrees⟩
      exact .removed listed (same ▸ acts) leaves
  | spawn own =>
      obtain ⟨input, output, single, only, agrees⟩ :=
        flowWithout_acts listed fits closed symbol start (by rw [acts]; rfl)
      have present := closed.spawned fits acts output (by simp [only])
      rw [single, only]
      exact Facts.eq_insert_of_agrees (carries _ _ present) agrees
  | union count =>
      exact acts ▸ lawful_without_merge listed fits closed (acts ▸ trivial)
  | join =>
      exact acts ▸ lawful_without_merge listed fits closed (acts ▸ trivial)
  | split =>
      exact acts ▸ lawful_without_split listed fits closed acts

end

end

end PortGraph

end FlowDiagram

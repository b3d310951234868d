import FlowDiagram.Proofs.Signature.Flow
import FlowDiagram.Proofs.Signature.Rules
import Mathlib.Data.List.Basic

/-!
# The rules and the laws

The facts that a flow bears out are closed under the rules of every primitive that it obeys.  On the
other hand, where the rules of a primitive have nothing to add, and nothing known is contradicted,
the symbols that its wires are not known to lack obey its law.
-/

namespace FlowDiagram

/-! ## Flows bear out the rules -/

/-- The facts that a flow bears out. -/
def View.ofFlow (carried : Wire → Set Symbol) : View :=
  fun wire sort symbol => symbol ∈ carried wire ↔ sort = true

variable {carried : Wire → Set Symbol}

theorem View.ofFlow_agrees {first second : Wire} {except : Option Symbol}
    (same : ∀ symbol, some symbol ≠ except → (symbol ∈ carried first ↔ symbol ∈ carried second)) :
    (View.ofFlow carried).Agrees first second except := by
  intro sort symbol other
  unfold View.ofFlow
  rw [same symbol other]

theorem View.ofFlow_merges {inputs : List Wire} {output : Wire}
    (union : carried output = {symbol | ∃ flow ∈ inputs.map carried, symbol ∈ flow}) :
    (View.ofFlow carried).Merges inputs output := by
  have union_iff : ∀ symbol,
      symbol ∈ carried output ↔ ∃ input ∈ inputs, symbol ∈ carried input := by
    simp [union]
  unfold View.ofFlow
  constructor
  · intro input member symbol known
    simp only [iff_true] at known ⊢
    exact (union_iff symbol).mpr ⟨input, member, known⟩
  · intro input member symbol known
    simp only [Bool.false_eq_true, iff_false] at known ⊢
    exact fun carries => known ((union_iff symbol).mpr ⟨input, member, carries⟩)
  · intro _ symbol all
    simp only [Bool.false_eq_true, iff_false] at all ⊢
    intro carries
    obtain ⟨input, member, carried⟩ := (union_iff symbol).mp carries
    exact all input member carried
  · intro before only after split symbol known others
    simp only [Bool.false_eq_true, iff_false, iff_true] at known others ⊢
    obtain ⟨input, inside, carries⟩ := (union_iff symbol).mp known
    rw [split, List.mem_append, List.mem_cons] at inside
    -- the input that carries the symbol can be no other
    rcases inside with inBefore | rfl | inAfter
    · exact absurd carries (others input (List.mem_append_left after inBefore))
    · exact carries
    · exact absurd carries (others input (List.mem_append_right before inAfter))

/-- The facts that a flow bears out are closed under the rules of every primitive it obeys. -/
theorem View.ofFlow_closed {primitive : Primitive} {inputs outputs : List Wire}
    (lawful : primitive.Lawful (inputs.map carried) (outputs.map carried)) :
    (View.ofFlow carried).Closed primitive inputs outputs := by
  unfold Primitive.Lawful at lawful
  split at lawful
  · rename_i symbol _ _ single only
    obtain ⟨input, rfl, rfl⟩ := List.map_eq_singleton_iff.mp single
    obtain ⟨output, rfl, rfl⟩ := List.map_eq_singleton_iff.mp only
    obtain ⟨absent, passes⟩ := lawful
    refine ⟨by simp [View.ofFlow, passes], by simp [View.ofFlow, absent], ?_⟩
    exact View.ofFlow_agrees fun other different => by simp_all
  · rename_i symbol _ _ single only
    obtain ⟨input, rfl, rfl⟩ := List.map_eq_singleton_iff.mp single
    obtain ⟨output, rfl, rfl⟩ := List.map_eq_singleton_iff.mp only
    obtain ⟨present, passes⟩ := lawful
    refine ⟨by simp [View.ofFlow, present], by simp [View.ofFlow, passes], ?_⟩
    exact View.ofFlow_agrees fun other different => by simp_all
  · rename_i symbol _ _ single only
    obtain ⟨input, rfl, rfl⟩ := List.map_eq_singleton_iff.mp single
    obtain ⟨output, rfl, rfl⟩ := List.map_eq_singleton_iff.mp only
    refine ⟨by simp [View.ofFlow, lawful], ?_⟩
    exact View.ofFlow_agrees fun other different => by simp_all
  · rename_i count _ _ only
    obtain ⟨output, rfl, rfl⟩ := List.map_eq_singleton_iff.mp only
    exact View.ofFlow_merges lawful
  · rename_i _ _ only
    obtain ⟨output, rfl, rfl⟩ := List.map_eq_singleton_iff.mp only
    exact View.ofFlow_merges lawful
  · rename_i _ _ _ single pair
    obtain ⟨input, rfl, rfl⟩ := List.map_eq_singleton_iff.mp single
    obtain ⟨first, rest, rfl, rfl, later⟩ := List.map_eq_cons_iff.mp pair
    obtain ⟨second, rfl, rfl⟩ := List.map_eq_singleton_iff.mp later
    obtain ⟨sameFirst, sameSecond⟩ := lawful
    intro output member
    rcases List.mem_cons.mp member with rfl | last
    · exact View.ofFlow_agrees fun other _ => by rw [sameFirst]
    · obtain rfl := List.mem_singleton.mp last
      exact View.ofFlow_agrees fun other _ => by rw [sameSecond]
  · exact lawful.elim

/-! ## Where the rules have nothing to add -/

namespace Facts

/-- The symbols that a wire is not known to lack. -/
def possible (facts : Facts) (wire : Wire) : Set Symbol :=
  {symbol | symbol ∉ (facts.get wire).excludes}

/-- No symbol is known to be both carried and lacked. -/
def Consistent (facts : Facts) (wire : Wire) : Prop :=
  ∀ symbol ∈ (facts.get wire).includes, symbol ∉ (facts.get wire).excludes

/-- What one state of the facts tells of some wires, another does too. -/
def KnownIn (later facts : Facts) (wires : List Wire) : Prop :=
  ∀ wire ∈ wires, ∀ sort symbol, symbol ∈ (later.get wire).known sort →
    symbol ∈ (facts.get wire).known sort

/-- Nothing grows that ends in what was known before. -/
theorem KnownIn.before {view : View} {middle later facts : Facts} {wires : List Wire}
    (unchanged : later.KnownIn facts wires) (grows : Grows view middle later) :
    middle.KnownIn facts wires :=
  fun wire member sort symbol known =>
    unchanged wire member sort symbol (grows.keeps wire sort symbol known)

theorem carry_known {facts later : Facts} {wires : List Wire} {target : Wire} {symbol : Symbol}
    {symbols : SymbolSet} (member : target ∈ wires) (inside : target < facts.size)
    (unchanged : (facts.carry target symbols).KnownIn later wires) (new : symbol ∈ symbols) :
    symbol ∈ (later.get target).includes :=
  unchanged target member true symbol
    (((learns_carry facts target symbols).known_iff target true symbol).mpr
      (.inr ⟨rfl, inside, rfl, new⟩))

theorem lack_known {facts later : Facts} {wires : List Wire} {target : Wire} {symbol : Symbol}
    {symbols : SymbolSet} (member : target ∈ wires) (inside : target < facts.size)
    (unchanged : (facts.lack target symbols).KnownIn later wires) (new : symbol ∈ symbols) :
    symbol ∈ (later.get target).excludes :=
  unchanged target member false symbol
    (((learns_lack facts target symbols).known_iff target false symbol).mpr
      (.inr ⟨rfl, inside, rfl, new⟩))

theorem carryOver_known {facts later : Facts} {wires : List Wire} {source target : Wire}
    {except : Option Symbol} {symbol : Symbol} (member : target ∈ wires)
    (inside : target < facts.size)
    (unchanged : (facts.carryOver source target except).KnownIn later wires)
    (other : some symbol ≠ except) (known : symbol ∈ (facts.get source).includes) :
    symbol ∈ (later.get target).includes :=
  carry_known member inside unchanged (SymbolSet.mem_filter.mpr ⟨known, by simpa using other⟩)

theorem lackOver_known {facts later : Facts} {wires : List Wire} {source target : Wire}
    {except : Option Symbol} {symbol : Symbol} (member : target ∈ wires)
    (inside : target < facts.size)
    (unchanged : (facts.lackOver source target except).KnownIn later wires)
    (other : some symbol ≠ except) (known : symbol ∈ (facts.get source).excludes) :
    symbol ∈ (later.get target).excludes :=
  lack_known member inside unchanged (SymbolSet.mem_filter.mpr ⟨known, by simpa using other⟩)

theorem free_carry (facts : Facts) (target : Wire) (symbols : SymbolSet) :
    Grows .anything facts (facts.carry target symbols) :=
  grows_carry fun _ _ _ => trivial

theorem free_lack (facts : Facts) (target : Wire) (symbols : SymbolSet) :
    Grows .anything facts (facts.lack target symbols) :=
  grows_lack fun _ _ _ => trivial

theorem free_agree (facts : Facts) (first second : Wire) (except : Option Symbol) :
    Grows .anything facts (facts.agree first second except) :=
  grows_agree facts fun _ _ _ => Iff.rfl

theorem free_carryOver (facts : Facts) (source target : Wire) (except : Option Symbol) :
    Grows .anything facts (facts.carryOver source target except) :=
  grows_carryOver facts fun _ _ => id

theorem free_lackOver (facts : Facts) (source target : Wire) (except : Option Symbol) :
    Grows .anything facts (facts.lackOver source target except) :=
  grows_lackOver facts fun _ _ => id

/-- Where making two wires agree adds nothing, the same is known of them. -/
theorem agrees_of_unchanged {facts middle : Facts} {wires : List Wire} {first second : Wire}
    {except : Option Symbol} (grows : Grows .anything facts middle)
    (firstInside : first ∈ wires ∧ first < facts.size)
    (secondInside : second ∈ wires ∧ second < facts.size)
    (unchanged : (middle.agree first second except).KnownIn facts wires) :
    (View.ofFacts facts).Agrees first second except := by
  let entered := middle.carryOver first second except
  let passed := entered.lackOver first second except
  let returned := passed.carryOver second first except
  have toEntered : Grows .anything facts entered := grows.trans (free_carryOver ..)
  have toPassed : Grows .anything facts passed := toEntered.trans (free_lackOver ..)
  have toReturned : Grows .anything facts returned := toPassed.trans (free_carryOver ..)
  have returnedUnchanged : returned.KnownIn facts wires := unchanged.before (free_lackOver ..)
  have passedUnchanged : passed.KnownIn facts wires := returnedUnchanged.before (free_carryOver ..)
  have enteredUnchanged : entered.KnownIn facts wires := passedUnchanged.before (free_lackOver ..)
  intro sort symbol other
  cases sort with
  | true =>
      constructor
      · intro known
        exact carryOver_known secondInside.1 (grows.size ▸ secondInside.2) enteredUnchanged other
          (grows.keeps first true symbol known)
      · intro known
        exact carryOver_known firstInside.1 (toPassed.size ▸ firstInside.2) returnedUnchanged other
          (toPassed.keeps second true symbol known)
  | false =>
      constructor
      · intro known
        exact lackOver_known secondInside.1 (toEntered.size ▸ secondInside.2) passedUnchanged other
          (toEntered.keeps first false symbol known)
      · intro known
        exact lackOver_known firstInside.1 (toReturned.size ▸ firstInside.2) unchanged other
          (toReturned.keeps second false symbol known)

/-- Of two wires of which the same is known, each may carry what the other may. -/
theorem possible_of_agrees {facts : Facts} {first second : Wire} {except : Option Symbol}
    (agrees : (View.ofFacts facts).Agrees first second except) (symbol : Symbol)
    (other : some symbol ≠ except) :
    symbol ∈ facts.possible first ↔ symbol ∈ facts.possible second :=
  not_congr (agrees false symbol other)

/-- Where entering the inputs of a merge adds nothing, they have been entered already. -/
theorem entered_of_unchanged {facts middle : Facts} {wires inputs : List Wire} {output : Wire}
    (grows : Grows .anything facts middle)
    (inside : ∀ input ∈ inputs, input ∈ wires ∧ input < facts.size)
    (outputInside : output ∈ wires ∧ output < facts.size)
    (unchanged : (inputs.foldl (mergeInput output) middle).KnownIn facts wires) :
    ∀ input ∈ inputs,
      (∀ symbol ∈ (facts.get input).includes, symbol ∈ (facts.get output).includes) ∧
        ∀ symbol ∈ (facts.get output).excludes, symbol ∈ (facts.get input).excludes := by
  induction inputs generalizing middle with
  | nil => simp
  | cons input rest ih =>
      obtain ⟨here, inRest⟩ := List.forall_mem_cons.mp inside
      have carried := grows.trans (free_carryOver middle input output none)
      have entered : Grows .anything facts (mergeInput output middle input) :=
        carried.trans (free_lackOver ..)
      have later : Grows .anything (mergeInput output middle input)
          (rest.foldl (mergeInput output) (mergeInput output middle input)) :=
        .foldl (fun facts _ member => grows_mergeInput facts (View.anything_merges rest output)
          member) _
      have enteredUnchanged := unchanged.before later
      refine List.forall_mem_cons.mpr ⟨⟨?_, ?_⟩, ih entered inRest unchanged⟩
      · intro symbol known
        exact carryOver_known outputInside.1 (grows.size ▸ outputInside.2)
          (enteredUnchanged.before (free_lackOver ..)) nofun (grows.keeps input true symbol known)
      · intro symbol known
        exact lackOver_known here.1 (carried.size ▸ here.2) enteredUnchanged nofun
          (carried.keeps output false symbol known)

/--
Where a merge has nothing to add, all inputs have been entered, and the output lacks what they all
lack.
-/
theorem told_of_merge {facts : Facts} {wires inputs : List Wire} {output : Wire}
    (inputsInside : ∀ input ∈ inputs, input ∈ wires ∧ input < facts.size)
    (outputInside : output ∈ wires ∧ output < facts.size)
    (unchanged : (facts.merge inputs output).KnownIn facts wires) :
    (∀ input ∈ inputs,
      (∀ symbol ∈ (facts.get input).includes, symbol ∈ (facts.get output).includes) ∧
        ∀ symbol ∈ (facts.get output).excludes, symbol ∈ (facts.get input).excludes) ∧
      (inputs ≠ [] → ∀ symbol, (∀ input ∈ inputs, symbol ∈ (facts.get input).excludes) →
        symbol ∈ (facts.get output).excludes) := by
  have merges := View.anything_merges inputs output
  have entered : Grows .anything facts (inputs.foldl (mergeInput output) facts) :=
    .foldl (fun facts _ member => grows_mergeInput facts merges member) facts
  have told := unchanged.before (grows_supplies merges _ fun _ _ _ => trivial)
  have begun := told.before (free_lack ..)
  refine ⟨entered_of_unchanged (.refl facts) inputsInside outputInside begun, ?_⟩
  intro fed symbol all
  refine lack_known outputInside.1 (entered.size ▸ outputInside.2) told
    (mem_lackedByAll.mpr ⟨fed, fun input member => ?_⟩)
  exact entered.keeps input false symbol (all input member)

/-- Where a merge has nothing to add, its output may carry what one of its inputs may. -/
theorem possible_of_merge {facts : Facts} {wires inputs : List Wire} {output : Wire}
    (fed : inputs ≠ []) (inputsInside : ∀ input ∈ inputs, input ∈ wires ∧ input < facts.size)
    (outputInside : output ∈ wires ∧ output < facts.size)
    (unchanged : (facts.merge inputs output).KnownIn facts wires) :
    facts.possible output = {symbol | ∃ flow ∈ inputs.map facts.possible, symbol ∈ flow} := by
  obtain ⟨entered, lackedByAll⟩ := told_of_merge inputsInside outputInside unchanged
  ext symbol
  simp only [List.mem_map, exists_exists_and_eq_and, Set.mem_ofPred_eq]
  constructor
  · intro possible
    by_contra none_possible
    refine possible (lackedByAll fed symbol fun input member => ?_)
    have lacked : ¬ symbol ∉ (facts.get input).excludes :=
      fun possible => none_possible ⟨input, member, possible⟩
    exact not_not.mp lacked
  · rintro ⟨input, member, possible⟩ known
    exact possible ((entered input member).2 symbol known)

theorem eq_insert_of_agrees {symbol : Symbol} {input output : Set Symbol}
    (present : symbol ∈ output)
    (agrees : ∀ other, some other ≠ some symbol → (other ∈ input ↔ other ∈ output)) :
    output = insert symbol input := by
  ext other
  by_cases same : other = symbol
  · simp [same, present]
  · simp [same, agrees]

theorem eq_diff_of_agrees {symbol : Symbol} {input output : Set Symbol}
    (absent : symbol ∉ output)
    (agrees : ∀ other, some other ≠ some symbol → (other ∈ input ↔ other ∈ output)) :
    output = input \ {symbol} := by
  ext other
  by_cases same : other = symbol
  · simp [same, absent]
  · simp [same, agrees]

/--
Where one end of a primitive is told to carry a symbol already, one to lack it, and both to agree on
all others.
-/
theorem told_of_unchanged {facts : Facts} {wires : List Wire}
    {carrying lacking input output : Wire} {symbol : Symbol}
    (inputInside : input ∈ wires ∧ input < facts.size)
    (outputInside : output ∈ wires ∧ output < facts.size)
    (carries : carrying ∈ [input, output]) (lacks : lacking ∈ [input, output])
    (unchanged : (((facts.carry carrying (.singleton symbol)).lack lacking
      (.singleton symbol)).agree input output (some symbol)).KnownIn facts wires) :
    symbol ∈ (facts.get carrying).includes ∧ symbol ∈ (facts.get lacking).excludes ∧
      (View.ofFacts facts).Agrees input output (some symbol) := by
  have inside : ∀ wire ∈ [input, output], wire ∈ wires ∧ wire < facts.size := by
    simpa using ⟨inputInside, outputInside⟩
  have carried := free_carry facts carrying (.singleton symbol)
  have lackedUnchanged := unchanged.before (free_agree ..)
  refine ⟨?_, ?_, ?_⟩
  · obtain ⟨here, below⟩ := inside carrying carries
    exact carry_known here below (lackedUnchanged.before (free_lack ..))
      (SymbolSet.mem_singleton.mpr rfl)
  · obtain ⟨here, below⟩ := inside lacking lacks
    exact lack_known here (carried.size.symm ▸ below) lackedUnchanged
      (SymbolSet.mem_singleton.mpr rfl)
  · exact agrees_of_unchanged (carried.trans (free_lack ..)) inputInside outputInside unchanged

/-- Where one end of a primitive is told to carry a symbol already, and both to agree on others. -/
theorem told_of_spawn {facts : Facts} {wires : List Wire} {input output : Wire} {symbol : Symbol}
    (inputInside : input ∈ wires ∧ input < facts.size)
    (outputInside : output ∈ wires ∧ output < facts.size)
    (unchanged : ((facts.carry output (.singleton symbol)).agree input output
      (some symbol)).KnownIn facts wires) :
    symbol ∈ (facts.get output).includes ∧
      (View.ofFacts facts).Agrees input output (some symbol) := by
  refine ⟨?_, agrees_of_unchanged (free_carry ..) inputInside outputInside unchanged⟩
  exact carry_known outputInside.1 outputInside.2 (unchanged.before (free_agree ..))
    (SymbolSet.mem_singleton.mpr rfl)

/-- Where all outputs are told to agree with an input already. -/
theorem told_of_split {facts middle : Facts} {wires outputs : List Wire} {input : Wire}
    (inputInside : input ∈ wires ∧ input < facts.size)
    (inside : ∀ output ∈ outputs, output ∈ wires ∧ output < facts.size)
    (grows : Grows .anything facts middle)
    (unchanged : (outputs.foldl (fun facts output => facts.agree input output none)
      middle).KnownIn facts wires) :
    ∀ output ∈ outputs, (View.ofFacts facts).Agrees input output none := by
  induction outputs generalizing middle with
  | nil => simp
  | cons output rest ih =>
      obtain ⟨here, inRest⟩ := List.forall_mem_cons.mp inside
      have later : Grows .anything (middle.agree input output none)
          (rest.foldl (fun facts output => facts.agree input output none)
            (middle.agree input output none)) :=
        .foldl (fun _ _ _ => free_agree ..) _
      refine List.forall_mem_cons.mpr ⟨?_, ih inRest (grows.trans (free_agree ..)) unchanged⟩
      exact agrees_of_unchanged grows inputInside here (unchanged.before later)

/--
Where the rules of a primitive have nothing to add to consistent facts, the symbols that its wires
are not known to lack obey its law.
-/
theorem lawful_of_unchanged {facts : Facts} {primitive : Primitive} {inputs outputs : List Wire}
    (inputCount : inputs.length = primitive.inputs)
    (outputCount : outputs.length = primitive.outputs) (fed : 0 < primitive.inputs)
    (inside : ∀ wire ∈ inputs ++ outputs, wire < facts.size)
    (unchanged : (facts.apply primitive inputs outputs).KnownIn facts (inputs ++ outputs))
    (consistent : ∀ wire ∈ inputs ++ outputs, facts.Consistent wire) :
    primitive.Lawful (inputs.map facts.possible) (outputs.map facts.possible) := by
  have known : ∀ wire ∈ inputs ++ outputs, wire ∈ inputs ++ outputs ∧ wire < facts.size :=
    fun wire member => ⟨member, inside wire member⟩
  cases primitive with
  | add symbol =>
      obtain ⟨input, rfl⟩ := List.length_eq_one_iff.mp inputCount
      obtain ⟨output, rfl⟩ := List.length_eq_one_iff.mp outputCount
      obtain ⟨present, absent, agrees⟩ := told_of_unchanged (known input (by simp))
        (known output (by simp)) (by simp) (by simp) unchanged
      exact ⟨fun possible => possible absent,
        eq_insert_of_agrees (consistent output (by simp) symbol present)
          (possible_of_agrees agrees)⟩
  | remove symbol =>
      obtain ⟨input, rfl⟩ := List.length_eq_one_iff.mp inputCount
      obtain ⟨output, rfl⟩ := List.length_eq_one_iff.mp outputCount
      obtain ⟨present, absent, agrees⟩ := told_of_unchanged (known input (by simp))
        (known output (by simp)) (by simp) (by simp) unchanged
      exact ⟨consistent input (by simp) symbol present,
        eq_diff_of_agrees (fun possible => possible absent) (possible_of_agrees agrees)⟩
  | spawn symbol =>
      obtain ⟨input, rfl⟩ := List.length_eq_one_iff.mp inputCount
      obtain ⟨output, rfl⟩ := List.length_eq_one_iff.mp outputCount
      obtain ⟨present, agrees⟩ :=
        told_of_spawn (known input (by simp)) (known output (by simp)) unchanged
      exact eq_insert_of_agrees (consistent output (by simp) symbol present)
        (possible_of_agrees agrees)
  | union count =>
      obtain ⟨output, rfl⟩ := List.length_eq_one_iff.mp outputCount
      exact possible_of_merge (List.ne_nil_of_length_pos (inputCount ▸ fed))
        (fun input member => known input (by simp [member])) (known output (by simp)) unchanged
  | join =>
      obtain ⟨output, rfl⟩ := List.length_eq_one_iff.mp outputCount
      exact possible_of_merge (List.ne_nil_of_length_pos (inputCount ▸ fed))
        (fun input member => known input (by simp [member])) (known output (by simp)) unchanged
  | split =>
      obtain ⟨input, rfl⟩ := List.length_eq_one_iff.mp inputCount
      obtain ⟨first, second, rfl⟩ := List.length_eq_two.mp outputCount
      have agrees := told_of_split (known input (by simp))
        (fun output member => known output (List.mem_append_right _ member)) (.refl facts) unchanged
      have same (output : Wire) (member : output ∈ [first, second]) :
          facts.possible output = facts.possible input :=
        Set.ext fun symbol =>
          (possible_of_agrees (agrees output member) symbol (Option.some_ne_none symbol)).symm
      exact ⟨same first (by simp), same second (by simp)⟩

end Facts

end FlowDiagram

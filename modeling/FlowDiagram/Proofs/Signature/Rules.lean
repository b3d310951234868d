import FlowDiagram.Signature.Rules

/-!
# What the rules add

Applying the rules of a primitive only ever adds facts, and only facts that the rules imply: what
is known stays within any view that is closed under them.
-/

namespace FlowDiagram

/-! ## What is known of a wire -/

/-- The symbols known to be carried, or those known to be lacked. -/
def PortType.known (type : PortType) : Bool → SymbolSet
  | true => type.includes
  | false => type.excludes

@[simp]
theorem PortType.known_true (type : PortType) : type.known true = type.includes := rfl

@[simp]
theorem PortType.known_false (type : PortType) : type.known false = type.excludes := rfl

/-- Which facts there may be: of a wire, that it carries or lacks a symbol. -/
abbrev View := Wire → Bool → Symbol → Prop

/-- The facts that are known. -/
def View.ofFacts (facts : Facts) : View :=
  fun wire sort symbol => symbol ∈ (facts.get wire).known sort

namespace Facts

/-- All that is known is in a view. -/
def Within (view : View) (facts : Facts) : Prop :=
  ∀ wire sort symbol, symbol ∈ (facts.get wire).known sort → view wire sort symbol

theorem get_unknown (wires : Nat) (wire : Wire) : (unknown wires).get wire = .unknown := by
  unfold get unknown
  rw [Array.getElem?_replicate]
  split <;> rfl

theorem within_unknown (view : View) (wires : Nat) : (unknown wires).Within view := by
  intro wire sort symbol known
  rw [get_unknown] at known
  cases sort <;> exact absurd known (SymbolSet.not_mem_empty symbol)

theorem get_modify (facts : Facts) (target wire : Wire) (change : PortType → PortType) :
    Facts.get (Array.modify facts target change) wire =
      if wire = target ∧ wire < facts.size then change (facts.get wire) else facts.get wire := by
  unfold get
  rw [Array.getElem?_modify]
  by_cases same : target = wire
  · subst same
    by_cases inside : target < facts.size
    · simp [inside]
    · simp [inside]
  · simp [same, eq_comm]

/-- One wire is now known to carry, or to lack, some symbols more. -/
structure Learns (target : Wire) (sort : Bool) (symbols : SymbolSet) (before after : Facts) :
    Prop where
  size : after.size = before.size
  known_iff : ∀ wire other symbol, symbol ∈ (after.get wire).known other ↔
    symbol ∈ (before.get wire).known other ∨
      wire = target ∧ wire < before.size ∧ other = sort ∧ symbol ∈ symbols

theorem learns_modify {facts : Facts} {target : Wire} {sort : Bool} {symbols : SymbolSet}
    {change : PortType → PortType}
    (changed : ∀ type other symbol, symbol ∈ (change type).known other ↔
      symbol ∈ type.known other ∨ other = sort ∧ symbol ∈ symbols) :
    Learns target sort symbols facts (Array.modify facts target change) where
  size := Array.size_modify
  known_iff wire other symbol := by
    rw [get_modify]
    split
    · rename_i here
      obtain ⟨rfl, inside⟩ := here
      simp [changed, inside]
    · rename_i elsewhere
      have nothing : ¬ (wire = target ∧ wire < facts.size ∧ other = sort ∧ symbol ∈ symbols) :=
        fun ⟨same, inside, _⟩ => elsewhere ⟨same, inside⟩
      simp [nothing]

theorem learns_carry (facts : Facts) (target : Wire) (symbols : SymbolSet) :
    Learns target true symbols facts (facts.carry target symbols) :=
  learns_modify fun type other symbol => by cases other <;> simp

theorem learns_lack (facts : Facts) (target : Wire) (symbols : SymbolSet) :
    Learns target false symbols facts (facts.lack target symbols) :=
  learns_modify fun type other symbol => by cases other <;> simp

/-! ## Growing within a view -/

/-- What was known stays known, and what is learned stays within a view. -/
structure Grows (view : View) (before after : Facts) : Prop where
  size : after.size = before.size
  keeps : ∀ wire sort symbol, symbol ∈ (before.get wire).known sort →
    symbol ∈ (after.get wire).known sort
  within : before.Within view → after.Within view

variable {view : View}

theorem Grows.refl (facts : Facts) : Grows view facts facts :=
  ⟨rfl, fun _ _ _ known => known, id⟩

theorem Grows.trans {first middle last : Facts} (begun : Grows view first middle)
    (done : Grows view middle last) : Grows view first last where
  size := done.size.trans begun.size
  keeps wire sort symbol known := done.keeps wire sort symbol (begun.keeps wire sort symbol known)
  within initial := done.within (begun.within initial)

theorem Grows.foldl {α : Type} {learn : Facts → α → Facts} {items : List α}
    (step : ∀ facts, ∀ item ∈ items, Grows view facts (learn facts item)) (facts : Facts) :
    Grows view facts (items.foldl learn facts) := by
  induction items generalizing facts with
  | nil => exact .refl facts
  | cons item rest ih =>
      have first := step facts item (by simp)
      exact first.trans (ih (fun facts item member => step facts item (by simp [member])) _)

theorem Learns.grows {target : Wire} {sort : Bool} {symbols : SymbolSet} {before after : Facts}
    (learns : Learns target sort symbols before after)
    (allowed : before.Within view → ∀ symbol ∈ symbols, view target sort symbol) :
    Grows view before after where
  size := learns.size
  keeps wire other symbol known := (learns.known_iff wire other symbol).mpr (.inl known)
  within initial wire other symbol known := by
    rcases (learns.known_iff wire other symbol).mp known with earlier | ⟨rfl, -, rfl, member⟩
    · exact initial wire other symbol earlier
    · exact allowed initial symbol member

theorem grows_carry {facts : Facts} {target : Wire} {symbols : SymbolSet}
    (allowed : facts.Within view → ∀ symbol ∈ symbols, view target true symbol) :
    Grows view facts (facts.carry target symbols) :=
  (learns_carry facts target symbols).grows allowed

theorem grows_lack {facts : Facts} {target : Wire} {symbols : SymbolSet}
    (allowed : facts.Within view → ∀ symbol ∈ symbols, view target false symbol) :
    Grows view facts (facts.lack target symbols) :=
  (learns_lack facts target symbols).grows allowed

theorem grows_carryOver (facts : Facts) {source target : Wire} {except : Option Symbol}
    (passes : ∀ symbol, some symbol ≠ except → view source true symbol →
      view target true symbol) :
    Grows view facts (facts.carryOver source target except) := by
  refine grows_carry fun initial symbol member => ?_
  obtain ⟨known, other⟩ := SymbolSet.mem_filter.mp member
  exact passes symbol (by simpa using other) (initial source true symbol known)

theorem grows_lackOver (facts : Facts) {source target : Wire} {except : Option Symbol}
    (passes : ∀ symbol, some symbol ≠ except → view source false symbol →
      view target false symbol) :
    Grows view facts (facts.lackOver source target except) := by
  refine grows_lack fun initial symbol member => ?_
  obtain ⟨known, other⟩ := SymbolSet.mem_filter.mp member
  exact passes symbol (by simpa using other) (initial source false symbol known)

/-! ## Views closed under the rules -/

end Facts

namespace View

/-- A view says the same of two wires, but for one symbol. -/
def Agrees (view : View) (first second : Wire) (except : Option Symbol) : Prop :=
  ∀ sort symbol, some symbol ≠ except → (view first sort symbol ↔ view second sort symbol)

/-- A view is closed under the rules of a merge. -/
structure Merges (view : View) (inputs : List Wire) (output : Wire) : Prop where
  carried : ∀ input ∈ inputs, ∀ symbol, view input true symbol → view output true symbol
  lacked : ∀ input ∈ inputs, ∀ symbol, view output false symbol → view input false symbol
  lackedByAll : inputs ≠ [] → ∀ symbol, (∀ input ∈ inputs, view input false symbol) →
    view output false symbol
  /-- What comes out comes in where it is not lacked; one wire may feed several inputs. -/
  supplied : ∀ before only after, inputs = before ++ only :: after → ∀ symbol,
    view output true symbol → (∀ input ∈ before ++ after, view input false symbol) →
      view only true symbol

/-- A view is closed under the rules of a primitive. -/
def Closed (view : View) : Primitive → List Wire → List Wire → Prop
  | .add symbol, input :: _, output :: _ =>
    view output true symbol ∧ view input false symbol ∧ view.Agrees input output (some symbol)
  | .remove symbol, input :: _, output :: _ =>
    view input true symbol ∧ view output false symbol ∧ view.Agrees input output (some symbol)
  | .spawn symbol, input :: _, output :: _ =>
    view output true symbol ∧ view.Agrees input output (some symbol)
  | .union _, inputs, output :: _ | .join, inputs, output :: _ => view.Merges inputs output
  | .split, input :: _, outputs => ∀ output ∈ outputs, view.Agrees input output none
  | _, _, _ => True

/-- The view that any fact is in. -/
def anything : View := fun _ _ _ => True

theorem anything_merges (inputs : List Wire) (output : Wire) : anything.Merges inputs output :=
  ⟨fun _ _ _ => id, fun _ _ _ => id, fun _ _ _ => trivial, fun _ _ _ _ _ _ _ => trivial⟩

end View

namespace Facts

variable {view : View}

theorem grows_agree (facts : Facts) {first second : Wire} {except : Option Symbol}
    (agrees : view.Agrees first second except) :
    Grows view facts (facts.agree first second except) := by
  have onward : ∀ sort symbol, some symbol ≠ except → view first sort symbol →
      view second sort symbol := fun sort symbol other => (agrees sort symbol other).mp
  have back : ∀ sort symbol, some symbol ≠ except → view second sort symbol →
      view first sort symbol := fun sort symbol other => (agrees sort symbol other).mpr
  exact (((grows_carryOver _ (onward true)).trans (grows_lackOver _ (onward false))).trans
    (grows_carryOver _ (back true))).trans (grows_lackOver _ (back false))

theorem grows_mergeInput (facts : Facts) {inputs : List Wire} {input output : Wire}
    (merges : view.Merges inputs output) (member : input ∈ inputs) :
    Grows view facts (mergeInput output facts input) :=
  (grows_carryOver facts fun symbol _ => merges.carried input member symbol).trans
    (grows_lackOver _ fun symbol _ => merges.lacked input member symbol)

theorem mem_lackedByAll {facts : Facts} {inputs : List Wire} {symbol : Symbol} :
    symbol ∈ facts.lackedByAll inputs ↔
      inputs ≠ [] ∧ ∀ input ∈ inputs, symbol ∈ (facts.get input).excludes := by
  cases inputs with
  | nil => simp [lackedByAll]
  | cons first rest => simp [lackedByAll]

theorem grows_supply (facts : Facts) {inputs : List Wire} {output : Wire} {symbol : Symbol}
    (merges : view.Merges inputs output)
    (needed : facts.Within view → view output true symbol) :
    Grows view facts (supply inputs facts symbol) := by
  unfold supply
  split
  · exact .refl facts
  · split
    · rename_i only candidates
      refine grows_carry fun initial other single => ?_
      obtain rfl := SymbolSet.mem_singleton.mp single
      obtain ⟨before, after, split, noneBefore, -, noneAfter⟩ :=
        List.filter_eq_cons_iff.mp candidates
      refine merges.supplied before only after split other (needed initial) ?_
      -- an input that is no candidate is known to lack the symbol
      intro input inside
      have excluded : ¬ decide (other ∉ (facts.get input).excludes) = true := by
        rcases List.mem_append.mp inside with inBefore | inAfter
        · exact noneBefore input inBefore
        · exact List.filter_eq_nil_iff.mp noneAfter input inAfter
      exact initial input false other (by simpa using excluded)
    · exact .refl facts

theorem grows_supplies {inputs : List Wire} {output : Wire} {symbols : List Symbol}
    (merges : view.Merges inputs output) (facts : Facts)
    (needed : facts.Within view → ∀ symbol ∈ symbols, view output true symbol) :
    Grows view facts (symbols.foldl (supply inputs) facts) := by
  by_cases initial : facts.Within view
  · exact .foldl (fun _ symbol member =>
      grows_supply _ merges fun _ => needed initial symbol member) facts
  · -- outside the view, only growing is left to show
    have free : Grows .anything facts (symbols.foldl (supply inputs) facts) :=
      .foldl (fun _ _ _ => grows_supply _ (View.anything_merges inputs output) fun _ => trivial)
        facts
    exact ⟨free.size, free.keeps, fun within => absurd within initial⟩

theorem grows_merge (facts : Facts) {inputs : List Wire} {output : Wire}
    (merges : view.Merges inputs output) : Grows view facts (facts.merge inputs output) := by
  unfold merge
  have entered : Grows view facts (inputs.foldl (mergeInput output) facts) :=
    .foldl (fun facts _ member => grows_mergeInput facts merges member) facts
  refine (entered.trans (grows_lack fun initial symbol member => ?_)).trans
    (grows_supplies merges _ fun initial symbol member => initial output true symbol member)
  obtain ⟨nonempty, all⟩ := mem_lackedByAll.mp member
  exact merges.lackedByAll nonempty symbol fun input inside =>
    initial input false symbol (all input inside)

/-- Applying the rules of a primitive adds only what a view closed under them allows. -/
theorem grows_apply (facts : Facts) {primitive : Primitive} {inputs outputs : List Wire}
    (closed : view.Closed primitive inputs outputs) :
    Grows view facts (facts.apply primitive inputs outputs) := by
  unfold apply
  split
  · obtain ⟨carried, lacked, agrees⟩ := closed
    exact ((grows_carry fun _ symbol single => SymbolSet.mem_singleton.mp single ▸ carried).trans
      (grows_lack fun _ symbol single => SymbolSet.mem_singleton.mp single ▸ lacked)).trans
      (grows_agree _ agrees)
  · obtain ⟨carried, lacked, agrees⟩ := closed
    exact ((grows_carry fun _ symbol single => SymbolSet.mem_singleton.mp single ▸ carried).trans
      (grows_lack fun _ symbol single => SymbolSet.mem_singleton.mp single ▸ lacked)).trans
      (grows_agree _ agrees)
  · obtain ⟨carried, agrees⟩ := closed
    exact (grows_carry fun _ symbol single => SymbolSet.mem_singleton.mp single ▸ carried).trans
      (grows_agree _ agrees)
  · exact grows_merge facts closed
  · exact grows_merge facts closed
  · exact .foldl (fun facts output member => grows_agree facts (closed output member)) facts
  · exact .refl facts

end Facts

end FlowDiagram

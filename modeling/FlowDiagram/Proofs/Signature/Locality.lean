import FlowDiagram.Proofs.Signature.Rules
import Mathlib.Data.List.Sort

/-!
# Where the rules look

The rules of a primitive look at no wires but its own.  Two states of the facts that tell the same
of these wires still do when the rules have been applied to both.
-/

namespace FlowDiagram

/-! ## When two states are the same -/

/-- Two sets with the same members are the same. -/
theorem SymbolSet.eq_of_mem_iff {first second : SymbolSet}
    (same : ∀ symbol, symbol ∈ first ↔ symbol ∈ second) : first = second := by
  obtain ⟨symbols, increasing⟩ := first
  obtain ⟨others, othersIncreasing⟩ := second
  congr
  exact increasing.eq_of_mem_iff othersIncreasing same

/-- Two types that tell the same are the same. -/
theorem PortType.eq_of_known {first second : PortType}
    (same : ∀ sort symbol, symbol ∈ first.known sort ↔ symbol ∈ second.known sort) :
    first = second := by
  obtain ⟨includes, excludes⟩ := first
  obtain ⟨othersIncluded, othersExcluded⟩ := second
  congr
  · exact SymbolSet.eq_of_mem_iff (same true)
  · exact SymbolSet.eq_of_mem_iff (same false)

namespace Facts

/-- Of a wire that is not there, nothing is known. -/
theorem get_of_size_le {facts : Facts} {wire : Wire} (outside : facts.size ≤ wire) :
    facts.get wire = .unknown := by
  unfold get
  rw [Array.getElem?_eq_none outside]
  rfl

/-- Two states of as many wires that tell the same of each are the same. -/
theorem eq_of_get {first second : Facts} (size : first.size = second.size)
    (same : ∀ wire, first.get wire = second.get wire) : first = second := by
  refine Array.ext size fun wire inside insideSecond => ?_
  simpa [get, inside, insideSecond] using same wire

/-! ## Looking at some wires only -/

/-- Two states are of as many wires, and tell the same of some of them. -/
structure Alike (wires : List Wire) (first second : Facts) : Prop where
  size : first.size = second.size
  get : ∀ wire ∈ wires, first.get wire = second.get wire

variable {wires : List Wire} {first second : Facts}

theorem Alike.foldl {α : Type} {learn : Facts → α → Facts} {items : List α}
    (step : ∀ first second, ∀ item ∈ items, Alike wires first second →
      Alike wires (learn first item) (learn second item))
    (alike : Alike wires first second) :
    Alike wires (items.foldl learn first) (items.foldl learn second) := by
  induction items generalizing first second with
  | nil => exact alike
  | cons item rest ih =>
      refine ih (fun first second item member => step first second item ?_) ?_
      · exact List.mem_cons_of_mem _ member
      · exact step first second item List.mem_cons_self alike

theorem Alike.modify (alike : Alike wires first second) (target : Wire)
    (change : PortType → PortType) :
    Alike wires (Array.modify first target change) (Array.modify second target change) where
  size := by simpa using alike.size
  get wire member := by rw [get_modify, get_modify, alike.size, alike.get wire member]

theorem Alike.carry (alike : Alike wires first second) (target : Wire) (symbols : SymbolSet) :
    Alike wires (first.carry target symbols) (second.carry target symbols) :=
  alike.modify target _

theorem Alike.lack (alike : Alike wires first second) (target : Wire) (symbols : SymbolSet) :
    Alike wires (first.lack target symbols) (second.lack target symbols) :=
  alike.modify target _

theorem Alike.carryOver (alike : Alike wires first second) {source : Wire}
    (looks : source ∈ wires) (target : Wire) (except : Option Symbol) :
    Alike wires (first.carryOver source target except) (second.carryOver source target except) := by
  unfold Facts.carryOver
  rw [alike.get source looks]
  exact alike.carry target _

theorem Alike.lackOver (alike : Alike wires first second) {source : Wire}
    (looks : source ∈ wires) (target : Wire) (except : Option Symbol) :
    Alike wires (first.lackOver source target except) (second.lackOver source target except) := by
  unfold Facts.lackOver
  rw [alike.get source looks]
  exact alike.lack target _

theorem Alike.agree (alike : Alike wires first second) {one other : Wire} (looks : one ∈ wires)
    (looksToo : other ∈ wires) (except : Option Symbol) :
    Alike wires (first.agree one other except) (second.agree one other except) :=
  (((alike.carryOver looks other except).lackOver looks other except).carryOver looksToo one
    except).lackOver looksToo one except

theorem Alike.lackedByAll (alike : Alike wires first second) {inputs : List Wire}
    (look : inputs ⊆ wires) : first.lackedByAll inputs = second.lackedByAll inputs := by
  refine SymbolSet.eq_of_mem_iff fun symbol => ?_
  rw [mem_lackedByAll, mem_lackedByAll]
  refine and_congr_right fun _ => forall₂_congr fun input member => ?_
  rw [alike.get input (look member)]

theorem Alike.supply (alike : Alike wires first second) {inputs : List Wire}
    (look : inputs ⊆ wires) (symbol : Symbol) :
    Alike wires (first.supply inputs symbol) (second.supply inputs symbol) := by
  have carried : (inputs.any fun wire => decide (symbol ∈ (first.get wire).includes)) =
      inputs.any fun wire => decide (symbol ∈ (second.get wire).includes) := by
    rw [Bool.eq_iff_iff, List.any_eq_true, List.any_eq_true]
    refine exists_congr fun wire => and_congr_right fun member => ?_
    rw [alike.get wire (look member)]
  have candidates : (inputs.filter fun wire => decide (symbol ∉ (first.get wire).excludes)) =
      inputs.filter fun wire => decide (symbol ∉ (second.get wire).excludes) :=
    List.filter_congr fun wire member => by rw [alike.get wire (look member)]
  unfold Facts.supply
  rw [carried, candidates]
  split
  · exact alike
  · split
    · exact alike.carry _ _
    · exact alike

theorem Alike.merge (alike : Alike wires first second) {inputs : List Wire} {output : Wire}
    (look : inputs ⊆ wires) (looks : output ∈ wires) :
    Alike wires (first.merge inputs output) (second.merge inputs output) := by
  have entered : Alike wires (inputs.foldl (mergeInput output) first)
      (inputs.foldl (mergeInput output) second) :=
    alike.foldl fun _ _ input member alike =>
      (alike.carryOver (look member) output none).lackOver looks input none
  have lacked := entered.lack output ((inputs.foldl (mergeInput output) second).lackedByAll inputs)
  unfold Facts.merge
  dsimp only
  rw [entered.lackedByAll look, lacked.get output looks]
  exact lacked.foldl fun _ _ symbol _ alike => alike.supply look symbol

/-- The rules of a primitive look at no wires but its own. -/
theorem Alike.apply (alike : Alike wires first second) (primitive : Primitive)
    {inputs outputs : List Wire} (look : inputs ++ outputs ⊆ wires) :
    Alike wires (first.apply primitive inputs outputs) (second.apply primitive inputs outputs) := by
  obtain ⟨lookIn, lookOut⟩ := List.append_subset.mp look
  unfold Facts.apply
  split
  · exact ((alike.carry _ _).lack _ _).agree (look (by simp)) (look (by simp)) _
  · exact ((alike.carry _ _).lack _ _).agree (look (by simp)) (look (by simp)) _
  · exact (alike.carry _ _).agree (look (by simp)) (look (by simp)) _
  · exact alike.merge lookIn (lookOut List.mem_cons_self)
  · exact alike.merge lookIn (lookOut List.mem_cons_self)
  · exact alike.foldl fun _ _ output member alike =>
      alike.agree (look (by simp)) (lookOut member) none
  · exact alike

end Facts

end FlowDiagram

import FlowDiagram.Symbol

/-!
# Sets of symbols

A finite set of symbols is kept as the increasing list of its members, so that two sets with the
same members are the same, and a set is always told in the same order.  Two sets are united by one
walk along both lists.
-/

namespace FlowDiagram

/-! ## Increasing lists -/

/--
Put a symbol into an increasing list, unless it is there.  What stands behind the symbol in the end
is `rest` of what stood behind it before.
-/
def insertBefore (symbol : Symbol) (rest : List Symbol → List Symbol) : List Symbol → List Symbol
  | [] => symbol :: rest []
  | first :: others =>
    if symbol < first then symbol :: rest (first :: others)
    else if symbol = first then symbol :: rest others
    else first :: insertBefore symbol rest others

/-- The members of two increasing lists, each once. -/
def mergeIncreasing : List Symbol → List Symbol → List Symbol
  | [], others => others
  | symbol :: rest, others => insertBefore symbol (mergeIncreasing rest) others

theorem mem_mergeIncreasing {symbols others : List Symbol} {other : Symbol} :
    other ∈ mergeIncreasing symbols others ↔ other ∈ symbols ∨ other ∈ others := by
  induction symbols generalizing others with
  | nil => simp [mergeIncreasing]
  | cons symbol rest ih =>
    rw [mergeIncreasing]
    induction others with
    | nil => simp [insertBefore, ih]
    | cons first others ihOthers =>
      unfold insertBefore
      split
      · simp [ih, or_assoc]
      · split
        · rename_i same
          simp only [List.mem_cons, ih, same]
          grind
        · simp only [List.mem_cons, ihOthers]
          grind

theorem mergeIncreasing_increasing {symbols others : List Symbol}
    (increasing : symbols.Pairwise (· < ·)) (othersIncreasing : others.Pairwise (· < ·)) :
    (mergeIncreasing symbols others).Pairwise (· < ·) := by
  induction symbols generalizing others with
  | nil => exact othersIncreasing
  | cons symbol rest ih =>
    rw [mergeIncreasing]
    obtain ⟨above, restIncreasing⟩ := List.pairwise_cons.1 increasing
    induction others with
    | nil =>
      refine List.pairwise_cons.2 ⟨fun other member => ?_, ih restIncreasing .nil⟩
      simp only [mem_mergeIncreasing, List.not_mem_nil, or_false] at member
      exact above other member
    | cons first others ihOthers =>
      obtain ⟨aboveFirst, tailIncreasing⟩ := List.pairwise_cons.1 othersIncreasing
      unfold insertBefore
      split
      · rename_i less
        refine List.pairwise_cons.2 ⟨fun other member => ?_, ih restIncreasing othersIncreasing⟩
        rcases mem_mergeIncreasing.1 member with member | member
        · exact above other member
        · rcases List.mem_cons.1 member with same | later
          · exact same ▸ less
          · exact String.lt_trans less (aboveFirst other later)
      · split
        · rename_i same
          refine List.pairwise_cons.2 ⟨fun other member => ?_, ih restIncreasing tailIncreasing⟩
          rcases mem_mergeIncreasing.1 member with member | member
          · exact above other member
          · exact same ▸ aboveFirst other member
        · rename_i notLess different
          have greater : first < symbol := String.not_le.1 fun notGreater =>
            different (String.le_antisymm notGreater (String.not_lt.1 notLess))
          refine List.pairwise_cons.2 ⟨fun other member => ?_, ihOthers tailIncreasing⟩
          have merged : other ∈ mergeIncreasing (symbol :: rest) others := member
          rcases mem_mergeIncreasing.1 merged with member | member
          · rcases List.mem_cons.1 member with same | later
            · exact same ▸ greater
            · exact String.lt_trans greater (above other later)
          · exact aboveFirst other member

/-! ## Sets -/

/-- A finite set of symbols. -/
structure SymbolSet where
  toList : List Symbol
  increasing : toList.Pairwise (· < ·)
  deriving DecidableEq

namespace SymbolSet

def empty : SymbolSet := ⟨[], .nil⟩

instance : Inhabited SymbolSet := ⟨empty⟩

instance : Membership Symbol SymbolSet := ⟨fun set symbol => symbol ∈ set.toList⟩

instance (symbol : Symbol) (set : SymbolSet) : Decidable (symbol ∈ set) :=
  inferInstanceAs (Decidable (symbol ∈ set.toList))

def size (set : SymbolSet) : Nat := set.toList.length

def singleton (symbol : Symbol) : SymbolSet :=
  ⟨[symbol], List.pairwise_singleton _ _⟩

def union (first second : SymbolSet) : SymbolSet :=
  ⟨mergeIncreasing first.toList second.toList,
    mergeIncreasing_increasing first.increasing second.increasing⟩

def filter (keep : Symbol → Bool) (set : SymbolSet) : SymbolSet :=
  ⟨set.toList.filter keep, set.increasing.filter keep⟩

def ofList (symbols : List Symbol) : SymbolSet :=
  symbols.foldr (fun symbol set => (singleton symbol).union set) empty

theorem mem_def {symbol : Symbol} {set : SymbolSet} : symbol ∈ set ↔ symbol ∈ set.toList :=
  Iff.rfl

@[simp]
theorem not_mem_empty (symbol : Symbol) : symbol ∉ empty := by
  simp [mem_def, empty]

@[simp]
theorem mem_singleton {symbol other : Symbol} : other ∈ singleton symbol ↔ other = symbol := by
  simp [mem_def, singleton]

@[simp]
theorem mem_union {symbol : Symbol} {first second : SymbolSet} :
    symbol ∈ first.union second ↔ symbol ∈ first ∨ symbol ∈ second :=
  mem_mergeIncreasing

@[simp]
theorem mem_filter {symbol : Symbol} {keep : Symbol → Bool} {set : SymbolSet} :
    symbol ∈ set.filter keep ↔ symbol ∈ set ∧ keep symbol = true := by
  simp [mem_def, filter]

@[simp]
theorem mem_ofList {symbols : List Symbol} {other : Symbol} :
    other ∈ ofList symbols ↔ other ∈ symbols := by
  induction symbols with
  | nil => simp [ofList]
  | cons first rest ih =>
    have step : ofList (first :: rest) = (singleton first).union (ofList rest) := rfl
    rw [step, mem_union, mem_singleton, ih, List.mem_cons]

end SymbolSet

end FlowDiagram

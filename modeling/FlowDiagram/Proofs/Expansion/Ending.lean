import FlowDiagram.Proofs.Expansion.Deepening
import FlowDiagram.Proofs.Unfolding.Renewing
import FlowDiagram.Proofs.Unfolding.Settling

/-!
# Expansion within a budget

The depth alone ends an expansion, so that some budget is enough for it, where recursion settles.
Where it does not, a definition passes the symbols introduced for it on to itself as universal ones,
is never under the same universal symbols again, and is cut off at no depth.
-/

namespace FlowDiagram

namespace ResolvedProgram

variable {program : ResolvedProgram} {root : program.Index}

/-- Where recursion settles there is a budget with which, as with any larger one, a root expands. -/
theorem Settles.exists_budget (settles : program.Settles root) (sound : program.Sound)
    {generators : Option (List Symbol)}
    (count : ∀ symbols ∈ generators,
      symbols.length = (program.definition root).universal.length) (depth : Nat) :
    ∃ enough, ∀ limits : UnfoldingLimits, limits.depth = depth → limits.expired = false →
      enough ≤ limits.nodes → ∃ graph, program.expand root generators limits = .ok graph := by
  have bound : ∃ binding, (program.definition root).rootBinding generators = .ok binding := by
    cases generators with
    | none => exact ⟨_, rfl⟩
    | some symbols => exact ⟨_, if_pos (count symbols rfl)⟩
  obtain ⟨binding, hbinding⟩ := bound
  have acc : Acc (Scope.Inside program depth) (rootScope root binding) := settles.acc sound rfl
  obtain ⟨nesting, listing, listed⟩ := Scope.exists_unfold sound acc (definition_mem root) 1
  refine ⟨listing.size + 1, ?_⟩
  rintro limits rfl inTime enough
  obtain ⟨graph, expanded, -⟩ := expand_of_listing sound hbinding listed inTime enough
  exact ⟨graph, expanded⟩

/-- Where a descent renews within some steps, its root expands under no larger depth. -/
theorem Descent.RenewsWithin.expand_ne_ok {descent : program.Descent} {lag : Nat}
    (renews : descent.RenewsWithin lag) (sound : program.Sound) (written_ : program.IsWritten)
    {limits : UnfoldingLimits} (le : lag ≤ limits.depth + 1) (graph : PortGraph) :
    program.expand (descent.index 0) none limits ≠ .ok graph := by
  intro expanded
  obtain ⟨binding, nesting, listing, hbinding, listed, -⟩ := listing_of_expand sound expanded
  cases hbinding
  have unlisted := renews.unfold_eq_none written_ le (descent.reaches_root written_) nesting
  cases unlisted.symm.trans listed

/--
The depth cuts every recursion below a root, so that under any generators of the right number and
at any depth there is a budget with which, as with any larger one, the root expands, exactly if
recursion settles below the root.
-/
theorem expand_within_budget {source : List Char} {program : Program}
    (reads : Program.read source = .ok program) (root : program.resolved.Index) :
    program.resolved.Settles root ↔
      ∀ generators : Option (List Symbol),
        (∀ symbols ∈ generators,
          symbols.length = (program.resolved.definition root).universal.length) →
        ∀ depth, ∃ enough, ∀ limits : UnfoldingLimits, limits.depth = depth →
          limits.expired = false → enough ≤ limits.nodes →
            ∃ graph, program.resolved.expand root generators limits = .ok graph := by
  have sound := program.resolved_sound
  constructor
  · intro settles generators count depth
    exact settles.exists_budget sound count depth
  · intro budgets descent start renews
    obtain ⟨steady, lag, first, renewsWithin⟩ := renews.exists_renewsWithin
    obtain ⟨enough, expands⟩ := budgets none (fun _ given => nomatch given) lag
    obtain ⟨graph, expanded⟩ := expands ⟨lag, enough, false⟩ rfl rfl (Nat.le_refl enough)
    rw [← start, ← first] at expanded
    have written_ := (Program.isWritten_of_read reads).resolved
    exact renewsWithin.expand_ne_ok sound written_ (Nat.le_succ lag) graph expanded

/-- The source of two definitions that use each other; one passes its parameters on crosswise. -/
def crosswiseLines : List String := [
  "def f = <a, b | e> [X | Y]",
  "  use +e [X | Y] as A",
  "  use g <b, a> [X | Y] as R",
  "  link X >-> A.X, A.Y >-> R.X, R.Y >-> Y",
  "def g = <c, d> [X | Y]",
  "  use f <c, k |> [X | Y] as R",
  "  link X >-> R.X, R.Y >-> Y"]

/-- Symbols are introduced each time round, but no use passes them on as universal ones. -/
theorem expand_within_budget_crosswise :
    ∃ root : (Program.ofLines crosswiseLines).resolved.Index,
      (Program.ofLines crosswiseLines).resolved.Settles root ∧
      ∃ enough, ∀ limits : UnfoldingLimits, limits.depth = 2 → limits.expired = false →
        enough ≤ limits.nodes →
          ∃ graph, (Program.ofLines crosswiseLines).resolved.expand root (some ["x", "y"]) limits =
            .ok graph := by
  have reads := Program.read_ofLines (by decide +kernel :
    (Program.read (sourceOfLines crosswiseLines)).toOption.isSome = true)
  have confined : (Program.ofLines crosswiseLines).resolved.Confined := by decide +kernel
  have settles := confined.settles ⟨0, by decide +kernel⟩
  have count : ∀ symbols ∈ some ["x", "y"], symbols.length =
      ((Program.ofLines crosswiseLines).resolved.definition
        ⟨0, by decide +kernel⟩).universal.length := by
    intro symbols given
    obtain rfl := Option.mem_some_iff.mp given
    decide +kernel
  exact ⟨_, settles, (expand_within_budget reads _).mp settles _ count 2⟩

/-- The source of a definition that passes on to itself as universal what is introduced for it. -/
def renewingLines : List String := [
  "def f = <a | e> [X | Y]",
  "  use f <e |> [X | Y] as R",
  "  link X >-> R.X, R.Y >-> Y"]

/-- At each step the symbol introduced at the step before becomes the universal one. -/
def renewingDescent : (Program.ofLines renewingLines).resolved.Descent where
  index _ := ⟨0, by decide +kernel⟩
  arguments _ := ["e", "e"]
  fresh _ := true
  calls _ := by decide +kernel

theorem renewsWithin_renewingDescent : renewingDescent.RenewsWithin 2 := by
  intro step
  have parameters (later : Nat) : renewingDescent.parameters later = ["a", "e"] := by
    change ((Program.ofLines renewingLines).resolved.definition
      ⟨0, by decide +kernel⟩).parameters = ["a", "e"]
    decide +kernel
  have universal (later : Nat) : renewingDescent.universal later = 1 := by
    change ((Program.ofLines renewingLines).resolved.definition
      ⟨0, by decide +kernel⟩).universal.length = 1
    decide +kernel
  have introduces : renewingDescent.Introduces step 1 :=
    ⟨rfl, Nat.le_of_eq (universal (step + 1)), Nat.lt_succ_self 1⟩
  have passes : renewingDescent.Passes (step + 1) 1 0 := by
    refine ⟨fun own => ?_, "e", ?_, rfl, ?_⟩
    · rw [universal] at own
      exact Nat.not_succ_le_zero 0 own.2
    · simp [parameters]
    · rw [parameters]
      decide
  refine ⟨0, ?_, .passed passes (.introduced (Nat.le_refl step) introduces)⟩
  rw [universal]
  exact Nat.zero_lt_one

/-- From depth one on the definition does not expand, whatever the budget. -/
theorem expand_renewing :
    ∃ root : (Program.ofLines renewingLines).resolved.Index,
      ¬ ∃ (limits : UnfoldingLimits) (graph : PortGraph), 1 ≤ limits.depth ∧
        (Program.ofLines renewingLines).resolved.expand root none limits = .ok graph := by
  have reads := Program.read_ofLines (by decide +kernel :
    (Program.read (sourceOfLines renewingLines)).toOption.isSome = true)
  have written_ := (Program.isWritten_of_read reads).resolved
  refine ⟨renewingDescent.index 0, ?_⟩
  rintro ⟨limits, graph, deep, expanded⟩
  exact renewsWithin_renewingDescent.expand_ne_ok (Program.ofLines renewingLines).resolved_sound
    written_ (Nat.succ_le_succ deep) graph expanded

end ResolvedProgram

end FlowDiagram

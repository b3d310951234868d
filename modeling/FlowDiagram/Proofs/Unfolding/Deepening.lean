import FlowDiagram.Proofs.Unfolding.Renaming
import FlowDiagram.Proofs.Unfolding.Run
import Mathlib.Data.List.Forall2

/-!
# Unfolding one level deeper

With one more level of depth, all that was unfolded is unfolded again, and what was cut off becomes
a body.  What lies in those bodies introduces symbols of its own, so the two runs count their
introductions differently; but they do so in the same order, and up to the numbers the symbols are
the same.  A use is then cut off here exactly when it is cut off there, one level further on: that
depends only on which symbols are equal.
-/

namespace FlowDiagram

variable {program : ResolvedProgram} {depth : Nat}

/-! ## One use -/

/-- What one level more makes of an outcome. -/
inductive Outcome.Deepens (rename : Symbol → Symbol) (depth : Nat) : Outcome → Outcome → Prop where
  | node {node : Node} (whole : node.isTruncated = false) :
      Deepens rename depth (.node node) (.node (node.rename rename))
  | truncated {node : Node} {definition : String} {generators : List Symbol} {inner : Scope}
      (cut : node.kind = .truncated definition generators)
      (told : inner.toInstance =
        ⟨node.provenance.path, definition, generators.map rename, depth + 1⟩) :
      Deepens rename depth (.node node) (.body inner)
  | body {scope : Scope} : Deepens rename depth (.body scope) (.body (scope.rename rename))

/-- What holds of every outcome that unfolding comes to before the introduction `bound`. -/
def Outcome.Regular (program : ResolvedProgram) (depth bound : Nat) : Outcome → Prop
  | .node made => ∀ symbol ∈ made.kind.symbols, symbol.Below bound
  | .body scope => scope.Regular program depth bound

theorem Scope.Regular.mono {bound larger : Nat} (le : bound ≤ larger) {scope : Scope}
    (regular : scope.Regular program depth bound) : scope.Regular program depth larger :=
  ⟨regular.known, regular.below.mono le, regular.within⟩

theorem Outcome.Regular.mono {bound larger : Nat} (le : bound ≤ larger) {outcome : Outcome}
    (regular : outcome.Regular program depth bound) : outcome.Regular program depth larger := by
  cases outcome with
  | node node => exact fun symbol member => (regular symbol member).mono le
  | body scope => exact Scope.Regular.mono le regular

/-- A body that is not cut off is regular as the one around it is. -/
theorem Scope.Regular.inner {bound later : Nat} (le : bound ≤ later) {scope : Scope}
    (regular : scope.Regular program depth bound) (use : ResolvedUse) {index : Nat}
    {callee : ResolvedDefinition} (found : program.definitions[index]? = some callee)
    {symbols : List Symbol} (below : ∀ symbol ∈ symbols, symbol.Below later)
    (shallow : scope.recursions index callee.universal.length symbols ≤ depth) (level : Nat) :
    (scope.inner use index callee symbols level).Regular program depth later where
  known := List.mem_of_getElem? found
  below := by
    intro application member symbol held
    rcases List.mem_cons.mp member with rfl | outer
    · exact below symbol held
    · exact (regular.below application outer symbol held).mono le
  within := regular.within.inner use found shallow level

theorem Node.rename_congr {rename other : Symbol → Symbol} {node : Node}
    (same : ∀ symbol ∈ node.kind.symbols, rename symbol = other symbol) :
    node.rename rename = node.rename other := by
  unfold Node.rename
  rw [NodeKind.rename_congr same]

/-- Introductions still to come do not matter to how an outcome deepens. -/
theorem Outcome.Deepens.congr {bound : Nat} {outcome deeper : Outcome}
    (regular : outcome.Regular program depth bound) {numbers others : Nat → Nat}
    (agree : ∀ number < bound, numbers number = others number)
    (deepens : outcome.Deepens (Symbol.renumber numbers) depth deeper) :
    outcome.Deepens (Symbol.renumber others) depth deeper := by
  cases deepens with
  | @node node whole =>
      have same := Node.rename_congr fun symbol member =>
        (regular symbol member).renumber_congr agree
      rw [same]
      exact .node whole
  | @truncated node definition generators inner cut told =>
      refine .truncated cut ?_
      rw [told]
      congr 1
      refine List.map_congr_left fun symbol member => ?_
      have held : symbol ∈ node.kind.symbols := by rwa [cut]
      exact (regular symbol held).renumber_congr agree
  | @body scope =>
      have same := Scope.rename_congr fun application member symbol held =>
        (regular.below application member symbol held).renumber_congr agree
      rw [same]
      exact .body

/-- The symbol of a primitive in a program is bound alike in both runs, up to the numbers. -/
theorem Scope.primitiveNode_renumber (numbers : Nat → Nat) (scope : Scope) (use : ResolvedUse)
    {box : Primitive} (writtenBox : ∀ symbol, box.symbol? = some symbol → symbol.IsWritten) :
    (scope.rename (Symbol.renumber numbers)).primitiveNode use box =
      (scope.primitiveNode use box).rename (Symbol.renumber numbers) := by
  unfold Scope.primitiveNode Node.rename NodeKind.rename
  rw [Primitive.rename_rename fun symbol held => scope.bind_rename
    (Symbol.renumber_of_isWritten numbers (writtenBox symbol held))]
  rfl

theorem Scope.Regular.primitiveNode {bound : Nat} {scope : Scope}
    (regular : scope.Regular program depth bound) (use : ResolvedUse) {box : Primitive}
    (writtenBox : ∀ symbol, box.symbol? = some symbol → symbol.IsWritten) :
    Outcome.Regular program depth bound (.node (scope.primitiveNode use box)) := by
  intro symbol held
  simp only [Scope.primitiveNode, NodeKind.symbols, Primitive.symbol?_rename,
    Option.mem_toList, Option.map_eq_some_iff] at held
  obtain ⟨name, held, rfl⟩ := held
  exact regular.below.bind (writtenBox name held)

/-- A definition used is unfolded one level deeper, whether it is cut off here or not. -/
theorem Scope.Regular.called_deepens {before later : Nat} (le : before ≤ later) {scope : Scope}
    (regular : scope.Regular program depth before) (use : ResolvedUse) {index : Nat}
    {callee : ResolvedDefinition} (found : program.definitions[index]? = some callee)
    {symbols : List Symbol} (below : ∀ symbol ∈ symbols, symbol.Below later) {level : Nat}
    (counted : scope.recursions index callee.universal.length symbols = level)
    (rename : Symbol → Symbol) {outcome deeper : Outcome}
    (outcomeIs : (if depth < level then .node (scope.truncatedNode use callee symbols level)
      else .body (scope.inner use index callee symbols level)) = outcome)
    (deeperIs : (if depth + 1 < level
      then .node ((scope.rename rename).truncatedNode use callee (symbols.map rename) level)
      else .body ((scope.rename rename).inner use index callee (symbols.map rename) level)) =
        deeper) :
    outcome.Regular program depth later ∧ outcome.Deepens rename depth deeper := by
  have within := regular.within index callee symbols found
  rw [counted] at within
  rw [if_neg (by omega)] at deeperIs
  obtain rfl := deeperIs
  by_cases cut : depth < level
  · rw [if_pos cut] at outcomeIs
    obtain rfl := outcomeIs
    have atBound : level = depth + 1 := by omega
    refine ⟨below, .truncated rfl ?_⟩
    simp [Scope.toInstance, Scope.inner, Scope.binding, Scope.truncatedNode, Scope.rename,
      atBound]
  · rw [if_neg cut] at outcomeIs
    obtain rfl := outcomeIs
    exact ⟨regular.inner le use found below (by omega) level, .body⟩

/-- One use, in both runs. -/
theorem Scope.become_deepens (written_ : program.IsWritten) {numbers : Nat → Nat}
    {before after : Nat} (aligned : Aligned numbers before after) {scope : Scope}
    (regular : scope.Regular program depth before) {use : ResolvedUse}
    (member : use ∈ scope.body.uses) {outcome deeper : Outcome} {later laterDeeper : Nat}
    (become : scope.become program depth before use = some (outcome, later))
    (becomeDeeper : (scope.rename (Symbol.renumber numbers)).become program (depth + 1) after use =
      some (deeper, laterDeeper)) :
    before ≤ later ∧ Aligned numbers later laterDeeper ∧ outcome.Regular program depth later ∧
      outcome.Deepens (Symbol.renumber numbers) depth deeper := by
  have writtenUse := (written_ _ regular.known).uses use member
  unfold Scope.become at become becomeDeeper
  unfold ResolvedUse.IsWritten at writtenUse
  cases htarget : use.target with
  | primitive box =>
      rw [htarget] at writtenUse
      simp only [htarget, Option.some.injEq, Prod.mk.injEq] at become becomeDeeper
      obtain ⟨rfl, rfl⟩ := become
      obtain ⟨rfl, rfl⟩ := becomeDeeper
      refine ⟨Nat.le_refl _, aligned, regular.primitiveNode use writtenUse, ?_⟩
      rw [Scope.primitiveNode_renumber numbers scope use writtenUse]
      exact .node rfl
  | definition index arguments fresh =>
      rw [htarget] at writtenUse
      simp only [htarget, Option.map_eq_some_iff, Prod.mk.injEq] at become becomeDeeper
      obtain ⟨callee, found, outcomeIs, rfl⟩ := become
      obtain ⟨other, otherFound, deeperIs, rfl⟩ := becomeDeeper
      cases found.symm.trans otherFound
      have injective := Symbol.renumber_injective aligned.increasing.injective
      rw [bindArguments_renumber aligned scope callee.universal.length fresh writtenUse,
        Scope.recursions_rename injective] at deeperIs
      have below := regular.below.bindArguments callee.universal.length fresh writtenUse
      have le := le_nextIntroduction before callee.universal.length fresh arguments
      exact ⟨le, aligned.next callee.universal.length fresh arguments,
        regular.called_deepens le use found below rfl _ outcomeIs deeperIs⟩

/-! ## The uses of a body -/

/-- An outcome of a shallow run beside the outcome one level deeper. -/
def Outcome.Matches (program : ResolvedProgram) (depth : Nat) (numbers : Nat → Nat) (bound : Nat)
    (outcome deeper : Outcome) : Prop :=
  outcome.Regular program depth bound ∧ outcome.Deepens (Symbol.renumber numbers) depth deeper

theorem Outcome.Matches.later {numbers others : Nat → Nat} {bound larger : Nat}
    (le : bound ≤ larger) (agree : ∀ number < bound, others number = numbers number)
    {outcome deeper : Outcome}
    (matches_ : Outcome.Matches program depth numbers bound outcome deeper) :
    Outcome.Matches program depth others larger outcome deeper :=
  ⟨matches_.1.mono le, matches_.2.congr matches_.1 fun number lt => (agree number lt).symm⟩

/-- The uses of a body, in both runs. -/
theorem Scope.becomeAll_deepens (written_ : program.IsWritten) {numbers : Nat → Nat}
    {scope : Scope} {uses : List ResolvedUse} (among : ∀ use ∈ uses, use ∈ scope.body.uses)
    {before after later laterDeeper : Nat} (aligned : Aligned numbers before after)
    (regular : scope.Regular program depth before) {outcomes deeper : List Outcome}
    (become : scope.becomeAll program depth before uses = some (outcomes, later))
    (becomeDeeper : (scope.rename (Symbol.renumber numbers)).becomeAll program (depth + 1) after
      uses = some (deeper, laterDeeper)) :
    before ≤ later ∧ Aligned numbers later laterDeeper ∧
      List.Forall₂ (Outcome.Matches program depth numbers later) outcomes deeper := by
  induction uses generalizing before after outcomes deeper with
  | nil =>
      cases become
      cases becomeDeeper
      exact ⟨Nat.le_refl _, aligned, .nil⟩
  | cons use rest ih =>
      obtain ⟨first, middle, others, hfirst, hrest, rfl⟩ :=
        Unfolding.becomeAll_cons_eq_some.mp become
      obtain ⟨firstDeeper, middleDeeper, othersDeeper, hfirstDeeper, hrestDeeper, rfl⟩ :=
        Unfolding.becomeAll_cons_eq_some.mp becomeDeeper
      obtain ⟨le, alignedMiddle, regularFirst, deepens⟩ :=
        Scope.become_deepens written_ aligned regular (among use (by simp)) hfirst hfirstDeeper
      obtain ⟨leLater, alignedLater, matchesRest⟩ :=
        ih (fun other member => among other (by simp [member])) alignedMiddle (regular.mono le)
          hrest hrestDeeper
      exact ⟨le.trans leLater, alignedLater,
        .cons ⟨regularFirst.mono leLater, deepens⟩ matchesRest⟩

/-! ## What lies below a path -/

/-- All that is listed lies at a path or below it. -/
structure Listing.Under (path : List String) (listing : Listing) : Prop where
  nodes : ∀ node ∈ listing.nodes, path <+: node.provenance.path
  scopes : ∀ scope ∈ listing.scopes, path <+: scope.path

theorem Listing.Under.append {path : List String} {first later : Listing}
    (begun : first.Under path) (ended : later.Under path) : (first.append later).Under path where
  nodes := fun node member => (List.mem_append.mp member).elim (begun.nodes node) (ended.nodes node)
  scopes := fun scope member =>
    (List.mem_append.mp member).elim (begun.scopes scope) (ended.scopes scope)

theorem Listing.Under.up {path above : List String} (up : above <+: path) {listing : Listing}
    (under : listing.Under path) : listing.Under above :=
  ⟨fun node member => up.trans (under.nodes node member),
    fun scope member => up.trans (under.scopes scope member)⟩

theorem Scope.become_le {scope : Scope} {use : ResolvedUse} {outcome : Outcome}
    {before later : Nat} (become : scope.become program depth before use = some (outcome, later)) :
    before ≤ later := by
  cases Scope.becomes_of_become become with
  | primitive target => exact Nat.le_refl before
  | @truncated _ arguments fresh callee =>
      exact le_nextIntroduction before callee.universal.length fresh arguments
  | @body _ arguments fresh callee =>
      exact le_nextIntroduction before callee.universal.length fresh arguments

/-- What the uses of a body become lies below its path. -/
theorem Scope.becomeAll_under {scope : Scope} {uses : List ResolvedUse} {outcomes : List Outcome}
    {before later : Nat}
    (become : scope.becomeAll program depth before uses = some (outcomes, later)) :
    before ≤ later ∧ (Listing.ofOutcomes outcomes later).Under scope.path := by
  induction uses generalizing before outcomes with
  | nil =>
      cases become
      exact ⟨Nat.le_refl _, by simp [Listing.ofOutcomes], by simp [Listing.ofOutcomes]⟩
  | cons use rest ih =>
      obtain ⟨first, middle, others, hfirst, hrest, rfl⟩ :=
        Unfolding.becomeAll_cons_eq_some.mp become
      obtain ⟨le, underRest⟩ := ih hrest
      refine ⟨(Scope.become_le hfirst).trans le, ?_, ?_⟩
      · intro node member
        cases first with
        | node made =>
            rcases List.mem_cons.mp member with rfl | there
            · rw [(Scope.become_eq_node hfirst).2.2]
              exact List.prefix_append ..
            · exact underRest.nodes node there
        | body inner => exact underRest.nodes node member
      · intro found member
        cases first with
        | node made => exact underRest.scopes found member
        | body inner =>
            rcases List.mem_cons.mp member with rfl | there
            · rw [(Scope.become_eq_body hfirst).1]
              exact List.prefix_append ..
            · exact underRest.scopes found there

theorem Listing.ofScopes_under {unfold : Scope → Nat → Option Listing} {scopes : List Scope}
    {path : List String} {before : Nat} {listing : Listing}
    (each : ∀ scope ∈ scopes, ∀ (number : Nat) (inner : Listing),
      unfold scope number = some inner → number ≤ inner.next ∧ inner.Under path)
    (unfolded : ofScopes unfold scopes before = some listing) :
    before ≤ listing.next ∧ listing.Under path := by
  induction scopes generalizing before listing with
  | nil =>
      cases unfolded
      exact ⟨Nat.le_refl _, by simp [Listing.empty], by simp [Listing.empty]⟩
  | cons scope rest ih =>
      obtain ⟨first, later, hfirst, hlater, rfl⟩ := ofScopes_cons_eq_some.mp unfolded
      obtain ⟨le, underFirst⟩ := each scope (by simp) before first hfirst
      obtain ⟨leLater, underLater⟩ :=
        ih (fun other member => each other (by simp [member])) hlater
      exact ⟨le.trans leLater, underFirst.append underLater⟩

/-- What a body unfolds to lies below its path. -/
theorem Scope.unfold_under {nesting : Nat} {scope : Scope} {before : Nat} {listing : Listing}
    (unfolded : scope.unfold program depth nesting before = some listing) :
    before ≤ listing.next ∧ listing.Under scope.path := by
  induction nesting generalizing scope before listing with
  | zero => cases unfolded
  | succ nesting ih =>
      obtain ⟨outcomes, next, inner, houtcomes, hinner, rfl⟩ := unfold_succ_eq_some.mp unfolded
      obtain ⟨le, under⟩ := becomeAll_under houtcomes
      have each : ∀ found ∈ scopesOf outcomes, ∀ (number : Nat) (listing : Listing),
          found.unfold program depth nesting number = some listing →
            number ≤ listing.next ∧ listing.Under scope.path := by
        intro found member number listing unfolds
        obtain ⟨leFound, underFound⟩ := ih unfolds
        exact ⟨leFound, underFound.up (under.scopes found member)⟩
      obtain ⟨leInner, underInner⟩ := Listing.ofScopes_under each hinner
      exact ⟨le.trans leInner, under.append underInner⟩

/-! ## Listings -/

/--
What one level more makes of a listing: all that was listed is there again, up to names, what was
cut off is a body, and what is new lies at or below something that was cut off.
-/
structure Listing.Deepens (rename : Symbol → Symbol) (depth : Nat) (listing deeper : Listing) :
    Prop where
  nodes : ∀ node ∈ listing.nodes, node.isTruncated = false → node.rename rename ∈ deeper.nodes
  scopes : ∀ scope ∈ listing.scopes, scope.rename rename ∈ deeper.scopes
  truncated : ∀ node ∈ listing.nodes, ∀ definition generators,
    node.kind = .truncated definition generators → ∃ inner ∈ deeper.scopes, inner.toInstance =
      ⟨node.provenance.path, definition, generators.map rename, depth + 1⟩
  newNodes : ∀ node ∈ deeper.nodes,
    (∃ old ∈ listing.nodes, old.isTruncated = false ∧ node = old.rename rename) ∨
      ∃ cut ∈ listing.nodes, cut.isTruncated = true ∧
        cut.provenance.path <+: node.provenance.path
  newScopes : ∀ scope ∈ deeper.scopes,
    (∃ old ∈ listing.scopes, scope = old.rename rename) ∨
      ∃ cut ∈ listing.nodes, cut.isTruncated = true ∧ cut.provenance.path <+: scope.path

theorem Listing.Deepens.empty (rename : Symbol → Symbol) (depth number other : Nat) :
    (Listing.empty number).Deepens rename depth (.empty other) := by
  constructor <;> simp [Listing.empty]

/-- What is old or lies below something cut off is so among more nodes too. -/
theorem old_or_below_mono {α : Type} {old : α → Prop} {below : Node → Prop} {olds more : List α}
    {cuts moreCuts : List Node} (all : olds ⊆ more) (allCuts : cuts ⊆ moreCuts)
    (accounted : (∃ item ∈ olds, old item) ∨ ∃ cut ∈ cuts, below cut) :
    (∃ item ∈ more, old item) ∨ ∃ cut ∈ moreCuts, below cut := by
  rcases accounted with ⟨item, found, isOld⟩ | ⟨cut, found, lies⟩
  · exact .inl ⟨item, all found, isOld⟩
  · exact .inr ⟨cut, allCuts found, lies⟩

/-- Listings one behind the other deepen as each of them does. -/
theorem Listing.Deepens.append {rename : Symbol → Symbol}
    {first later firstDeeper laterDeeper : Listing}
    (begun : first.Deepens rename depth firstDeeper)
    (ended : later.Deepens rename depth laterDeeper) :
    (first.append later).Deepens rename depth (firstDeeper.append laterDeeper) := by
  have nodesBefore : first.nodes ⊆ (first.append later).nodes := List.subset_append_left ..
  have nodesAfter : later.nodes ⊆ (first.append later).nodes := List.subset_append_right ..
  constructor
  case nodes =>
    intro node member whole
    rcases List.mem_append.mp member with here | there
    · exact List.mem_append_left _ (begun.nodes node here whole)
    · exact List.mem_append_right _ (ended.nodes node there whole)
  case scopes =>
    intro scope member
    rcases List.mem_append.mp member with here | there
    · exact List.mem_append_left _ (begun.scopes scope here)
    · exact List.mem_append_right _ (ended.scopes scope there)
  case truncated =>
    intro node member definition generators cut
    rcases List.mem_append.mp member with here | there
    · obtain ⟨inner, found, told⟩ := begun.truncated node here definition generators cut
      exact ⟨inner, List.mem_append_left _ found, told⟩
    · obtain ⟨inner, found, told⟩ := ended.truncated node there definition generators cut
      exact ⟨inner, List.mem_append_right _ found, told⟩
  case newNodes =>
    intro node member
    rcases List.mem_append.mp member with here | there
    · exact old_or_below_mono nodesBefore nodesBefore (begun.newNodes node here)
    · exact old_or_below_mono nodesAfter nodesAfter (ended.newNodes node there)
  case newScopes =>
    intro scope member
    rcases List.mem_append.mp member with here | there
    · exact old_or_below_mono (List.subset_append_left ..) nodesBefore (begun.newScopes scope here)
    · exact old_or_below_mono (List.subset_append_right ..) nodesAfter (ended.newScopes scope there)

/-- The order of what is listed does not matter. -/
theorem Listing.Deepens.congr {rename : Symbol → Symbol}
    {listing same deeper sameDeeper : Listing}
    (deepens : listing.Deepens rename depth deeper)
    (nodes : ∀ node, node ∈ same.nodes ↔ node ∈ listing.nodes)
    (scopes : ∀ scope, scope ∈ same.scopes ↔ scope ∈ listing.scopes)
    (deeperNodes : ∀ node, node ∈ sameDeeper.nodes ↔ node ∈ deeper.nodes)
    (deeperScopes : ∀ scope, scope ∈ sameDeeper.scopes ↔ scope ∈ deeper.scopes) :
    same.Deepens rename depth sameDeeper := by
  constructor <;> simp only [nodes, scopes, deeperNodes, deeperScopes]
  · exact deepens.nodes
  · exact deepens.scopes
  · exact deepens.truncated
  · exact deepens.newNodes
  · exact deepens.newScopes

/-- More may be listed one level deeper, below what was cut off. -/
theorem Listing.Deepens.grow {rename : Symbol → Symbol} {listing deeper more : Listing}
    (deepens : listing.Deepens rename depth deeper) {cut : Node} (member : cut ∈ listing.nodes)
    (isCut : cut.isTruncated = true) (under : more.Under cut.provenance.path) :
    listing.Deepens rename depth (deeper.append more) := by
  constructor
  case nodes =>
    intro node found whole
    exact List.mem_append_left _ (deepens.nodes node found whole)
  case scopes =>
    intro scope found
    exact List.mem_append_left _ (deepens.scopes scope found)
  case truncated =>
    intro node found definition generators kind
    obtain ⟨inner, there, told⟩ := deepens.truncated node found definition generators kind
    exact ⟨inner, List.mem_append_left _ there, told⟩
  case newNodes =>
    intro node found
    rcases List.mem_append.mp found with here | there
    · exact deepens.newNodes node here
    · exact .inr ⟨cut, member, isCut, under.nodes node there⟩
  case newScopes =>
    intro scope found
    rcases List.mem_append.mp found with here | there
    · exact deepens.newScopes scope here
    · exact .inr ⟨cut, member, isCut, under.scopes scope there⟩

/-- One outcome on its own. -/
theorem Outcome.Deepens.listing {rename : Symbol → Symbol} {outcome deeper : Outcome}
    (deepens : outcome.Deepens rename depth deeper) (number other : Nat) :
    (Listing.ofOutcomes [outcome] number).Deepens rename depth
      (Listing.ofOutcomes [deeper] other) := by
  cases deepens with
  | @node made whole =>
      constructor
      case truncated =>
        intro found member definition generators kind
        obtain rfl : found = made := by simpa [Listing.ofOutcomes] using member
        simp [Node.isTruncated, kind] at whole
      all_goals simp [Listing.ofOutcomes, whole]
  | @truncated made definition generators inner cut told =>
      have isCut : made.isTruncated = true := by simp [Node.isTruncated, cut]
      have path : inner.path = made.provenance.path := congrArg Instance.path told
      constructor
      case truncated =>
        intro found member other otherGenerators kind
        obtain rfl : found = made := by simpa [Listing.ofOutcomes] using member
        rw [cut] at kind
        cases kind
        exact ⟨inner, by simp [Listing.ofOutcomes], told⟩
      all_goals simp [Listing.ofOutcomes, isCut, path]
  | @body scope => constructor <;> simp [Listing.ofOutcomes]

/-! ## Both runs -/

/--
From the introduction `before` on, a listing deepens under every numbering that agrees with the one
its two runs come to.
-/
def Listing.DeepensFrom (depth : Nat) (numbers : Nat → Nat) (before : Nat)
    (listing deeper : Listing) : Prop :=
  ∃ later, Aligned later listing.next deeper.next ∧
    (∀ number < before, later number = numbers number) ∧
    ∀ final : Nat → Nat, (∀ number < listing.next, final number = later number) →
      listing.Deepens (Symbol.renumber final) depth deeper

namespace Listing.DeepensFrom

variable {numbers : Nat → Nat} {before after : Nat}

/-- One listing after the other, when the second goes on with the numbering of the first. -/
theorem append {first firstDeeper later laterDeeper : Listing}
    (begun : first.DeepensFrom depth numbers before firstDeeper) (le : before ≤ first.next)
    (ended : ∀ middle, Aligned middle first.next firstDeeper.next →
      (∀ number < before, middle number = numbers number) →
      later.DeepensFrom depth middle first.next laterDeeper)
    (leLater : first.next ≤ later.next) :
    (first.append later).DeepensFrom depth numbers before (firstDeeper.append laterDeeper) := by
  obtain ⟨middle, alignedMiddle, agreeMiddle, deepensFirst⟩ := begun
  obtain ⟨last, alignedLast, agree, deepensLater⟩ := ended middle alignedMiddle agreeMiddle
  refine ⟨last, alignedLast, fun number lt => ?_, fun final agreeFinal => ?_⟩
  · exact (agree number (lt.trans_le le)).trans (agreeMiddle number lt)
  · have deepensBegun := deepensFirst final fun number lt =>
      (agreeFinal number (lt.trans_le leLater)).trans (agree number lt)
    exact deepensBegun.append (deepensLater final agreeFinal)

/-- The order of what is listed does not matter. -/
theorem congr {listing same deeper sameDeeper : Listing}
    (deepens : listing.DeepensFrom depth numbers before deeper)
    (next : same.next = listing.next) (deeperNext : sameDeeper.next = deeper.next)
    (nodes : ∀ node, node ∈ same.nodes ↔ node ∈ listing.nodes)
    (scopes : ∀ scope, scope ∈ same.scopes ↔ scope ∈ listing.scopes)
    (deeperNodes : ∀ node, node ∈ sameDeeper.nodes ↔ node ∈ deeper.nodes)
    (deeperScopes : ∀ scope, scope ∈ sameDeeper.scopes ↔ scope ∈ deeper.scopes) :
    same.DeepensFrom depth numbers before sameDeeper := by
  obtain ⟨later, aligned, agree, deepensUnder⟩ := deepens
  refine ⟨later, next ▸ deeperNext ▸ aligned, agree, fun final agreeFinal => ?_⟩
  exact (deepensUnder final (next ▸ agreeFinal)).congr nodes scopes deeperNodes deeperScopes

/-- An outcome on its own introduces nothing. -/
theorem cons {outcome deeper : Outcome}
    (matches_ : Outcome.Matches program depth numbers before outcome deeper)
    {later laterDeeper : Listing} (deepens : later.DeepensFrom depth numbers before laterDeeper)
    (le : before ≤ later.next) (number other : Nat) :
    ((ofOutcomes [outcome] number).append later).DeepensFrom depth numbers before
      ((ofOutcomes [deeper] other).append laterDeeper) := by
  obtain ⟨last, aligned, agree, deepensLater⟩ := deepens
  refine ⟨last, aligned, agree, fun final agreeFinal => ?_⟩
  have same : ∀ number < before, numbers number = final number := fun number lt =>
    ((agreeFinal number (lt.trans_le le)).trans (agree number lt)).symm
  exact ((matches_.2.congr matches_.1 same).listing number other).append
    (deepensLater final agreeFinal)

/-- What a body that is cut off introduces deeper down is no introduction of the shallow run. -/
theorem single_grown {made : Node} {cutBody : Scope} {extra : Listing}
    (aligned : Aligned numbers before after)
    (matches_ : Outcome.Matches program depth numbers before (.node made) (.body cutBody))
    (isCut : made.isTruncated = true) (le : after ≤ extra.next)
    (under : extra.Under made.provenance.path) :
    (ofOutcomes [.node made] before).DeepensFrom depth numbers before
      ((ofOutcomes [.body cutBody] after).append extra) := by
  have skipped := aligned.skipped (extra.next - after)
  rw [Nat.add_sub_cancel' le] at skipped
  have kept : ∀ number < before,
      Aligned.skip numbers before (extra.next - after) number = numbers number :=
    fun number lt => Aligned.skip_of_lt lt _
  refine ⟨_, skipped, kept, fun final agree => ?_⟩
  have deepens := (matches_.2.congr matches_.1 fun number lt =>
    ((agree number lt).trans (kept number lt)).symm).listing before after
  exact deepens.grow (List.mem_singleton.mpr rfl) isCut under

end Listing.DeepensFrom

theorem Listing.ofScopes_le {nesting : Nat} {scopes : List Scope} {before : Nat}
    {listing : Listing}
    (unfolded : ofScopes (Scope.unfold program depth nesting) scopes before = some listing) :
    before ≤ listing.next := by
  have each : ∀ scope ∈ scopes, ∀ (number : Nat) (inner : Listing),
      scope.unfold program depth nesting number = some inner →
        number ≤ inner.next ∧ inner.Under [] := by
    intro scope _ number inner unfolds
    obtain ⟨le, under⟩ := Scope.unfold_under unfolds
    exact ⟨le, under.up (List.nil_prefix ..)⟩
  exact (ofScopes_under each unfolded).1

/-- Outcomes and what their bodies unfold to, if every body does as it should. -/
theorem Listing.ofScopes_deepens {nesting deeperNesting : Nat}
    (each : ∀ (scope : Scope) (numbers : Nat → Nat) (before after : Nat) (listing deeper : Listing),
      Aligned numbers before after → scope.Regular program depth before →
      scope.unfold program depth nesting before = some listing →
      (scope.rename (Symbol.renumber numbers)).unfold program (depth + 1) deeperNesting after =
        some deeper →
      listing.DeepensFrom depth numbers before deeper)
    {numbers : Nat → Nat} {before after : Nat} (aligned : Aligned numbers before after)
    {outcomes deeperOutcomes : List Outcome}
    (matches_ : List.Forall₂ (Outcome.Matches program depth numbers before) outcomes
      deeperOutcomes)
    {inner deeperInner : Listing}
    (unfolded : ofScopes (Scope.unfold program depth nesting) (scopesOf outcomes) before =
      some inner)
    (unfoldedDeeper : ofScopes (Scope.unfold program (depth + 1) deeperNesting)
      (scopesOf deeperOutcomes) after = some deeperInner) :
    ((ofOutcomes outcomes before).append inner).DeepensFrom depth numbers before
      ((ofOutcomes deeperOutcomes after).append deeperInner) := by
  induction outcomes generalizing numbers before after deeperOutcomes inner deeperInner with
  | nil =>
      cases matches_
      cases unfolded
      cases unfoldedDeeper
      exact ⟨numbers, aligned, fun _ _ => rfl, fun final _ =>
        (Deepens.empty _ depth before after).append (.empty _ depth before after)⟩
  | cons outcome rest ih =>
      cases matches_ with
      | @cons _ deeperOutcome _ deeperRest here others =>
          have later : ∀ (middle : Nat → Nat) (bound : Nat), before ≤ bound →
              (∀ number < before, middle number = numbers number) →
              List.Forall₂ (Outcome.Matches program depth middle bound) rest deeperRest :=
            fun middle bound le agree => others.imp fun _ _ both => both.later le agree
          cases hhere : here.2 with
          | @node made whole =>
              have le : before ≤ inner.next := ofScopes_le unfolded
              have both := (ih aligned others unfolded unfoldedDeeper).cons here le before after
              refine both.congr rfl rfl ?_ ?_ ?_ ?_
              all_goals simp [append, ofOutcomes]
          | @truncated made definition generators cutBody cut told =>
              obtain ⟨extra, others_, hextra, hothers, rfl⟩ :=
                ofScopes_cons_eq_some.mp unfoldedDeeper
              obtain ⟨leExtra, under⟩ := Scope.unfold_under hextra
              have path : cutBody.path = made.provenance.path := congrArg Instance.path told
              have isCut : made.isTruncated = true := by simp [Node.isTruncated, cut]
              have le : before ≤ inner.next := ofScopes_le unfolded
              have begun := DeepensFrom.single_grown aligned here isCut leExtra (path ▸ under)
              have both := begun.append (Nat.le_refl before) (fun middle alignedMiddle agree =>
                ih alignedMiddle (later middle before (Nat.le_refl before) agree) unfolded
                  hothers) le
              refine both.congr rfl rfl ?_ ?_ ?_ ?_
              all_goals simp [append, ofOutcomes]
              all_goals grind
          | @body scope =>
              obtain ⟨first, rest_, hfirst, hrest, rfl⟩ := ofScopes_cons_eq_some.mp unfolded
              obtain ⟨firstDeeper, restDeeper, hfirstDeeper, hrestDeeper, rfl⟩ :=
                ofScopes_cons_eq_some.mp unfoldedDeeper
              obtain ⟨le, -⟩ := Scope.unfold_under hfirst
              have inside :=
                each scope numbers before after first firstDeeper aligned here.1 hfirst hfirstDeeper
              have begun := inside.cons here le before after
              have leRest : first.next ≤ rest_.next := ofScopes_le hrest
              have both := begun.append le (fun middle alignedMiddle agree =>
                ih alignedMiddle (later middle first.next le agree) hrest hrestDeeper) leRest
              refine both.congr rfl rfl ?_ ?_ ?_ ?_
              all_goals simp [append, ofOutcomes]
              all_goals grind

/-- A body unfolded in both runs. -/
theorem Scope.unfold_deepens (written_ : program.IsWritten) {nesting deeperNesting : Nat}
    {scope : Scope} {numbers : Nat → Nat} {before after : Nat} {listing deeper : Listing}
    (aligned : Aligned numbers before after) (regular : scope.Regular program depth before)
    (unfolded : scope.unfold program depth nesting before = some listing)
    (unfoldedDeeper : (scope.rename (Symbol.renumber numbers)).unfold program (depth + 1)
      deeperNesting after = some deeper) :
    listing.DeepensFrom depth numbers before deeper := by
  -- on the nesting of the shallow run; the deeper one nests at least as far
  induction nesting generalizing deeperNesting scope numbers before after listing deeper with
  | zero => cases unfolded
  | succ nesting ih =>
      cases deeperNesting with
      | zero => cases unfoldedDeeper
      | succ deeperNesting =>
          obtain ⟨outcomes, next, inner, houtcomes, hinner, rfl⟩ := unfold_succ_eq_some.mp unfolded
          obtain ⟨deeperOutcomes, deeperNext, deeperInner, hdeeper, hdeeperInner, rfl⟩ :=
            unfold_succ_eq_some.mp unfoldedDeeper
          obtain ⟨le, alignedNext, matches_⟩ := becomeAll_deepens written_
            (fun use member => member) aligned regular houtcomes hdeeper
          obtain ⟨later, alignedLater, agree, deepens⟩ := Listing.ofScopes_deepens
            (fun _ _ _ _ _ _ => ih) alignedNext matches_ hinner hdeeperInner
          exact ⟨later, alignedLater, fun number lt => agree number (lt.trans_le le), deepens⟩

/-- The root under symbols that are written stands at the beginning of both runs. -/
theorem Scope.regular_ofRoot {index : Nat} {body : ResolvedDefinition} {binding : List Symbol}
    (known : body ∈ program.definitions) (written_ : ∀ symbol ∈ binding, symbol.IsWritten)
    (depth bound : Nat) : (ofRoot index body binding).Regular program depth bound where
  known := known
  below := by
    intro application member symbol held
    obtain rfl := List.mem_singleton.mp member
    exact (written_ symbol held).below bound
  within := within_ofRoot index body binding

theorem Scope.rename_ofRoot {index : Nat} {body : ResolvedDefinition} {binding : List Symbol}
    {rename : Symbol → Symbol} (kept : ∀ symbol ∈ binding, rename symbol = symbol) :
    (ofRoot index body binding).rename rename = ofRoot index body binding := by
  have same : binding.map rename = binding.map id := List.map_congr_left kept
  rw [List.map_id] at same
  simp [ofRoot, Scope.rename, Application.rename, same]

/-- Unfolding a root one level deeper refines what it unfolds to, up to numbers. -/
theorem Scope.unfold_root_deepens (written_ : program.IsWritten) {index : Nat}
    {body : ResolvedDefinition} {binding : List Symbol} (known : body ∈ program.definitions)
    (writtenBinding : ∀ symbol ∈ binding, symbol.IsWritten) {nesting deeperNesting : Nat}
    {listing deeper : Listing}
    (unfolded : (ofRoot index body binding).unfold program depth nesting 1 = some listing)
    (unfoldedDeeper : (ofRoot index body binding).unfold program (depth + 1) deeperNesting 1 =
      some deeper) :
    ∃ numbers : Nat → Nat, Function.Injective numbers ∧
      listing.Deepens (Symbol.renumber numbers) depth deeper := by
  have regular := @regular_ofRoot program index body binding known writtenBinding depth 1
  have kept : (ofRoot index body binding).rename (Symbol.renumber id) =
      ofRoot index body binding :=
    rename_ofRoot fun symbol held => Symbol.renumber_of_isWritten id (writtenBinding symbol held)
  obtain ⟨numbers, aligned, -, deepens⟩ := unfold_deepens written_ (Aligned.same 1) regular
    unfolded (by rw [kept]; exact unfoldedDeeper)
  exact ⟨numbers, aligned.increasing.injective, deepens numbers fun _ _ => rfl⟩

end FlowDiagram

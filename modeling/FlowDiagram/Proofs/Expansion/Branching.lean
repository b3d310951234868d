import FlowDiagram.Proofs.Expansion.Acyclic
import FlowDiagram.Proofs.Expansion.Listing
import Mathlib.Algebra.BigOperators.Intervals
import Mathlib.Algebra.BigOperators.Ring.Finset
import Mathlib.Tactic.Ring

/-!
# Branching recursion

A definition that uses nothing but itself, under its own universal symbols, unfolds to a full tree:
each level has as many bodies for each body of the level before as the definition has uses of
itself, and what is one level deeper than the depth is cut off.  What a graph lists is counted by
weighing it: a node weighs what it is, and a body what its level is.
-/

namespace FlowDiagram

/-! ## Weights -/

/-- What the items of a listing weigh. -/
structure Weights where
  /-- A node that has not been cut off. -/
  whole : Nat
  /-- A node that has been cut off. -/
  cut : Nat
  /-- A body at a level. -/
  body : Nat → Nat

namespace Weights

def listing (weights : Weights) (listing : Listing) : Nat :=
  (listing.nodes.countP fun made => !made.isTruncated) * weights.whole +
    listing.nodes.countP Node.isTruncated * weights.cut +
    (listing.scopes.map fun scope => weights.body scope.level).sum

variable (weights : Weights)

theorem listing_empty (number : Nat) : weights.listing (.empty number) = 0 := by
  simp [listing, Listing.empty]

theorem listing_append (first later : Listing) :
    weights.listing (first.append later) = weights.listing first + weights.listing later := by
  simp only [listing, Listing.append, List.countP_append, List.map_append, List.sum_append,
    Nat.add_mul]
  omega

theorem listing_cons_whole {made : Node} (whole : made.isTruncated = false) (rest : List Outcome)
    (next : Nat) :
    weights.listing (.ofOutcomes (.node made :: rest) next) =
      weights.whole + weights.listing (.ofOutcomes rest next) := by
  simp [listing, Listing.ofOutcomes, whole, Nat.add_mul]
  omega

theorem listing_cons_cut {made : Node} (cut : made.isTruncated = true) (rest : List Outcome)
    (next : Nat) :
    weights.listing (.ofOutcomes (.node made :: rest) next) =
      weights.cut + weights.listing (.ofOutcomes rest next) := by
  simp [listing, Listing.ofOutcomes, cut, Nat.add_mul]
  omega

theorem listing_cons_body (scope : Scope) (rest : List Outcome) (next : Nat) :
    weights.listing (.ofOutcomes (.body scope :: rest) next) =
      weights.body scope.level + weights.listing (.ofOutcomes rest next) := by
  simp [listing, Listing.ofOutcomes]
  omega

/-- Scopes that weigh the same, unfolded one after the other. -/
theorem exists_ofScopes {unfold : Scope → Nat → Option Listing} {total : Weights → Nat}
    {scopes : List Scope}
    (each : ∀ scope ∈ scopes, ∀ number, ∃ listing, unfold scope number = some listing ∧
      ∀ weights : Weights, weights.listing listing = total weights) (number : Nat) :
    ∃ listing, Listing.ofScopes unfold scopes number = some listing ∧
      ∀ weights : Weights, weights.listing listing = scopes.length * total weights := by
  induction scopes generalizing number with
  | nil =>
      refine ⟨.empty number, rfl, fun weights => ?_⟩
      rw [weights.listing_empty, List.length_nil, Nat.zero_mul]
  | cons scope rest ih =>
      obtain ⟨here, inRest⟩ := List.forall_mem_cons.mp each
      obtain ⟨first, hfirst, weighs⟩ := here number
      obtain ⟨later, hlater, weighsLater⟩ := ih inRest first.next
      refine ⟨_, Listing.ofScopes_cons_eq_some.mpr ⟨first, later, hfirst, hlater, rfl⟩, ?_⟩
      intro weights
      rw [weights.listing_append, weighs, weighsLater, List.length_cons, Nat.add_one_mul]
      exact Nat.add_comm _ _

end Weights

/-! ## A definition that uses itself -/

/-- A use of a definition, not of a primitive. -/
def ResolvedUse.isCall (use : ResolvedUse) : Bool :=
  use.callee?.isSome

/-- A use of a definition is one of this definition, under these universal symbols. -/
def ResolvedUse.repeats (use : ResolvedUse) (index : Nat) (universal : List Symbol) : Bool :=
  match use.target with
  | .primitive _ => true
  | .definition callee arguments _ =>
    callee == index && arguments.take universal.length == universal

/-- All definitions that a definition uses are itself, under its own universal symbols. -/
def ResolvedProgram.CallsItself (program : ResolvedProgram) (root : program.Index) : Prop :=
  ∀ use ∈ (program.definition root).uses, use.repeats root (program.definition root).universal

instance (program : ResolvedProgram) (root : program.Index) :
    Decidable (program.CallsItself root) :=
  inferInstanceAs (Decidable (∀ use ∈ (program.definition root).uses, _))

theorem ResolvedProgram.CallsItself.target {program : ResolvedProgram} {root : program.Index}
    (itself : program.CallsItself root) {use : ResolvedUse}
    (member : use ∈ (program.definition root).uses) {callee : Nat} {arguments : List Symbol}
    {fresh : Bool} (target : use.target = .definition callee arguments fresh) :
    callee = root ∧ arguments.take (program.definition root).universal.length =
      (program.definition root).universal := by
  have repeats := itself use member
  simpa [ResolvedUse.repeats, target] using repeats

/-- Under its own universal symbols a definition binds each of them to itself. -/
theorem ResolvedDefinition.bind_universal {definition : ResolvedDefinition} {binding : List Symbol}
    (own : binding.take definition.universal.length = definition.universal) {symbol : Symbol}
    (universal : symbol ∈ definition.universal) : definition.bind binding symbol = symbol := by
  have below := List.idxOf_lt_length_of_mem universal
  refine definition.bind_of_getElem? (List.mem_append_left _ universal) ?_
  rw [parameters, List.idxOf_append_of_mem universal, ← List.getElem?_take_of_lt below, own]
  exact List.getElem?_idxOf universal

theorem take_bindArguments (bind : Symbol → Symbol) (number universal : Nat) (fresh : Bool)
    (arguments : List Symbol) :
    (bindArguments bind number universal fresh arguments).take universal =
      (arguments.take universal).map bind := by
  apply List.ext_getElem?
  intro position
  by_cases below : position < universal
  · rw [List.getElem?_take_of_lt below, getElem?_bindArguments, List.getElem?_map,
      List.getElem?_take_of_lt below]
    simp [Nat.not_le.mpr below]
  · rw [List.getElem?_eq_none, List.getElem?_eq_none]
    · simp; omega
    · simp; omega

/-! ## Bodies of one definition -/

variable {program : ResolvedProgram} {root : program.Index} {depth level : Nat} {scope : Scope}

/-- A body of the root inside as many others of it, all under its own universal symbols. -/
structure Scope.AtLevel (root : program.Index) (level : Nat) (scope : Scope) : Prop where
  body : scope.body = program.definition root
  deep : scope.level = level
  count : scope.applications.length = level + 1
  own : ∀ application ∈ scope.applications, application.definition = root ∧
    application.binding.take (program.definition root).universal.length =
      (program.definition root).universal

theorem Scope.AtLevel.ofRoot {binding : List Symbol}
    (own : binding.take (program.definition root).universal.length =
      (program.definition root).universal) :
    (ResolvedProgram.rootScope root binding).AtLevel root 0 := by
  refine ⟨rfl, rfl, rfl, fun application member => ?_⟩
  obtain rfl := List.mem_singleton.mp member
  exact ⟨rfl, own⟩

theorem Scope.AtLevel.bind (at_ : scope.AtLevel root level) :
    (program.definition root).universal.map scope.bind = (program.definition root).universal := by
  obtain ⟨first, around, applications⟩ := List.exists_cons_of_length_eq_add_one at_.count
  have binding : scope.binding = first.binding := by simp [Scope.binding, applications]
  have own := (at_.own first (applications ▸ List.mem_cons_self)).2
  refine (List.map_congr_left fun symbol universal => ?_).trans (List.map_id _)
  rw [Scope.bind, at_.body, binding, ResolvedDefinition.bind_universal own universal]
  rfl

/-- The root under its own universal symbols recurs there as often as there are bodies. -/
theorem Scope.AtLevel.recursions (at_ : scope.AtLevel root level) {symbols : List Symbol}
    (own : symbols.take (program.definition root).universal.length =
      (program.definition root).universal) :
    scope.recursions root (program.definition root).universal.length symbols = level + 1 := by
  rw [← at_.count, Scope.recursions, List.countP_eq_length]
  intro application member
  obtain ⟨same, universal⟩ := at_.own application member
  exact decide_eq_true ⟨same, universal.trans own.symm⟩

theorem Scope.AtLevel.inner (at_ : scope.AtLevel root level) (use : ResolvedUse)
    {symbols : List Symbol}
    (own : symbols.take (program.definition root).universal.length =
      (program.definition root).universal) :
    (scope.inner use root (program.definition root) symbols (level + 1)).AtLevel root
      (level + 1) where
  body := rfl
  deep := by simp [Scope.inner]
  count := congrArg Nat.succ at_.count
  own := by
    intro application member
    rcases List.mem_cons.mp member with rfl | around
    · exact ⟨rfl, own⟩
    · exact at_.own application around

/-- A use of a definition in such a body is one of the root, under its own universal symbols. -/
theorem Scope.AtLevel.called (itself : program.CallsItself root) (at_ : scope.AtLevel root level)
    {use : ResolvedUse} (member : use ∈ scope.body.uses) {index number : Nat}
    {arguments symbols : List Symbol} {fresh : Bool} {callee : ResolvedDefinition}
    (target : use.target = .definition index arguments fresh)
    (found : program.definitions[index]? = some callee)
    (bound : bindArguments scope.bind number callee.universal.length fresh arguments = symbols) :
    index = root ∧ callee = program.definition root ∧
      symbols.take (program.definition root).universal.length =
        (program.definition root).universal := by
  rw [at_.body] at member
  obtain ⟨rfl, passed⟩ := itself.target member target
  obtain ⟨_, rfl⟩ := List.getElem?_eq_some_iff.mp found
  refine ⟨rfl, rfl, ?_⟩
  rw [← bound]
  exact (take_bindArguments scope.bind number _ fresh arguments).trans
    ((congrArg (List.map scope.bind) passed).trans at_.bind)

/-- A use of the root in such a body is cut off at the depth, and a body one level deeper before. -/
theorem Scope.AtLevel.become (itself : program.CallsItself root) (at_ : scope.AtLevel root level)
    {use : ResolvedUse} (member : use ∈ scope.body.uses) {number next : Nat} {outcome : Outcome}
    (become : scope.become program depth number use = some (outcome, next)) :
    (use.isCall = false ∧ ∃ node, outcome = .node node ∧ node.isTruncated = false) ∨
      (use.isCall = true ∧ depth ≤ level ∧
        ∃ node, outcome = .node node ∧ node.isTruncated = true) ∨
      (use.isCall = true ∧ level < depth ∧
        ∃ inner, outcome = .body inner ∧ inner.AtLevel root (level + 1)) := by
  cases becomes_of_become become with
  | primitive target =>
      exact .inl ⟨by simp [ResolvedUse.isCall, ResolvedUse.callee?, target], _, rfl, rfl⟩
  | truncated target found bound many =>
      have call : use.isCall = true := by simp [ResolvedUse.isCall, ResolvedUse.callee?, target]
      obtain ⟨rfl, rfl, own⟩ := at_.called itself member target found bound
      rw [at_.recursions own] at many
      exact .inr (.inl ⟨call, Nat.le_of_lt_succ many, _, rfl, rfl⟩)
  | body target found bound few =>
      have call : use.isCall = true := by simp [ResolvedUse.isCall, ResolvedUse.callee?, target]
      obtain ⟨rfl, rfl, own⟩ := at_.called itself member target found bound
      rw [at_.recursions own] at few ⊢
      exact .inr (.inr ⟨call, few, _, rfl, at_.inner use own⟩)

/-- How many uses of a body are of a primitive. -/
def ResolvedDefinition.primitiveCount (body : ResolvedDefinition) : Nat :=
  body.uses.countP fun use => !use.isCall

/-- How many uses of a body are of a definition. -/
def ResolvedDefinition.callCount (body : ResolvedDefinition) : Nat :=
  body.uses.countP ResolvedUse.isCall

theorem Scope.AtLevel.becomeAll (itself : program.CallsItself root)
    (at_ : scope.AtLevel root level) {uses : List ResolvedUse}
    (members : ∀ use ∈ uses, use ∈ scope.body.uses) {number next : Nat} {outcomes : List Outcome}
    (become : scope.becomeAll program depth number uses = some (outcomes, next)) :
    (∀ inner ∈ scopesOf outcomes, inner.AtLevel root (level + 1)) ∧
      (scopesOf outcomes).length =
        (if level < depth then uses.countP ResolvedUse.isCall else 0) ∧
      ∀ weights : Weights, weights.listing (.ofOutcomes outcomes next) =
        (uses.countP fun use => !use.isCall) * weights.whole +
          uses.countP ResolvedUse.isCall *
            if level < depth then weights.body (level + 1) else weights.cut := by
  induction uses generalizing number outcomes with
  | nil =>
      cases become
      exact ⟨nofun, by simp, fun weights => by simp [Weights.listing, Listing.ofOutcomes]⟩
  | cons use rest ih =>
      obtain ⟨here, inRest⟩ := List.forall_mem_cons.mp members
      obtain ⟨outcome, middle, others, hfirst, hrest, rfl⟩ :=
        Unfolding.becomeAll_cons_eq_some.mp become
      obtain ⟨levels, count, weighs⟩ := ih inRest hrest
      rcases at_.become itself here hfirst with
        ⟨plain, node, rfl, whole⟩ | ⟨call, deep, node, rfl, cut⟩ | ⟨call, shallow, inner, rfl, at_⟩
      · refine ⟨levels, ?_, fun weights => ?_⟩
        · simp [count, plain]
        · rw [weights.listing_cons_whole whole, weighs weights]
          simp [plain]
          ring
      · refine ⟨levels, ?_, fun weights => ?_⟩
        · simp [count, Nat.not_lt.mpr deep]
        · rw [weights.listing_cons_cut cut, weighs weights]
          simp [call, Nat.not_lt.mpr deep]
          ring
      · refine ⟨?_, ?_, fun weights => ?_⟩
        · simpa using ⟨at_, levels⟩
        · simp [count, shallow, call]
        · rw [weights.listing_cons_body, weighs weights, at_.deep]
          simp [call, shallow]
          ring

/-! ## Levels -/

namespace Weights

/--
What a body unfolds to when it lies at a level, with so many levels below up to the depth: its
primitive nodes and those of the bodies below, the bodies, and what is cut off in the last ones.
-/
def tree (weights : Weights) (primitives calls level : Nat) : Nat → Nat
  | 0 => primitives * weights.whole + calls * weights.cut
  | below + 1 => primitives * weights.whole +
      calls * (weights.body (level + 1) + weights.tree primitives calls (level + 1) below)

theorem tree_eq (weights : Weights) (primitives calls level below : Nat) :
    weights.tree primitives calls level below =
      primitives * (∑ step ∈ Finset.range (below + 1), calls ^ step) * weights.whole +
        calls ^ (below + 1) * weights.cut +
        ∑ step ∈ Finset.range below, calls ^ (step + 1) * weights.body (level + 1 + step) := by
  induction below generalizing level with
  | zero => simp [tree]
  | succ below ih =>
      have geometric : ∑ step ∈ Finset.range (below + 1), calls ^ (step + 1) =
          calls * ∑ step ∈ Finset.range (below + 1), calls ^ step := by
        rw [Finset.mul_sum]
        exact Finset.sum_congr rfl fun step _ => pow_succ' calls step
      have bodies : ∑ step ∈ Finset.range below,
            calls ^ (step + 1 + 1) * weights.body (level + 1 + (step + 1)) =
          calls * ∑ step ∈ Finset.range below, calls ^ (step + 1) *
            weights.body (level + 1 + 1 + step) := by
        rw [Finset.mul_sum]
        refine Finset.sum_congr rfl fun step _ => ?_
        rw [pow_succ', Nat.mul_assoc, Nat.add_right_comm (level + 1) 1 step, Nat.add_assoc _ step]
      rw [tree, ih, Finset.sum_range_succ' (calls ^ ·) (below + 1),
        Finset.sum_range_succ' (fun step => calls ^ (step + 1) * weights.body (level + 1 + step)),
        geometric, bodies]
      ring

end Weights

theorem Scope.AtLevel.exists_becomeAll (sound : program.Sound) (at_ : scope.AtLevel root level)
    (depth number : Nat) :
    ∃ outcomes next,
      scope.becomeAll program depth number scope.body.uses = some (outcomes, next) := by
  refine Scope.exists_becomeAll scope ?_ number
  rw [at_.body]
  exact (sound _ (ResolvedProgram.definition_mem root)).uses_fit

/-- Such a body unfolds to a full tree. -/
theorem Scope.AtLevel.exists_unfold (sound : program.Sound) (itself : program.CallsItself root)
    (at_ : scope.AtLevel root level) (below number : Nat) :
    ∃ listing, scope.unfold program (level + below) (below + 1) number = some listing ∧
      ∀ weights : Weights, weights.listing listing =
        weights.tree (program.definition root).primitiveCount (program.definition root).callCount
          level below := by
  induction below generalizing scope level number with
  | zero =>
      obtain ⟨outcomes, next, become⟩ := at_.exists_becomeAll sound level number
      obtain ⟨-, count, weighs⟩ := at_.becomeAll itself (fun _ member => member) become
      rw [if_neg (Nat.lt_irrefl level)] at count
      have none_ : scopesOf outcomes = [] := List.length_eq_zero_iff.mp count
      have inner : Listing.ofScopes (Scope.unfold program level 0) (scopesOf outcomes) next =
          some (.empty next) := by
        rw [none_]
        rfl
      refine ⟨_, Scope.unfold_succ_eq_some.mpr ⟨outcomes, next, _, become, inner, rfl⟩, ?_⟩
      intro weights
      rw [weights.listing_append, weighs, weights.listing_empty, if_neg (Nat.lt_irrefl level),
        at_.body]
      rfl
  | succ below ih =>
      have deeper : level < level + (below + 1) := Nat.lt_add_of_pos_right (Nat.succ_pos below)
      obtain ⟨outcomes, next, become⟩ :=
        at_.exists_becomeAll sound (level + (below + 1)) number
      obtain ⟨levels, count, weighs⟩ := at_.becomeAll itself (fun _ member => member) become
      rw [if_pos deeper] at count
      have each : ∀ inner ∈ scopesOf outcomes, ∀ number, ∃ listing,
          inner.unfold program (level + (below + 1)) (below + 1) number = some listing ∧
          ∀ weights : Weights, weights.listing listing = weights.tree
            (program.definition root).primitiveCount (program.definition root).callCount
            (level + 1) below := by
        intro inner member number
        have found := ih (levels inner member) number
        rwa [Nat.add_right_comm, Nat.add_assoc] at found
      obtain ⟨inner, hinner, weighsInner⟩ := Weights.exists_ofScopes each next
      refine ⟨_, Scope.unfold_succ_eq_some.mpr ⟨outcomes, next, _, become, hinner, rfl⟩, ?_⟩
      intro weights
      rw [weights.listing_append, weighs, weighsInner, if_pos deeper, count, at_.body]
      rw [Weights.tree, Nat.mul_add, Nat.add_assoc]
      rfl

/-! ## Counts -/

namespace Weights

variable (listed : Listing)

theorem listing_whole :
    (⟨1, 0, fun _ => 0⟩ : Weights).listing listed =
      listed.nodes.countP fun made => !made.isTruncated := by
  simp [listing]

theorem listing_cut :
    (⟨0, 1, fun _ => 0⟩ : Weights).listing listed = listed.nodes.countP Node.isTruncated := by
  simp [listing]

theorem listing_bodies :
    (⟨0, 0, fun _ => 1⟩ : Weights).listing listed = listed.scopes.length := by
  simp [listing]

theorem listing_size : (⟨1, 1, fun _ => 1⟩ : Weights).listing listed = listed.size := by
  have nodes : listed.nodes.length = listed.nodes.countP Node.isTruncated +
      listed.nodes.countP fun made => !made.isTruncated := by
    simpa using List.length_eq_countP_add_countP Node.isTruncated
  simp [listing, Listing.size, nodes, Nat.add_comm]

theorem listing_level (level : Nat) :
    (⟨0, 0, fun other => if other = level then 1 else 0⟩ : Weights).listing listed =
      listed.instances.countP fun unfolded => unfolded.level = level := by
  rw [Listing.instances, List.countP_map]
  simp only [listing, Nat.mul_zero, Nat.zero_add]
  induction listed.scopes with
  | nil => rfl
  | cons scope rest ih =>
      rw [List.map_cons, List.sum_cons, ih, List.countP_cons, Nat.add_comm]
      by_cases there : scope.level = level
      · simp [there, Scope.toInstance]
      · simp [there, Scope.toInstance]

end Weights

/-- The powers up to an exponent, but for the first one. -/
theorem sum_pow_succ (base last : Nat) :
    ∑ step ∈ Finset.range last, base ^ (step + 1) = ∑ level ∈ Finset.Icc 1 last, base ^ level := by
  rw [← Finset.Ico_add_one_right_eq_Icc, Finset.range_eq_Ico]
  simpa using Finset.sum_Ico_add' (fun level => base ^ level) 0 last 1

/-- What a full tree of bodies lists, each with so many primitives and uses of a definition. -/
structure PortGraph.FullTree (graph : PortGraph) (primitives calls depth : Nat) : Prop where
  primitives : (graph.nodes.toList.countP fun node => !node.isTruncated) =
    primitives * ∑ level ∈ Finset.range (depth + 1), calls ^ level
  truncated : graph.truncatedCount = calls ^ (depth + 1)
  instances : graph.instances.length = ∑ level ∈ Finset.Icc 1 depth, calls ^ level
  levels : ∀ level, (graph.instances.countP fun unfolded => unfolded.level = level) =
    if 1 ≤ level ∧ level ≤ depth then calls ^ level else 0

/-- What a listing comes to that weighs as much as a full tree. -/
theorem PortGraph.FullTree.of_weights {graph : PortGraph} {listed : Listing}
    {primitives calls depth : Nat} (nodes : graph.nodes.toList = listed.nodes)
    (instances : graph.instances = listed.instances)
    (weighs : ∀ weights : Weights, weights.listing listed =
      weights.tree primitives calls 0 depth) : graph.FullTree primitives calls depth where
  primitives := by
    rw [nodes, ← Weights.listing_whole, weighs, Weights.tree_eq]
    simp
  truncated := by
    rw [truncatedCount, nodes, ← Weights.listing_cut, weighs, Weights.tree_eq]
    simp
  instances := by
    rw [instances, Listing.instances, List.length_map, ← Weights.listing_bodies, weighs,
      Weights.tree_eq, ← sum_pow_succ]
    simp
  levels := by
    intro level
    rw [instances, ← Weights.listing_level, weighs, Weights.tree_eq]
    cases level with
    | zero => simp
    | succ step =>
        have only (other : Nat) : 0 + 1 + other = step + 1 ↔ other = step := by omega
        simp [only]

namespace ResolvedProgram

theorem take_parameters (body : ResolvedDefinition) :
    body.parameters.take body.universal.length = body.universal :=
  List.take_left

/-- Under its own symbols such a root has a full tree as its listing. -/
theorem CallsItself.exists_listing (sound : program.Sound) (itself : program.CallsItself root)
    (depth : Nat) :
    ∃ listing, (rootScope root (program.definition root).parameters).unfold program depth
        (depth + 1) 1 = some listing ∧
      ∀ weights : Weights, weights.listing listing =
        weights.tree (program.definition root).primitiveCount (program.definition root).callCount 0
          depth := by
  have found := (Scope.AtLevel.ofRoot (take_parameters (program.definition root))).exists_unfold
    sound itself depth 1
  rwa [Nat.zero_add] at found

/--
A root that uses nothing but itself, under its own universal symbols, expands to a full tree: with
each level there are as many more bodies for each body as it has uses of itself, each body has its
primitives, and all uses of the root in the last bodies are cut off.  That is also all that a
budget must have room for, besides the root.
-/
theorem expand_full_tree (program : Program) {root : program.resolved.Index}
    (itself : program.resolved.CallsItself root) (limits : UnfoldingLimits) :
    let primitives := (program.resolved.definition root).primitiveCount
    let calls := (program.resolved.definition root).callCount
    (∀ graph, program.resolved.expand root none limits = .ok graph →
      graph.FullTree primitives calls limits.depth) ∧
    (limits.expired = false →
      primitives * ∑ level ∈ Finset.range (limits.depth + 1), calls ^ level +
          calls ^ (limits.depth + 1) +
          ∑ level ∈ Finset.Icc 1 limits.depth, calls ^ level < limits.nodes →
      ∃ graph, program.resolved.expand root none limits = .ok graph) := by
  intro primitives calls
  have sound := program.resolved_sound
  obtain ⟨listed, hlisted, weighs⟩ := itself.exists_listing sound limits.depth
  constructor
  · intro graph expanded
    obtain ⟨binding, nesting, other, bound, hother, -, nodes, instances⟩ :=
      listing_of_expand sound expanded
    obtain rfl := ResolvedDefinition.rootBinding_none bound
    -- the run has the same listing, under whatever nesting it is found
    have here := Scope.unfold_mono (Nat.le_max_left nesting (limits.depth + 1)) hother
    have there := Scope.unfold_mono (Nat.le_max_right nesting (limits.depth + 1)) hlisted
    obtain rfl : other = listed := Option.some.inj (here.symm.trans there)
    exact .of_weights nodes instances weighs
  · intro inTime enough
    have size : listed.size < limits.nodes := by
      rw [← Weights.listing_size, weighs, Weights.tree_eq]
      simpa [sum_pow_succ] using enough
    have bound : (program.resolved.definition root).rootBinding none =
      .ok (program.resolved.definition root).parameters := rfl
    obtain ⟨graph, expanded, -⟩ := expand_of_listing sound bound hlisted inTime size
    exact ⟨graph, expanded⟩

/-- A definition that uses itself twice; the first use writes the existential symbol. -/
def forking : Program :=
  .ofLines [
    "def f = <a | e> [X | Y]",
    "  use +a [X | Y] as A",
    "  use f <a | e> [X | Y] as L",
    "  use f <a |> [X | Y] as R",
    "  link X >-> A.X, A.Y >-> L.X, L.Y >-> R.X, R.Y >-> Y"]

/-- At depth two there are seven bodies, with eight uses below the last four of them. -/
theorem expand_full_tree_forking :
    ∃ (root : forking.resolved.Index) (graph : PortGraph),
      forking.resolved.CallsItself root ∧
      (forking.resolved.definition root).primitiveCount = 1 ∧
      (forking.resolved.definition root).callCount = 2 ∧
      forking.resolved.expand root none ⟨2, 22, false⟩ = .ok graph ∧
      graph.FullTree 1 2 2 := by
  have itself : forking.resolved.CallsItself ⟨0, by decide +kernel⟩ := by decide +kernel
  have primitives : (forking.resolved.definition ⟨0, by decide +kernel⟩).primitiveCount = 1 := by
    decide +kernel
  have calls : (forking.resolved.definition ⟨0, by decide +kernel⟩).callCount = 2 := by
    decide +kernel
  obtain ⟨counts, expands⟩ := expand_full_tree forking itself ⟨2, 22, false⟩
  rw [primitives, calls] at counts expands
  obtain ⟨graph, expanded⟩ := expands rfl (by decide)
  exact ⟨_, graph, itself, primitives, calls, expanded, counts graph expanded⟩

end ResolvedProgram

end FlowDiagram

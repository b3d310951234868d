import FlowDiagram.Unfolding

/-!
# Unfolding by recursion

What a body unfolds to can be told by plain recursion, without frames, sites and a budget: first
what its own uses become, in their order, then what the bodies among them unfold to, one after the
other.  Bodies need not lie in one another only finitely often, so the recursion is cut off at a
nesting; a listing obtained under some nesting is the same under every larger one.
-/

namespace FlowDiagram

/-! ## Scopes -/

/-- A body with all that decides what its uses become. -/
structure Scope where
  body : ResolvedDefinition
  /-- What is unfolded here and around, innermost first. -/
  applications : List Application
  level : Nat
  path : List String

/-- The scope of a root under a binding. -/
def Scope.ofRoot (index : Nat) (body : ResolvedDefinition) (binding : List Symbol) : Scope :=
  ⟨body, [⟨index, binding⟩], 0, []⟩

/-- What the generic symbols of the body stand for. -/
def Scope.binding (scope : Scope) : List Symbol :=
  (scope.applications.head?.map (·.binding)).getD []

/-- What a symbol written in the body stands for. -/
def Scope.bind (scope : Scope) (symbol : Symbol) : Symbol :=
  scope.body.bind scope.binding symbol

/-- The instance that a body unfolded below the root is told as. -/
def Scope.toInstance (scope : Scope) : Instance :=
  ⟨scope.path, scope.body.name, scope.binding, scope.level⟩

/--
How many of the bodies here and around are of this definition under the same universal symbols.
-/
def Scope.recursions (scope : Scope) (index universal : Nat) (symbols : List Symbol) : Nat :=
  scope.applications.countP fun application =>
    application.definition = index ∧ application.binding.take universal = symbols.take universal

/-- What has become of a use: a node, or a body that is unfolded in turn. -/
inductive Outcome where
  | node (node : Node)
  | body (scope : Scope)

namespace Scope

/-- A use of a primitive is a node of it, under the binding. -/
def primitiveNode (scope : Scope) (use : ResolvedUse) (primitive : Primitive) : Node where
  kind := .primitive (primitive.rename scope.bind)
  inputs := use.inputs
  outputs := use.outputs
  provenance := ⟨scope.path ++ [use.name], scope.body.name, scope.level, false, use.span⟩

/-- A use of a definition that is cut off. -/
def truncatedNode (scope : Scope) (use : ResolvedUse) (callee : ResolvedDefinition)
    (symbols : List Symbol) (level : Nat) : Node where
  kind := .truncated callee.name symbols
  inputs := use.inputs
  outputs := use.outputs
  provenance := ⟨scope.path ++ [use.name], scope.body.name, level, true, use.span⟩

/-- The body that a use of the definition `index` unfolds to. -/
def inner (scope : Scope) (use : ResolvedUse) (index : Nat) (callee : ResolvedDefinition)
    (symbols : List Symbol) (level : Nat) : Scope where
  body := callee
  applications := ⟨index, symbols⟩ :: scope.applications
  level := if level = 0 then scope.level else level
  path := scope.path ++ [use.name]

/--
What a use becomes when `number` is the number of the next introduction of symbols, and the number
of the one after that.
-/
def become (program : ResolvedProgram) (depth : Nat) (scope : Scope) (number : Nat)
    (use : ResolvedUse) : Option (Outcome × Nat) :=
  match use.target with
  | .primitive primitive => some (.node (scope.primitiveNode use primitive), number)
  | .definition index arguments fresh =>
    (program.definitions[index]?).map fun callee =>
      let universal := callee.universal.length
      let symbols := bindArguments scope.bind number universal fresh arguments
      let level := scope.recursions index universal symbols
      (if depth < level then .node (scope.truncatedNode use callee symbols level)
        else .body (scope.inner use index callee symbols level),
       if fresh ∧ universal < arguments.length then number + 1 else number)

/-- The ways in which a use becomes something, with the number of the introduction after it. -/
inductive Becomes (program : ResolvedProgram) (depth : Nat) (scope : Scope) (number : Nat)
    (use : ResolvedUse) : Outcome → Nat → Prop
  | primitive {box : Primitive} (target : use.target = .primitive box) :
      Becomes program depth scope number use (.node (scope.primitiveNode use box)) number
  | truncated {index : Nat} {arguments : List Symbol} {fresh : Bool}
      {callee : ResolvedDefinition} {symbols : List Symbol}
      (target : use.target = .definition index arguments fresh)
      (found : program.definitions[index]? = some callee)
      (bound : bindArguments scope.bind number callee.universal.length fresh arguments = symbols)
      (many : depth < scope.recursions index callee.universal.length symbols) :
      Becomes program depth scope number use
        (.node (scope.truncatedNode use callee symbols
          (scope.recursions index callee.universal.length symbols)))
        (if fresh ∧ callee.universal.length < arguments.length then number + 1 else number)
  | body {index : Nat} {arguments : List Symbol} {fresh : Bool}
      {callee : ResolvedDefinition} {symbols : List Symbol}
      (target : use.target = .definition index arguments fresh)
      (found : program.definitions[index]? = some callee)
      (bound : bindArguments scope.bind number callee.universal.length fresh arguments = symbols)
      (few : scope.recursions index callee.universal.length symbols ≤ depth) :
      Becomes program depth scope number use
        (.body (scope.inner use index callee symbols
          (scope.recursions index callee.universal.length symbols)))
        (if fresh ∧ callee.universal.length < arguments.length then number + 1 else number)

theorem becomes_of_become {program : ResolvedProgram} {depth number next : Nat} {scope : Scope}
    {use : ResolvedUse} {outcome : Outcome}
    (become : scope.become program depth number use = some (outcome, next)) :
    scope.Becomes program depth number use outcome next := by
  unfold Scope.become at become
  cases target : use.target with
  | primitive box =>
      rw [target] at become
      cases become
      exact .primitive target
  | definition index arguments fresh =>
      simp only [target, Option.map_eq_some_iff, Prod.mk.injEq] at become
      obtain ⟨callee, found, rfl, rfl⟩ := become
      split
      · rename_i many
        exact .truncated target found rfl many
      · rename_i few
        exact .body target found rfl (Nat.not_lt.mp few)

theorem Becomes.become {program : ResolvedProgram} {depth number next : Nat} {scope : Scope}
    {use : ResolvedUse} {outcome : Outcome}
    (becomes : scope.Becomes program depth number use outcome next) :
    scope.become program depth number use = some (outcome, next) := by
  cases becomes with
  | primitive target => simp [Scope.become, target]
  | truncated target found bound many => simp [Scope.become, target, found, bound, many]
  | body target found bound few => simp [Scope.become, target, found, bound, Nat.not_lt.mpr few]

/-- What uses become, one after the other. -/
def becomeAll (program : ResolvedProgram) (depth : Nat) (scope : Scope) :
    Nat → List ResolvedUse → Option (List Outcome × Nat)
  | number, [] => some ([], number)
  | number, use :: rest => do
    let (outcome, number) ← scope.become program depth number use
    let (outcomes, number) ← scope.becomeAll program depth number rest
    return (outcome :: outcomes, number)

end Scope

/-- The nodes among outcomes. -/
def nodesOf (outcomes : List Outcome) : List Node :=
  outcomes.filterMap fun
    | .node node => some node
    | .body _ => none

/-- The bodies among outcomes. -/
def scopesOf (outcomes : List Outcome) : List Scope :=
  outcomes.filterMap fun
    | .body scope => some scope
    | .node _ => none

@[simp]
theorem nodesOf_cons_node (node : Node) (rest : List Outcome) :
    nodesOf (.node node :: rest) = node :: nodesOf rest := rfl

@[simp]
theorem nodesOf_cons_body (scope : Scope) (rest : List Outcome) :
    nodesOf (.body scope :: rest) = nodesOf rest := rfl

@[simp]
theorem scopesOf_cons_node (node : Node) (rest : List Outcome) :
    scopesOf (.node node :: rest) = scopesOf rest := rfl

@[simp]
theorem scopesOf_cons_body (scope : Scope) (rest : List Outcome) :
    scopesOf (.body scope :: rest) = scope :: scopesOf rest := rfl

@[simp]
theorem nodesOf_nil : nodesOf [] = [] := rfl

@[simp]
theorem scopesOf_nil : scopesOf [] = [] := rfl

theorem length_nodesOf_add_scopesOf (outcomes : List Outcome) :
    (nodesOf outcomes).length + (scopesOf outcomes).length = outcomes.length := by
  induction outcomes with
  | nil => rfl
  | cons outcome rest ih =>
      cases outcome with
      | node node => simp; omega
      | body scope => simp; omega

/-! ## Listings -/

/-- The nodes and the bodies that something unfolds to, in the order in which they are found. -/
structure Listing where
  nodes : List Node
  scopes : List Scope
  /-- The number of the next introduction of symbols. -/
  next : Nat

namespace Listing

def instances (listing : Listing) : List Instance :=
  listing.scopes.map Scope.toInstance

/-- How much of a budget a listing takes. -/
def size (listing : Listing) : Nat :=
  listing.nodes.length + listing.scopes.length

/-- Nothing, before the introduction `number`. -/
def empty (number : Nat) : Listing := ⟨[], [], number⟩

/-- One listing behind another. -/
def append (first later : Listing) : Listing :=
  ⟨first.nodes ++ later.nodes, first.scopes ++ later.scopes, later.next⟩

/-- What the uses of a body become. -/
def ofOutcomes (outcomes : List Outcome) (next : Nat) : Listing :=
  ⟨nodesOf outcomes, scopesOf outcomes, next⟩

/-- What scopes unfold to one after the other, when `unfold` tells what each of them does. -/
def ofScopes (unfold : Scope → Nat → Option Listing) : List Scope → Nat → Option Listing
  | [], number => some (.empty number)
  | scope :: rest, number => do
    let first ← unfold scope number
    let later ← ofScopes unfold rest first.next
    return first.append later

theorem size_append (first later : Listing) :
    (first.append later).size = first.size + later.size := by
  simp only [append, size, List.length_append]
  omega

theorem size_ofOutcomes (outcomes : List Outcome) (next : Nat) :
    (ofOutcomes outcomes next).size = outcomes.length :=
  length_nodesOf_add_scopesOf outcomes

theorem ofScopes_cons_eq_some {unfold : Scope → Nat → Option Listing} {scope : Scope}
    {rest : List Scope} {number : Nat} {listing : Listing} :
    ofScopes unfold (scope :: rest) number = some listing ↔
      ∃ first later, unfold scope number = some first ∧
        ofScopes unfold rest first.next = some later ∧ listing = first.append later := by
  simp only [ofScopes, Option.bind_eq_bind, Option.pure_def, Option.bind_eq_some_iff,
    Option.some.injEq]
  grind

/-- What every scope unfolds to is all that matters. -/
theorem ofScopes_mono {unfold larger : Scope → Nat → Option Listing}
    (extends_ : ∀ scope number listing, unfold scope number = some listing →
      larger scope number = some listing)
    {scopes : List Scope} {number : Nat} {listing : Listing}
    (unfolded : ofScopes unfold scopes number = some listing) :
    ofScopes larger scopes number = some listing := by
  induction scopes generalizing number listing with
  | nil => exact unfolded
  | cons scope rest ih =>
      obtain ⟨first, later, hfirst, hlater, same⟩ := ofScopes_cons_eq_some.mp unfolded
      exact ofScopes_cons_eq_some.mpr ⟨first, later, extends_ _ _ _ hfirst, ih hlater, same⟩

end Listing

namespace Scope

/--
What a body unfolds to, when bodies may lie in one another up to a nesting: its own outcomes, then
what the bodies among them unfold to.
-/
def unfold (program : ResolvedProgram) (depth : Nat) : Nat → Scope → Nat → Option Listing
  | 0, _, _ => none
  | nesting + 1, scope, number => do
    let (outcomes, number) ← scope.becomeAll program depth number scope.body.uses
    let inner ← Listing.ofScopes (unfold program depth nesting) (scopesOf outcomes) number
    return (Listing.ofOutcomes outcomes number).append inner

theorem unfold_succ_eq_some {program : ResolvedProgram} {depth nesting : Nat} {scope : Scope}
    {number : Nat} {listing : Listing} :
    unfold program depth (nesting + 1) scope number = some listing ↔
      ∃ outcomes next inner,
        scope.becomeAll program depth number scope.body.uses = some (outcomes, next) ∧
        Listing.ofScopes (unfold program depth nesting) (scopesOf outcomes) next = some inner ∧
        listing = (Listing.ofOutcomes outcomes next).append inner := by
  simp only [unfold, Option.bind_eq_bind, Option.pure_def, Option.bind_eq_some_iff,
    Option.some.injEq]
  grind

theorem unfold_mono {program : ResolvedProgram} {depth nesting larger : Nat}
    (le : nesting ≤ larger) {scope : Scope} {number : Nat} {listing : Listing}
    (unfolded : unfold program depth nesting scope number = some listing) :
    unfold program depth larger scope number = some listing := by
  induction nesting generalizing larger scope number listing with
  | zero => cases unfolded
  | succ nesting ih =>
      obtain ⟨larger, rfl⟩ : ∃ above, larger = above + 1 := ⟨larger - 1, by omega⟩
      obtain ⟨outcomes, next, inner, houtcomes, hinner, same⟩ := unfold_succ_eq_some.mp unfolded
      refine unfold_succ_eq_some.mpr ⟨outcomes, next, inner, houtcomes, ?_, same⟩
      exact Listing.ofScopes_mono (fun _ _ _ found => ih (by omega) found) hinner

end Scope

end FlowDiagram

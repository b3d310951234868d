import FlowDiagram.Proofs.Unfolding.Origins
import FlowDiagram.Proofs.Unfolding.Recurring
import Mathlib.Algebra.BigOperators.Group.List.Basic
import Mathlib.Algebra.Order.BigOperators.Group.List
import Mathlib.Algebra.Order.Ring.Nat
import Mathlib.Data.List.Sections
import Mathlib.Order.WellFounded
import Mathlib.Tactic.Choose

/-!
# Recursion that settles

Bodies that lie in one another without end make a descent.  A depth lets a definition lie in itself
only so often under the same universal symbols, and there are only so many choices of symbols that
have not been introduced since a certain step.  So the descent renews; below a root where none
does, bodies lie in one another only finitely often, and the root has a listing.
-/

namespace FlowDiagram

variable {program : ResolvedProgram} {depth : Nat} {inner outer : Scope}
  {callee : program.Index} {symbols : List Symbol}

/-! ## Bodies in one another -/

/-- One body is unfolded directly inside another. -/
def Scope.Inside (program : ResolvedProgram) (depth : Nat) (inner outer : Scope) : Prop :=
  ∃ use ∈ outer.body.uses, ∃ number next,
    outer.become program depth number use = some (.body inner, next)

/-- A body is that of a definition used in another, under what the use gives it. -/
structure Scope.Enters (program : ResolvedProgram) (depth : Nat) (outer inner : Scope)
    (callee : program.Index) (arguments : List Symbol) (fresh : Bool) : Prop where
  call : ∃ use ∈ outer.body.uses, use.target = .definition callee arguments fresh
  body : inner.body = program.definition callee
  binding : ∃ number, inner.binding = bindArguments outer.bind number
    (program.definition callee).universal.length fresh arguments
  applications : inner.applications = ⟨callee, inner.binding⟩ :: outer.applications
  few : outer.recursions callee (program.definition callee).universal.length inner.binding ≤ depth

theorem Scope.Inside.enters (inside : Scope.Inside program depth inner outer) :
    ∃ (callee : program.Index) (arguments : List Symbol) (fresh : Bool),
      Scope.Enters program depth outer inner callee arguments fresh := by
  obtain ⟨use, member, number, next, become⟩ := inside
  cases Scope.becomes_of_become become with
  | @body index arguments fresh callee symbols target found bound few =>
      obtain ⟨below, rfl⟩ := List.getElem?_eq_some_iff.mp found
      exact ⟨⟨index, below⟩, arguments, fresh, ⟨use, member, target⟩, rfl, ⟨number, bound.symm⟩,
        rfl, few⟩

/-- The symbols at hand in a body: what is bound there, and what is written in the program. -/
def Scope.known (program : ResolvedProgram) (scope : Scope) : List Symbol :=
  scope.binding ++ program.argumentSymbols

namespace ResolvedProgram.Descent

/-- Bodies in one another, each that of the definition at a step of a descent. -/
structure Unfolds (descent : program.Descent) (depth : Nat) (scopes : Nat → Scope) : Prop where
  body : ∀ step, (scopes step).body = program.definition (descent.index step)
  enters : ∀ step, (scopes step).Enters program depth (scopes (step + 1))
    (descent.index (step + 1)) (descent.arguments step) (descent.fresh step)

/-- Bodies in one another without end make a descent. -/
theorem exists_unfolds {index : program.Index} {scope : Scope}
    (body : scope.body = program.definition index)
    (endless : ¬ Acc (Scope.Inside program depth) scope) :
    ∃ (descent : program.Descent) (scopes : Nat → Scope),
      descent.index 0 = index ∧ descent.Unfolds depth scopes := by
  obtain ⟨scopes, rfl, inside⟩ := not_acc_iff_exists_descending_chain.mp endless
  have each := fun step => (inside step).enters
  choose callee arguments fresh enters using each
  have bodies : ∀ step, (scopes step).body =
      program.definition (Nat.casesOn step index callee) := by
    intro step
    cases step with
    | zero => exact body
    | succ step => exact (enters step).body
  refine ⟨⟨fun step => Nat.casesOn step index callee, arguments, fresh, ?_⟩, scopes, rfl, bodies,
    enters⟩
  intro step
  rw [← bodies]
  exact (enters step).call

variable {descent : program.Descent} {scopes : Nat → Scope} {start step position : Nat}
  {symbol : Symbol}

/-- A symbol bound at a step has been introduced since an earlier one, or was at hand there. -/
theorem Unfolds.recent_or_mem (unfolds : descent.Unfolds depth scopes) (le : start ≤ step)
    (bound : (scopes step).binding[position]? = some symbol) :
    descent.Recent start step position ∨ symbol ∈ (scopes start).known program := by
  induction step, le using Nat.le_induction generalizing position symbol with
  | base => exact .inr (List.mem_append_left _ (List.mem_of_getElem? bound))
  | succ step le ih =>
      obtain ⟨number, binding⟩ := (unfolds.enters step).binding
      rw [binding, getElem?_bindArguments, Option.map_eq_some_iff] at bound
      obtain ⟨argument, found, same⟩ := bound
      split at same
      · rename_i introduced
        have below := (List.getElem?_eq_some_iff.mp found).1
        exact .inl (.introduced le ⟨introduced.1, introduced.2, below⟩)
      · rename_i passed
        rw [Scope.bind, unfolds.body step] at same
        have written_ := descent.mem_argumentSymbols step argument (List.mem_of_getElem? found)
        rcases (program.definition (descent.index step)).bind_cases (scopes step).binding argument
          with itself | ⟨parameter, held⟩
        · obtain rfl : argument = symbol := itself.symm.trans same
          exact .inr (List.mem_append_right _ written_)
        · rw [same] at held
          exact (ih held).imp_left (.passed ⟨passed, argument, parameter, found, rfl⟩)

end ResolvedProgram.Descent

/-! ## Room for recursion -/

/-- Each definition with each choice of certain symbols for its universal parameters. -/
def ResolvedProgram.choices (program : ResolvedProgram) (symbols : List Symbol) :
    List (program.Index × List Symbol) :=
  (List.finRange program.definitions.length).flatMap fun index =>
    (List.replicate (program.definition index).universal.length symbols).sections.map (index, ·)

theorem ResolvedProgram.mem_choices {index : program.Index} {chosen : List Symbol}
    (length : chosen.length = (program.definition index).universal.length)
    (among : ∀ symbol ∈ chosen, symbol ∈ symbols) : (index, chosen) ∈ program.choices symbols := by
  have each : ∀ chosen : List Symbol, (∀ symbol ∈ chosen, symbol ∈ symbols) →
      List.Forall₂ (· ∈ ·) chosen (List.replicate chosen.length symbols) := by
    intro chosen among
    induction chosen with
    | nil => exact .nil
    | cons symbol rest ih =>
        obtain ⟨here, inRest⟩ := List.forall_mem_cons.mp among
        exact .cons here (ih inRest)
  refine List.mem_flatMap.mpr ⟨index, List.mem_finRange index, List.mem_map.mpr ⟨chosen, ?_, rfl⟩⟩
  rw [List.mem_sections, ← length]
  exact each chosen among

/-- How often definitions may still come under each choice of certain symbols. -/
def Scope.room (program : ResolvedProgram) (depth : Nat) (symbols : List Symbol)
    (scope : Scope) : Nat :=
  ((program.choices symbols).map fun (index, chosen) =>
    depth + 1 - scope.recursions index chosen.length chosen).sum

theorem Scope.recursions_cons (index universal : Nat) (binding : List Symbol)
    {application : Application}
    (applications : inner.applications = application :: outer.applications) :
    inner.recursions index universal binding = outer.recursions index universal binding +
      if application.definition = index ∧
        application.binding.take universal = binding.take universal then 1 else 0 := by
  unfold recursions
  rw [applications, List.countP_cons]
  simp only [decide_eq_true_eq]

theorem Scope.recursions_take (scope : Scope) (index : Nat) {universal : Nat}
    {binding : List Symbol} (enough : universal ≤ binding.length) :
    scope.recursions index (binding.take universal).length (binding.take universal) =
      scope.recursions index universal binding := by
  unfold recursions
  rw [List.length_take, Nat.min_eq_left enough, List.take_take, Nat.min_self]

/-- One more body around leaves no more room. -/
theorem Scope.room_le {application : Application}
    (applications : inner.applications = application :: outer.applications) :
    inner.room program depth symbols ≤ outer.room program depth symbols := by
  refine List.sum_le_sum fun choice _ => Nat.sub_le_sub_left ?_ _
  rw [recursions_cons _ _ _ applications]
  exact Nat.le_add_right _ _

/-- A definition that comes under a choice once more leaves less room. -/
theorem Scope.room_lt {binding : List Symbol}
    (applications : inner.applications = ⟨callee, binding⟩ :: outer.applications)
    (enough : (program.definition callee).universal.length ≤ binding.length)
    (among : ∀ symbol ∈ binding.take (program.definition callee).universal.length,
      symbol ∈ symbols)
    (few : outer.recursions callee (program.definition callee).universal.length binding ≤ depth) :
    inner.room program depth symbols < outer.room program depth symbols := by
  have length : (binding.take (program.definition callee).universal.length).length =
      (program.definition callee).universal.length := by
    rw [List.length_take, Nat.min_eq_left enough]
  have chosen := ResolvedProgram.mem_choices length among
  refine List.sum_lt_sum _ _ (fun choice _ => Nat.sub_le_sub_left ?_ _) ⟨_, chosen, ?_⟩
  · rw [recursions_cons _ _ _ applications]
    exact Nat.le_add_right _ _
  · dsimp only
    rw [inner.recursions_take _ enough, outer.recursions_take _ enough,
      recursions_cons _ _ _ applications, if_pos ⟨rfl, rfl⟩]
    omega

namespace ResolvedProgram

namespace Descent

variable {descent : program.Descent} {scopes : Nat → Scope} {start step : Nat}

/-- What is bound are as many symbols as the definition has parameters. -/
theorem length_arguments (sound : program.Sound) (descent : program.Descent) (step : Nat) :
    (descent.arguments step).length = (descent.parameters (step + 1)).length := by
  obtain ⟨use, member, target⟩ := descent.calls step
  have fits := (sound _ (List.get_mem program.definitions _)).uses_fit use member
  rw [ResolvedUse.Fits, target] at fits
  obtain ⟨body, found, length, -⟩ := fits
  obtain ⟨below, rfl⟩ := List.getElem?_eq_some_iff.mp found
  exact length

theorem Unfolds.room_le (unfolds : descent.Unfolds depth scopes) {later : Nat}
    (le : step ≤ later) :
    (scopes later).room program depth symbols ≤ (scopes step).room program depth symbols := by
  induction later, le using Nat.le_induction with
  | base => exact Nat.le_refl _
  | succ later _ ih => exact (Scope.room_le (unfolds.enters later).applications).trans ih

/-- A definition that is not renewed since a step leaves less room for the symbols at hand there. -/
theorem Unfolds.room_lt (sound : program.Sound) (unfolds : descent.Unfolds depth scopes)
    (le : start ≤ step) (same : ¬ descent.Renewed start (step + 1)) :
    (scopes (step + 1)).room program depth ((scopes start).known program) <
      (scopes step).room program depth ((scopes start).known program) := by
  have enters := unfolds.enters step
  refine Scope.room_lt enters.applications ?_ ?_ enters.few
  · obtain ⟨number, binding⟩ := enters.binding
    rw [binding, Unfolding.length_bindArguments, descent.length_arguments sound]
    exact descent.universal_le (step + 1)
  · intro symbol member
    obtain ⟨position, found⟩ := List.getElem?_of_mem member
    have below := (List.getElem?_eq_some_iff.mp found).1
    rw [List.length_take, Nat.lt_min] at below
    rw [List.getElem?_take_of_lt below.1] at found
    exact (unfolds.recent_or_mem (Nat.le_succ_of_le le) found).resolve_left fun recent =>
      same ⟨position, below.1, recent⟩

/-- The descent that bodies make renews, for otherwise no room would be left. -/
theorem Unfolds.renews (sound : program.Sound) (unfolds : descent.Unfolds depth scopes) :
    descent.Renews := by
  intro start
  by_contra often
  simp only [not_exists, not_forall] at often
  have endless : ∀ room step, start ≤ step →
      (scopes step).room program depth ((scopes start).known program) ≠ room := by
    intro room
    induction room using Nat.strongRecOn with
    | ind room ih =>
        rintro step le rfl
        obtain ⟨later, leLater, same⟩ := often (step + 1)
        obtain ⟨before, rfl⟩ : ∃ before, later = before + 1 := ⟨later - 1, by omega⟩
        have onward : step ≤ before := Nat.le_of_succ_le_succ leLater
        have less := Nat.lt_of_lt_of_le (unfolds.room_lt sound (le.trans onward) same)
          (unfolds.room_le onward)
        exact ih _ less (before + 1) (Nat.le_succ_of_le (le.trans onward)) rfl
  exact endless _ start (Nat.le_refl start) rfl

end Descent

/-- Below a root where recursion settles, bodies lie in one another only finitely often. -/
theorem Settles.acc {root : program.Index} (settles : program.Settles root)
    (sound : program.Sound) {scope : Scope} (body : scope.body = program.definition root) :
    Acc (Scope.Inside program depth) scope := by
  by_contra endless
  obtain ⟨descent, scopes, same, unfolds⟩ := Descent.exists_unfolds body endless
  exact settles descent same (unfolds.renews sound)

end ResolvedProgram

/-! ## Listings -/

theorem Scope.exists_becomeAll (scope : Scope) {uses : List ResolvedUse}
    (fit : ∀ use ∈ uses, use.Fits program) (number : Nat) :
    ∃ outcomes next, scope.becomeAll program depth number uses = some (outcomes, next) := by
  induction uses generalizing number with
  | nil => exact ⟨[], number, rfl⟩
  | cons use rest ih =>
      obtain ⟨here, inRest⟩ := List.forall_mem_cons.mp fit
      have become : ∃ outcome middle,
          scope.become program depth number use = some (outcome, middle) := by
        unfold become
        rw [ResolvedUse.Fits] at here
        split
        · exact ⟨_, _, rfl⟩
        · rename_i target
          rw [target] at here
          obtain ⟨body, found, -⟩ := here
          rw [found]
          exact ⟨_, _, rfl⟩
      obtain ⟨outcome, middle, first⟩ := become
      obtain ⟨others, next, later⟩ := ih inRest middle
      exact ⟨_, next, Unfolding.becomeAll_cons_eq_some.mpr
        ⟨outcome, middle, others, first, later, rfl⟩⟩

/-- The bodies among what the uses of a body become lie inside it. -/
theorem Scope.inside_of_becomeAll {scope : Scope} {number next : Nat} {outcomes : List Outcome}
    (become : scope.becomeAll program depth number scope.body.uses = some (outcomes, next)) :
    ∀ inner ∈ scopesOf outcomes, Scope.Inside program depth inner scope := by
  intro inner member
  obtain ⟨outcome, listed, same⟩ := List.mem_filterMap.mp member
  cases outcome with
  | node node => cases same
  | body scope =>
      cases same
      obtain ⟨index, found⟩ := List.getElem?_of_mem listed
      obtain ⟨use, before, after, hit, become⟩ := (becomeAll_getElem? become).2 index _ found
      exact ⟨use, List.mem_of_getElem? hit, before, after, become⟩

/-- If each scope has a listing under some nesting, all have under one. -/
theorem Listing.exists_ofScopes {scopes : List Scope}
    (each : ∀ scope ∈ scopes, ∀ number, ∃ nesting listing,
      scope.unfold program depth nesting number = some listing) (number : Nat) :
    ∃ nesting listing,
      Listing.ofScopes (Scope.unfold program depth nesting) scopes number = some listing := by
  induction scopes generalizing number with
  | nil => exact ⟨0, .empty number, rfl⟩
  | cons scope rest ih =>
      obtain ⟨here, inRest⟩ := List.forall_mem_cons.mp each
      obtain ⟨nesting, first, hfirst⟩ := here number
      obtain ⟨later, others, hlater⟩ := ih inRest first.next
      refine ⟨max nesting later, _, ofScopes_cons_eq_some.mpr ⟨first, others, ?_, ?_, rfl⟩⟩
      · exact Scope.unfold_mono (Nat.le_max_left _ _) hfirst
      · exact ofScopes_mono (fun _ _ _ => Scope.unfold_mono (Nat.le_max_right _ _)) hlater

/-- A body inside which bodies lie in one another only finitely often has a listing. -/
theorem Scope.exists_unfold (sound : program.Sound) {scope : Scope}
    (acc : Acc (Scope.Inside program depth) scope) (known : scope.body ∈ program.definitions)
    (number : Nat) :
    ∃ nesting listing, scope.unfold program depth nesting number = some listing := by
  induction acc generalizing number with
  | intro scope _ ih =>
      obtain ⟨outcomes, next, become⟩ := scope.exists_becomeAll (sound _ known).uses_fit number
      have inner : ∀ inner ∈ scopesOf outcomes, ∀ number, ∃ nesting listing,
          inner.unfold program depth nesting number = some listing := by
        intro inner member
        exact ih inner (inside_of_becomeAll become inner member)
          (body_mem_of_becomeAll become inner member)
      obtain ⟨nesting, listing, listed⟩ := Listing.exists_ofScopes inner next
      exact ⟨nesting + 1, _, unfold_succ_eq_some.mpr
        ⟨outcomes, next, listing, become, listed, rfl⟩⟩

end FlowDiagram

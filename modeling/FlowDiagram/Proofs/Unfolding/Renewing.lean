import FlowDiagram.Proofs.Unfolding.Deepening
import FlowDiagram.Proofs.Unfolding.Recurring
import Mathlib.Data.Finset.Lattice.Fold
import Mathlib.Data.Finite.Prod
import Mathlib.Data.Fintype.Pi
import Mathlib.Data.Fintype.Pigeonhole
import Mathlib.Order.Lattice.Nat
import Mathlib.Order.Monotone.Basic
import Mathlib.Tactic.Choose

/-!
# Recursion that renews

A descent that renews comes twice to the same definition with introduced symbols at the same
positions, and going round between the two makes a descent that renews again and again within so
many steps.  Along such a descent a definition lies in itself under the same universal symbols only
as often as there are steps between, so no larger depth cuts it off: its root has no listing.
-/

namespace FlowDiagram

/-- The most parameters that a definition of the program has. -/
def ResolvedProgram.width (program : ResolvedProgram) : Nat :=
  Finset.univ.sup fun index : program.Index => (program.definition index).parameters.length

theorem ResolvedProgram.length_parameters_le {program : ResolvedProgram} (index : program.Index) :
    (program.definition index).parameters.length ≤ program.width :=
  Finset.le_sup (f := fun index => (program.definition index).parameters.length)
    (Finset.mem_univ index)

namespace ResolvedProgram.Descent

variable {program : ResolvedProgram} {descent : program.Descent} {start first period : Nat}

/-- At each step there is a universal symbol introduced no more than so many steps before. -/
def RenewsWithin (descent : program.Descent) (lag : Nat) : Prop :=
  ∀ step, descent.Renewed step (step + lag)

theorem recent_succ {step position : Nat} :
    descent.Recent start (step + 1) position ↔
      start ≤ step ∧ descent.Introduces step position ∨
        ∃ source, descent.Passes step source position ∧ descent.Recent start step source := by
  constructor
  · rintro (⟨late, introduces⟩ | ⟨passes, recent⟩)
    · exact .inl ⟨late, introduces⟩
    · exact .inr ⟨_, passes, recent⟩
  · rintro (⟨late, introduces⟩ | ⟨source, passes, recent⟩)
    · exact .introduced late introduces
    · exact .passed passes recent

theorem Passes.lt {step source position : Nat} (passes : descent.Passes step source position) :
    source < (descent.parameters step).length := by
  obtain ⟨-, symbol, parameter, -, rfl⟩ := passes
  exact List.idxOf_lt_length_of_mem parameter

/-! ## Going round -/

/-- The step that one is at who goes round from the end of a period to its first step. -/
def round (first period step : Nat) : Nat :=
  if step < first then step else first + (step - first) % period

theorem round_of_lt (first rounds : Nat) {more : Nat} (lt : more < period) :
    round first period (first + rounds * period + more) = first + more := by
  unfold round
  rw [if_neg (by omega), Nat.add_assoc, Nat.add_sub_cancel_left, Nat.mul_comm, Nat.mul_add_mod,
    Nat.mod_eq_of_lt lt]

theorem round_zero (first period : Nat) : round first period 0 = 0 := by
  unfold round
  split
  · rfl
  · rw [Nat.zero_sub, Nat.zero_mod]
    omega

theorem round_succ (positive : 0 < period) (step : Nat) :
    round first period (step + 1) = round first period step + 1 ∨
      round first period step + 1 = first + period ∧ round first period (step + 1) = first := by
  unfold round
  have within := Nat.mod_lt (step - first) positive
  rcases Nat.lt_trichotomy (step + 1) first with before | rfl | after
  · rw [if_pos before, if_pos (by omega)]
    exact .inl rfl
  · rw [if_neg (Nat.lt_irrefl _), if_pos (Nat.lt_succ_self step), Nat.sub_self, Nat.zero_mod]
    exact .inl rfl
  · rw [if_neg (by omega), if_neg (by omega), Nat.sub_add_comm (by omega), ← Nat.mod_add_mod]
    by_cases last : (step - first) % period + 1 = period
    · rw [last, Nat.mod_self]
      exact .inr ⟨by omega, rfl⟩
    · rw [Nat.mod_eq_of_lt (by omega)]
      exact .inl rfl

theorem index_round (positive : 0 < period)
    (same : descent.index (first + period) = descent.index first) (step : Nat) :
    descent.index (round first period (step + 1)) =
      descent.index (round first period step + 1) := by
  rcases round_succ positive step with onward | ⟨last, back⟩
  · rw [onward]
  · rw [last, back, same]

/-- The descent that goes round between two steps with the same definition. -/
def loop (descent : program.Descent) (positive : 0 < period)
    (same : descent.index (first + period) = descent.index first) : program.Descent where
  index step := descent.index (round first period step)
  arguments step := descent.arguments (round first period step)
  fresh step := descent.fresh (round first period step)
  calls step := by
    rw [index_round positive same]
    exact descent.calls _

variable {positive : 0 < period} {same : descent.index (first + period) = descent.index first}

theorem universal_loop (step : Nat) : (descent.loop positive same).universal (step + 1) =
    descent.universal (round first period step + 1) := by
  simp only [universal, loop, index_round positive same]

theorem introduces_loop {step position : Nat} :
    (descent.loop positive same).Introduces step position ↔
      descent.Introduces (round first period step) position := by
  unfold Introduces
  rw [universal_loop]
  rfl

theorem passes_loop {step source position : Nat} :
    (descent.loop positive same).Passes step source position ↔
      descent.Passes (round first period step) source position := by
  unfold Passes
  rw [universal_loop]
  rfl

/-- In each round a symbol is as recent as in the first, if it is at the beginning of the round. -/
theorem Recent.loop {rounds earlier more position : Nat}
    (le : earlier ≤ first + rounds * period)
    (begun : ∀ position < (descent.parameters first).length,
      descent.Recent start first position →
        (descent.loop positive same).Recent earlier (first + rounds * period) position)
    (within : more ≤ period) (below : position < (descent.parameters (first + more)).length)
    (recent : descent.Recent start (first + more) position) :
    (descent.loop positive same).Recent earlier (first + rounds * period + more) position := by
  induction more generalizing position with
  | zero => exact begun position below recent
  | succ more ih =>
      have here := @round_of_lt period first rounds more within
      rw [← Nat.add_assoc] at recent ⊢
      rcases recent_succ.mp recent with ⟨late, introduces⟩ | ⟨source, passes, recent⟩
      · refine .introduced (le.trans (Nat.le_add_right _ _)) (introduces_loop.mpr ?_)
        rwa [here]
      · refine .passed (passes_loop.mpr ?_) (ih (by omega) passes.lt recent)
        rwa [here]

/-- So each round ends with symbols introduced in it wherever the first begins with recent ones. -/
theorem Recent.loop_end
    (back : ∀ position < (descent.parameters first).length, descent.Recent start first position →
      descent.Recent first (first + period) position) (rounds : Nat) {position : Nat}
    (below : position < (descent.parameters first).length)
    (recent : descent.Recent start first position) :
    (descent.loop positive same).Recent (first + rounds * period) (first + (rounds + 1) * period)
      position := by
  have recurs := back position below recent
  rw [parameters, ← same] at below
  rw [Nat.add_one_mul, ← Nat.add_assoc]
  exact recurs.loop (Nat.le_refl _)
    (fun _ _ impossible => absurd impossible.lt (Nat.lt_irrefl first)) (Nat.le_refl period) below

/--
Going round renews within some steps if the definitions of the period are renewed since some step,
and introduced symbols are at the end of the period wherever those are at its beginning.
-/
theorem loop_renewsWithin (renewed : ∀ step, first ≤ step → descent.Renewed start step)
    (back : ∀ position < (descent.parameters first).length, descent.Recent start first position →
      descent.Recent first (first + period) position) :
    (descent.loop positive same).RenewsWithin (first + 2 * period) := by
  intro step
  obtain ⟨rounds, more, within, rfl⟩ : ∃ rounds more, more < period ∧
      step = rounds * period + more :=
    ⟨step / period, step % period, Nat.mod_lt step positive, (Nat.div_add_mod' step period).symm⟩
  have reached : rounds * period + more + (first + 2 * period) =
      first + (rounds + 1 + 1) * period + more := by
    simp only [Nat.add_mul]
    omega
  rw [reached]
  obtain ⟨position, universal, recent⟩ := renewed (first + more) (Nat.le_add_right first more)
  have below := Nat.lt_of_lt_of_le universal (descent.universal_le (first + more))
  have last : (descent.loop positive same).Recent (first + (rounds + 1) * period)
      (first + (rounds + 1 + 1) * period + more) position := by
    refine recent.loop ?_ (fun _ => Recent.loop_end back (rounds + 1)) within.le below
    rw [Nat.add_one_mul (rounds + 1)]
    omega
  refine ⟨position, ?_, last.mono ?_⟩
  · change position < descent.universal (round first period _)
    rwa [round_of_lt first _ within]
  · rw [Nat.add_one_mul]
    omega

/-- Steps on the way of a descent that renews, each since the one before. -/
theorem Renews.exists_marks (renews : descent.Renews) :
    ∃ mark : Nat → Nat, StrictMono mark ∧
      ∀ number step, mark (number + 1) ≤ step → descent.Renewed (mark number) step := by
  choose later renewed using renews
  refine ⟨Nat.rec 0 fun _ step => max (step + 1) (later step),
    strictMono_nat_of_lt_succ fun _ => Nat.le_max_left _ _, ?_⟩
  intro number step le
  exact renewed _ step ((Nat.le_max_right _ _).trans le)

/-- The definition at a step, with the positions of the symbols introduced since `start`. -/
def place (descent : program.Descent) (start step : Nat) :
    program.Index × (Fin program.width → Prop) :=
  (descent.index step, fun position => descent.Recent start step position)

/-- A descent that renews comes back to a definition with introduced symbols at the same places. -/
theorem Renews.exists_period (renews : descent.Renews) :
    ∃ start first period, 0 < period ∧ descent.index (first + period) = descent.index first ∧
      (∀ step, first ≤ step → descent.Renewed start step) ∧
      ∀ position < (descent.parameters first).length, descent.Recent start first position →
        descent.Recent first (first + period) position := by
  obtain ⟨mark, increasing, renewed⟩ := renews.exists_marks
  obtain ⟨first, last, lt, same⟩ : ∃ first last, first < last ∧
      descent.place (mark first) (mark (first + 1)) =
        descent.place (mark last) (mark (last + 1)) := by
    -- there are infinitely many marks and finitely many places
    obtain ⟨first, last, other, same⟩ := Finite.exists_ne_map_eq_of_infinite fun number =>
      descent.place (mark number) (mark (number + 1))
    rcases Nat.lt_or_gt_of_ne other with lt | lt
    · exact ⟨first, last, lt, same⟩
    · exact ⟨last, first, lt, same.symm⟩
  obtain ⟨sameIndex, samePlaces⟩ := Prod.mk.inj same
  obtain ⟨period, back⟩ := Nat.exists_eq_add_of_lt (increasing (Nat.succ_lt_succ lt))
  refine ⟨mark first, mark (first + 1), period + 1, Nat.succ_pos period, ?_, renewed first, ?_⟩
  · rw [← Nat.add_assoc, ← back, sameIndex]
  · intro position below recent
    have place := congrFun samePlaces
      ⟨position, Nat.lt_of_lt_of_le below (length_parameters_le _)⟩
    rw [← Nat.add_assoc, ← back]
    exact Recent.mono (increasing.monotone lt) (place.mp recent)

/-- A descent that renews is matched by one that does so within a number of steps. -/
theorem Renews.exists_renewsWithin (renews : descent.Renews) :
    ∃ (steady : program.Descent) (lag : Nat), steady.index 0 = descent.index 0 ∧
      steady.RenewsWithin lag := by
  obtain ⟨start, first, period, positive, same, renewed, back⟩ := renews.exists_period
  refine ⟨descent.loop positive same, first + 2 * period, ?_, loop_renewsWithin renewed back⟩
  exact congrArg descent.index (round_zero first period)

end ResolvedProgram.Descent

/-! ## No listing -/

variable {program : ResolvedProgram} {depth : Nat}

/-- Each use becomes its outcome between the introductions before and after all of them. -/
theorem Scope.exists_become {scope : Scope} {number next : Nat} {uses : List ResolvedUse}
    {outcomes : List Outcome}
    (become : scope.becomeAll program depth number uses = some (outcomes, next))
    {use : ResolvedUse} (member : use ∈ uses) :
    ∃ outcome ∈ outcomes, ∃ before after, number ≤ before ∧ after ≤ next ∧
      scope.become program depth before use = some (outcome, after) := by
  induction uses generalizing number outcomes with
  | nil => cases member
  | cons first rest ih =>
      obtain ⟨outcome, middle, others, hfirst, hrest, rfl⟩ :=
        Unfolding.becomeAll_cons_eq_some.mp become
      rcases List.mem_cons.mp member with rfl | later
      · exact ⟨outcome, List.mem_cons_self, number, middle, Nat.le_refl number,
          (becomeAll_under hrest).1, hfirst⟩
      · obtain ⟨found, among, before, after, le, leNext, hfound⟩ := ih hrest later
        exact ⟨found, List.mem_cons_of_mem outcome among, before, after,
          (become_le hfirst).trans le, leNext, hfound⟩

/-- Each of the scopes of a listing has its own. -/
theorem Listing.exists_of_ofScopes {nesting number : Nat} {scopes : List Scope}
    {listing : Listing}
    (unfolded : ofScopes (Scope.unfold program depth nesting) scopes number = some listing)
    {scope : Scope} (member : scope ∈ scopes) :
    ∃ before inner, number ≤ before ∧ scope.unfold program depth nesting before = some inner := by
  induction scopes generalizing number listing with
  | nil => cases member
  | cons first rest ih =>
      obtain ⟨inner, later, hfirst, hlater, -⟩ := ofScopes_cons_eq_some.mp unfolded
      rcases List.mem_cons.mp member with rfl | other
      · exact ⟨number, inner, Nat.le_refl number, hfirst⟩
      · obtain ⟨before, found, le, hfound⟩ := ih hlater other
        exact ⟨before, found, (Scope.unfold_under hfirst).1.trans le, hfound⟩

namespace ResolvedProgram.Descent

variable {descent : program.Descent} {lag step number : Nat} {scope : Scope}

/--
A scope is that of the step of a descent: what has been introduced since a step is in no body that
was there before.
-/
structure Reaches (descent : program.Descent) (step number : Nat) (scope : Scope) : Prop where
  body : scope.body = program.definition (descent.index step)
  below : scope.Below number
  length : scope.applications.length = step + 1
  recent : ∀ start position, descent.Recent start step position →
    ∃ symbol, scope.binding[position]? = some symbol ∧
      ∀ application ∈ scope.applications.drop (step - start), symbol ∉ application.binding

theorem Reaches.mono {larger : Nat} (le : number ≤ larger)
    (reaches : descent.Reaches step number scope) : descent.Reaches step larger scope :=
  { reaches with below := reaches.below.mono le }

theorem reaches_root (written_ : program.IsWritten) (descent : program.Descent) :
    descent.Reaches 0 1 (.ofRoot (descent.index 0) (program.definition (descent.index 0))
      (descent.parameters 0)) where
  body := rfl
  below := by
    intro application member symbol parameter
    obtain rfl := List.mem_singleton.mp member
    have known := List.get_mem program.definitions (descent.index 0)
    exact ((written_ _ known).parameters symbol parameter).below 1
  length := rfl
  recent := fun _ _ recent => absurd recent.lt (Nat.not_lt_zero _)

theorem isWritten_arguments (written_ : program.IsWritten) (descent : program.Descent)
    (step : Nat) : ∀ symbol ∈ descent.arguments step, symbol.IsWritten := by
  obtain ⟨use, member, target⟩ := descent.calls step
  have known := List.get_mem program.definitions (descent.index step)
  have use_ := (written_ _ known).uses use member
  rwa [ResolvedUse.IsWritten, target] at use_

/-- The use at a step takes a scope of that step to one of the next. -/
theorem Reaches.inner (written_ : program.IsWritten)
    (reaches : descent.Reaches step number scope) (use : ResolvedUse) (level : Nat) :
    let symbols := bindArguments scope.bind number (descent.universal (step + 1))
      (descent.fresh step) (descent.arguments step)
    descent.Reaches (step + 1)
      (nextIntroduction number (descent.universal (step + 1)) (descent.fresh step)
        (descent.arguments step))
      (scope.inner use (descent.index (step + 1)) (program.definition (descent.index (step + 1)))
        symbols level) where
  body := rfl
  below := by
    intro application member symbol held
    rcases List.mem_cons.mp member with rfl | outer
    · exact reaches.below.bindArguments _ _ (descent.isWritten_arguments written_ step) symbol held
    · exact (reaches.below application outer symbol held).mono (le_nextIntroduction ..)
  length := congrArg Nat.succ reaches.length
  recent := by
    intro start position recent
    have earlier := Nat.le_of_lt_succ recent.lt
    simp only [Scope.inner, Scope.binding, List.head?_cons, Option.map_some, Option.getD_some,
      Nat.succ_sub earlier, List.drop_succ_cons, getElem?_bindArguments]
    rcases recent_succ.mp recent with ⟨late, fresh, existential, within⟩ | ⟨source, passes, recent⟩
    · have writtenName := descent.isWritten_arguments written_ step _ (List.getElem_mem within)
      refine ⟨.fresh (descent.arguments step)[position] number, ?_, ?_⟩
      · rw [List.getElem?_eq_getElem within, Option.map_some, if_pos ⟨fresh, existential⟩]
      · intro application member held
        have old := reaches.below application (List.mem_of_mem_drop member) _ held
        exact Nat.lt_irrefl number (old number (Symbol.number?_fresh writtenName number))
    · obtain ⟨passed, argument, parameter, found, rfl⟩ := passes
      obtain ⟨symbol, bound, absent⟩ := reaches.recent start _ recent
      refine ⟨symbol, ?_, absent⟩
      rw [found, Option.map_some, if_neg passed, Scope.bind, reaches.body,
        ResolvedDefinition.bind_of_getElem? parameter bound]

/-- Only the last bodies can be under the same universal symbols, for one of these is recent. -/
theorem Reaches.recursions_le (renews : descent.RenewsWithin lag)
    (reaches : descent.Reaches step number scope) :
    scope.recursions (descent.index step) (descent.universal step) scope.binding ≤ lag := by
  have old : ∀ application ∈ scope.applications.drop lag,
      application.binding.take (descent.universal step) ≠
        scope.binding.take (descent.universal step) := by
    intro application member same
    have early : lag ≤ step := by
      have some_ := List.length_pos_of_mem member
      rw [List.length_drop, reaches.length] at some_
      omega
    obtain ⟨start, rfl⟩ := Nat.exists_eq_add_of_le' early
    obtain ⟨position, universal, recent⟩ := renews start
    obtain ⟨symbol, bound, absent⟩ := reaches.recent start position recent
    rw [Nat.add_sub_cancel_left] at absent
    have held : symbol ∈ scope.binding.take (descent.universal (start + lag)) :=
      List.mem_of_getElem? ((List.getElem?_take_of_lt universal).trans bound)
    rw [← same] at held
    exact absent application member (List.mem_of_mem_take held)
  unfold Scope.recursions
  rw [← List.take_append_drop lag scope.applications, List.countP_append,
    List.countP_eq_zero.mpr fun application member counted =>
      old application member (of_decide_eq_true counted).2]
  exact List.countP_le_length.trans (List.length_take_le ..)

/-- What is used at the step becomes a body if the depth is no smaller than the lag. -/
theorem RenewsWithin.become (written_ : program.IsWritten) (renews : descent.RenewsWithin lag)
    (le : lag ≤ depth + 1) (reaches : descent.Reaches step number scope) {use : ResolvedUse}
    (target : use.target = .definition (descent.index (step + 1)) (descent.arguments step)
      (descent.fresh step)) {outcome : Outcome} {next : Nat}
    (become : scope.become program depth number use = some (outcome, next)) :
    ∃ inner, outcome = .body inner ∧ descent.Reaches (step + 1) next inner := by
  have found : program.definitions[(descent.index (step + 1) : Nat)]? =
      some (program.definition (descent.index (step + 1))) := List.getElem?_eq_getElem _
  simp only [Scope.become, target, found, Option.map_some, Option.some.injEq, Prod.mk.injEq]
    at become
  obtain ⟨rfl, rfl⟩ := become
  have few := (reaches.inner written_ use 0).recursions_le renews
  unfold Scope.recursions at few
  rw [Scope.inner, List.countP_cons_of_pos (by simp [Scope.binding])] at few
  rw [if_neg]
  · exact ⟨_, rfl, reaches.inner written_ use _⟩
  · exact Nat.not_lt.mpr (Nat.le_of_succ_le_succ (few.trans le))

/-- No larger depth cuts the descent off. -/
theorem RenewsWithin.unfold_eq_none (written_ : program.IsWritten)
    (renews : descent.RenewsWithin lag) (le : lag ≤ depth + 1)
    (reaches : descent.Reaches step number scope) (nesting : Nat) :
    scope.unfold program depth nesting number = none := by
  induction nesting generalizing step number scope with
  | zero => rfl
  | succ nesting ih =>
      refine Option.eq_none_iff_forall_ne_some.mpr fun listing listed => ?_
      -- a listing would hold one of the body that the use at this step becomes
      obtain ⟨outcomes, next, within, all, listedWithin, -⟩ := Scope.unfold_succ_eq_some.mp listed
      obtain ⟨use, member, target⟩ := descent.calls step
      obtain ⟨outcome, among, before, after, leBefore, leNext, become⟩ :=
        Scope.exists_become all (reaches.body ▸ member)
      obtain ⟨inner, rfl, reachesInner⟩ :=
        renews.become written_ le (reaches.mono leBefore) target become
      have held : inner ∈ scopesOf outcomes := List.mem_filterMap.mpr ⟨_, among, rfl⟩
      obtain ⟨later, listedInner, leLater, found⟩ := Listing.exists_of_ofScopes listedWithin held
      rw [ih (reachesInner.mono (leNext.trans leLater))] at found
      cases found

end ResolvedProgram.Descent

end FlowDiagram

import FlowDiagram.Proofs.Expansion.Acyclic
import FlowDiagram.Proofs.Expansion.Reaching
import FlowDiagram.Proofs.Expansion.Truncation
import FlowDiagram.Proofs.Text.Order
import Mathlib.Data.List.Perm.Subperm

/-!
# What a root leads to

There are two ways to find the definitions that a root leads to: a search along uses, in which each
definition has its turn once, and unfolding, which goes into bodies up to a depth.  Both find the
same.  A depth cuts off only uses of definitions that are around it already, so it hides none.
-/

namespace FlowDiagram

namespace ResolvedProgram

variable {program : ResolvedProgram} {root : program.Index}

/-- A chain of uses leads from a root to the definition of this number. -/
def Leads (program : ResolvedProgram) (root : program.Index) (number : Nat) : Prop :=
  ∃ index : program.Index, (index : Nat) = number ∧ Relation.ReflTransGen program.Calls root index

theorem leads_index {index : program.Index} :
    program.Leads root index ↔ Relation.ReflTransGen program.Calls root index := by
  constructor
  · rintro ⟨other, same, leads⟩
    exact Fin.ext same ▸ leads
  · intro leads
    exact ⟨index, rfl, leads⟩

/-! ## Searching along uses -/

theorem mem_callees_iff {caller : program.Index} {number : Nat} :
    number ∈ program.callees caller ↔
      ∃ use ∈ (program.definition caller).uses, use.callee? = some number := by
  have found : program.definitions[(caller : Nat)]? = some (program.definition caller) :=
    List.getElem?_eq_getElem caller.isLt
  simp only [callees, found, List.mem_filterMap]
  refine exists_congr fun use => and_congr_right fun _ => ?_
  unfold ResolvedUse.callee?
  cases use.target <;> rfl

/-- What a definition of a sound program uses is there. -/
theorem exists_calls_of_mem_callees (sound : program.Sound) {caller : program.Index} {number : Nat}
    (member : number ∈ program.callees caller) :
    ∃ callee : program.Index, (callee : Nat) = number ∧ program.Calls caller callee := by
  obtain ⟨use, used, refers⟩ := mem_callees_iff.mp member
  obtain ⟨arguments, fresh, target⟩ := ResolvedUse.refers_iff.mpr refers
  have fits := (sound _ (definition_mem caller)).uses_fit use used
  rw [ResolvedUse.Fits, target] at fits
  obtain ⟨callee, found, -⟩ := fits
  exact ⟨⟨number, (List.getElem?_eq_some_iff.mp found).1⟩, rfl, use, used, arguments, fresh, target⟩

theorem mem_callees_of_calls {caller callee : program.Index}
    (calls : program.Calls caller callee) : (callee : Nat) ∈ program.callees caller :=
  mem_callees_iff.mpr (calls_iff.mp calls)

/--
A search that has seen some definitions, of which some are pending, and may take so many turns more.
-/
structure Searching (program : ResolvedProgram) (root : program.Index) (steps : Nat)
    (pending seen : List Nat) : Prop where
  distinct : seen.Nodup
  begun : (root : Nat) ∈ seen
  led : ∀ number ∈ seen, program.Leads root number
  open_ : ∀ number ∈ pending, number ∈ seen
  closed : ∀ caller callee : program.Index, (caller : Nat) ∈ seen → (caller : Nat) ∉ pending →
    program.Calls caller callee → (callee : Nat) ∈ seen
  enough : program.definitions.length + pending.length ≤ steps + seen.length

namespace Searching

variable {steps : Nat} {pending seen : List Nat}

theorem start (root : program.Index) :
    program.Searching root program.definitions.length [root] [root] where
  distinct := List.nodup_singleton _
  begun := List.mem_singleton_self _
  led _ member := List.mem_singleton.mp member ▸ leads_index.mpr .refl
  open_ _ member := member
  closed _ _ here outside := absurd here outside
  enough := Nat.le_refl _

/-- In a turn, what a pending definition uses is seen, and pending unless it has been seen. -/
theorem turn (sound : program.Sound) {number : Nat}
    (searching : program.Searching root (steps + 1) (number :: pending) seen) :
    program.Searching root steps
      (((program.callees number).filter (· ∉ seen)).eraseDups ++ pending)
      (((program.callees number).filter (· ∉ seen)).eraseDups ++ seen) := by
  obtain ⟨index, rfl, leads⟩ :=
    searching.led number (searching.open_ number List.mem_cons_self)
  have mem_fresh : ∀ other, other ∈ ((program.callees index).filter (· ∉ seen)).eraseDups ↔
      other ∈ program.callees index ∧ other ∉ seen := by
    simp [List.mem_eraseDups]
  constructor
  case distinct =>
    refine List.nodup_append.mpr ⟨nodup_eraseDups _, searching.distinct, ?_⟩
    rintro other isFresh old isSeen rfl
    exact ((mem_fresh other).mp isFresh).2 isSeen
  case begun => exact List.mem_append_right _ searching.begun
  case led =>
    intro other member
    rcases List.mem_append.mp member with fresh | old
    · have used := ((mem_fresh other).mp fresh).1
      obtain ⟨callee, rfl, calls⟩ := exists_calls_of_mem_callees sound used
      exact ⟨callee, rfl, leads.tail calls⟩
    · exact searching.led other old
  case open_ =>
    intro other member
    rcases List.mem_append.mp member with fresh | old
    · exact List.mem_append_left _ fresh
    · exact List.mem_append_right _ (searching.open_ other (List.mem_cons_of_mem _ old))
  case closed =>
    intro caller callee isSeen settled calls
    rw [List.mem_append, not_or] at settled
    have old := (List.mem_append.mp isSeen).resolve_left settled.1
    by_cases turned : caller = index
    · subst turned
      have used := mem_callees_of_calls calls
      by_cases known : (callee : Nat) ∈ seen
      · exact List.mem_append_right _ known
      · exact List.mem_append_left _ ((mem_fresh callee).mpr ⟨used, known⟩)
    · refine List.mem_append_right _ (searching.closed caller callee old ?_ calls)
      rw [List.mem_cons, not_or]
      exact ⟨fun same => turned (Fin.ext same), settled.2⟩
  case enough =>
    have before := searching.enough
    simp only [List.length_append, List.length_cons] at before ⊢
    omega

/-- A definition has its turn before the turns run out. -/
theorem pending_eq_nil (searching : program.Searching root 0 pending seen) : pending = [] := by
  have inside : seen ⊆ List.range program.definitions.length := by
    intro number member
    obtain ⟨index, rfl, -⟩ := searching.led number member
    exact List.mem_range.mpr index.isLt
  have few := (searching.distinct.subperm inside).length_le
  rw [List.length_range] at few
  have enough := searching.enough
  exact List.eq_nil_of_length_eq_zero (by omega)

/-- With nothing pending all has been seen. -/
theorem mem_seen_iff (searching : program.Searching root steps [] seen) {number : Nat} :
    number ∈ seen ↔ program.Leads root number := by
  refine ⟨searching.led number, ?_⟩
  rintro ⟨index, rfl, leads⟩
  induction leads with
  | refl => exact searching.begun
  | tail _ calls ih => exact searching.closed _ _ ih List.not_mem_nil calls

theorem mem_closure_iff (sound : program.Sound)
    (searching : program.Searching root steps pending seen) {number : Nat} :
    number ∈ program.closure steps pending seen ↔ program.Leads root number := by
  induction steps generalizing pending seen with
  | zero =>
      cases searching.pending_eq_nil
      exact searching.mem_seen_iff
  | succ steps ih =>
      cases pending with
      | nil => exact searching.mem_seen_iff
      | cons next rest => exact ih (searching.turn sound)

end Searching

/-- The search finds all that a root leads to, and nothing else. -/
theorem mem_reachable_iff (sound : program.Sound) {number : Nat} :
    number ∈ program.reachable root ↔ program.Leads root number :=
  (Searching.start root).mem_closure_iff sound

end ResolvedProgram

/-! ## Unfolding -/

namespace Unfolding

variable {program : ResolvedProgram} {root : program.Index} {depth : Nat} {binding : List Symbol}
  {pending : List Nat} {unfolding : Unfolding} {graph : PortGraph}

/-- The bodies around a body have been unfolded themselves. -/
theorem Traced.exists_around
    (traced : Traced program depth (ResolvedProgram.rootScope root binding) pending unfolding) :
    ∀ scope ∈ unfolding.scopes, ∀ application ∈ scope.applications,
      ∃ around ∈ unfolding.scopes,
        program.definitions[application.definition]? = some around.body := by
  have known : ∀ index : program.Index,
      program.definitions[(index : Nat)]? = some (program.definition index) :=
    fun index => List.getElem?_eq_getElem index.isLt
  refine traced.scope_induction ?_ ?_
  · intro application member
    obtain rfl := List.mem_singleton.mp member
    refine ⟨ResolvedProgram.rootScope root binding, ?_, known root⟩
    rw [traced.scopes_eq]
    exact List.mem_cons_self
  · intro outer _ above inner member inside application listed
    obtain ⟨callee, arguments, fresh, enters⟩ := inside.enters
    rw [enters.applications] at listed
    rcases List.mem_cons.mp listed with rfl | outside
    · exact ⟨inner, member, (known callee).trans (congrArg some enters.body.symm)⟩
    · exact above application outside

/-- What is used in a body that has been unfolded has been unfolded, there or around. -/
theorem Traced.exists_callee (sound : program.Sound)
    (traced : Traced program depth (ResolvedProgram.rootScope root binding) [] unfolding)
    {scope : Scope} (member : scope ∈ unfolding.scopes) {caller callee : program.Index}
    (body : scope.body = program.definition caller) (calls : program.Calls caller callee) :
    ∃ inner ∈ unfolding.scopes, inner.body = program.definition callee := by
  have known : program.definitions[(callee : Nat)]? = some (program.definition callee) :=
    List.getElem?_eq_getElem callee.isLt
  obtain ⟨use, used, arguments, fresh, target⟩ := calls
  obtain ⟨frame, listed, rfl⟩ := List.mem_map.mp member
  obtain ⟨number, found⟩ := Array.mem_iff_getElem?.mp (Array.mem_toList_iff.mp listed)
  rw [← body] at used
  obtain ⟨next, there⟩ := List.mem_iff_getElem?.mp used
  obtain ⟨part, placed, -⟩ := traced.part_of_use sound found List.not_mem_nil there
  cases part with
  | frame inner =>
      obtain ⟨outer, same, before, after, below, hused, become, hbelow, -⟩ :=
        traced.frame_of_part placed
      obtain ⟨houter, hsame⟩ := use?_eq_some_iff.mp hused
      cases found.symm.trans houter
      cases there.symm.trans hsame
      obtain ⟨-, index, _, _, again, entered⟩ := Scope.become_eq_body become
      cases target.symm.trans again
      have unfolded := Array.mem_toList_iff.mpr (Array.mem_of_getElem? hbelow)
      exact ⟨below.scope, List.mem_map_of_mem unfolded,
        Option.some.inj (entered.symm.trans known)⟩
  | node id =>
      -- it has been cut off, so it is around
      obtain ⟨outer, same, before, after, node, hused, become, -⟩ := traced.node_of_part placed
      obtain ⟨houter, hsame⟩ := use?_eq_some_iff.mp hused
      cases found.symm.trans houter
      cases there.symm.trans hsame
      cases Scope.becomes_of_become become with
      | primitive other => cases target.symm.trans other
      | truncated again _ _ many =>
          cases target.symm.trans again
          obtain ⟨application, around, repeats⟩ :=
            List.countP_pos_iff.mp (Nat.zero_lt_of_lt many)
          obtain ⟨inner, unfolded, entered⟩ := traced.exists_around _ member application around
          rw [(of_decide_eq_true repeats).1] at entered
          exact ⟨inner, unfolded, Option.some.inj (entered.symm.trans known)⟩

/-- All that the root leads to is unfolded, at every depth. -/
theorem Traced.exists_scope (sound : program.Sound)
    (traced : Traced program depth (ResolvedProgram.rootScope root binding) [] unfolding)
    {index : program.Index} (leads : Relation.ReflTransGen program.Calls root index) :
    ∃ scope ∈ unfolding.scopes, scope.body = program.definition index := by
  induction leads with
  | refl =>
      refine ⟨ResolvedProgram.rootScope root binding, ?_, rfl⟩
      rw [traced.scopes_eq]
      exact List.mem_cons_self
  | tail _ calls ih =>
      obtain ⟨scope, member, body⟩ := ih
      exact traced.exists_callee sound member body calls

/-- The instances below the root are of the other definitions that it leads to, and of itself. -/
theorem PlannedBy.exists_instance_iff (sound : program.Sound)
    (distinct : (program.definitions.map (·.name)).Nodup)
    (planned : unfolding.PlannedBy program depth (ResolvedProgram.rootScope root binding) binding
      graph) {index : program.Index} (other : index ≠ root) :
    (∃ unfolded ∈ graph.instances, unfolded.definition = (program.definition index).name) ↔
      Relation.ReflTransGen program.Calls root index := by
  have traced := planned.traced
  have bodies := planned.instances_eq
  constructor
  · rintro ⟨unfolded, member, named⟩
    have listed : unfolded ∈ unfolding.scopes.map Scope.toInstance :=
      bodies ▸ List.mem_cons_of_mem _ member
    obtain ⟨scope, known, rfl⟩ := List.mem_map.mp listed
    obtain ⟨same, led⟩ := traced.ledTo scope known
    have found : program.definitions[(same : Nat)]? = some scope.body :=
      (List.getElem?_eq_getElem same.isLt).trans (congrArg some led.body.symm)
    have equal : same = index := Fin.ext ((program.name_eq_iff distinct found index).mp named)
    exact equal ▸ led.reached
  · intro leads
    obtain ⟨scope, known, body⟩ := traced.exists_scope sound leads
    have listed : scope.toInstance ∈ graph.rootInstance :: graph.instances :=
      bodies ▸ List.mem_map_of_mem known
    rcases List.mem_cons.mp listed with top | below
    · have name : graph.root = (program.definition root).name :=
        congrArg GraphPlan.root planned.plan
      have same : (program.definition index).name = (program.definition root).name :=
        body ▸ (congrArg Instance.definition top).trans name
      have found : program.definitions[(index : Nat)]? = some (program.definition index) :=
        List.getElem?_eq_getElem index.isLt
      exact absurd (Fin.ext ((program.name_eq_iff distinct found root).mp same)) other
    · exact ⟨scope.toInstance, below, congrArg ResolvedDefinition.name body⟩

end Unfolding

/-! ## As it is written -/

namespace Program

variable {program : Program} {root index : program.resolved.Index} {top definition : Definition}

/-- Every use of a well-formed definition is bound. -/
theorem exists_bound_of_use (wellFormed : definition.WellFormed program) {use : Use}
    (member : use ∈ definition.uses) :
    ∃ bound ∈ (program.bound definition).uses,
      use.resolve program (Registry.ofProgram program).1 = .ok bound := by
  have fine : UsesWellFormed program definition.uses := ⟨wellFormed.instances, wellFormed.uses⟩
  have clean := (Instances.clean_or_told program definition.name.name definition.uses).resolve_right
    fun told => told.1 fine
  obtain ⟨number, inside, rfl⟩ := List.mem_iff_getElem.mp member
  have below := clean.uses.length_eq.symm ▸ inside
  have keeps := clean.uses.get below inside
  simp only [List.get_eq_getElem] at keeps
  obtain ⟨other, listed, resolves⟩ := use_of_bound (List.getElem_mem below)
  have same : other = definition.uses[number] :=
    List.inj_on_of_nodup_map wellFormed.instances listed member
      ((Use.resolve_keeps resolves).name.symm.trans keeps.name)
  exact ⟨_, List.getElem_mem below, same ▸ resolves⟩

/-- A definition named by a bound use is called under the number where it stands. -/
theorem target_of_resolve {use : Use} {bound : ResolvedUse} {callee : Definition}
    (resolves : use.resolve program (Registry.ofProgram program).1 = .ok bound)
    (names : program.callee? use = some callee) :
    ∃ number arguments fresh, bound.target = .definition number arguments fresh ∧
      program.definitions[number]? = some callee := by
  unfold callee? at names
  split at names
  · rename_i name arguments box
    obtain ⟨number, listed, same⟩ := use.resolveDefinition_eq arguments names
    simp only [Use.resolve, box, same] at resolves
    obtain ⟨⟨symbols, fresh⟩, -, ports⟩ := exists_ok_of_bind resolves
    exact ⟨number, symbols, fresh, (Use.bindPorts_ok ports).1, listed⟩
  · cases names

theorem definition_of_found (found : program.definitions[(index : Nat)]? = some definition) :
    program.resolved.definition index = program.bound definition := by
  have listed := program.resolved_getElem? index
  rw [found, List.getElem?_eq_getElem index.isLt] at listed
  exact Option.some.inj listed

/-- A definition has the same number once names have been bound. -/
theorem exists_index {place : Nat} (found : program.definitions[place]? = some definition) :
    ∃ index : program.resolved.Index, (index : Nat) = place := by
  have listed := program.resolved_getElem? place
  rw [found] at listed
  exact ⟨⟨place, (List.getElem?_eq_some_iff.mp listed).1⟩, rfl⟩

/-- Uses lead to the same definitions before and after they are bound. -/
theorem reaches_iff_leads (distinct : (program.definitions.map (·.name.name)).Nodup)
    (wellFormed : ∀ definition ∈ program.definitions, definition.WellFormed program)
    (first : program.definitions[(root : Nat)]? = some top)
    (found : program.definitions[(index : Nat)]? = some definition) :
    program.Reaches top.name.name definition ↔
      Relation.ReflTransGen program.resolved.Calls root index := by
  constructor
  · intro reached
    induction reached generalizing index with
    | root named =>
        have same := named.symm.trans (definition?_of_mem distinct (List.mem_of_getElem? first))
        cases same
        have inside := (List.getElem?_eq_some_iff.mp first).1
        have equal := (List.getElem?_inj inside distinct.of_map).mp (first.trans found.symm)
        exact Fin.ext equal ▸ .refl
    | callee reached member names ih =>
        rename_i caller callee use
        obtain ⟨place, there⟩ := List.mem_iff_getElem?.mp reached.mem
        obtain ⟨origin, rfl⟩ := exists_index there
        obtain ⟨bound, used, resolves⟩ :=
          exists_bound_of_use (wellFormed caller reached.mem) member
        obtain ⟨number, symbols, fresh, target, listed⟩ := target_of_resolve resolves names
        have inside := (List.getElem?_eq_some_iff.mp listed).1
        have equal := (List.getElem?_inj inside distinct.of_map).mp (listed.trans found.symm)
        refine (ih there).tail ⟨bound, ?_, symbols, fresh, equal ▸ target⟩
        rw [definition_of_found there]
        exact used
  · intro leads
    induction leads generalizing definition with
    | refl =>
        cases first.symm.trans found
        exact .root (definition?_of_mem distinct (List.mem_of_getElem? first))
    | tail _ calls ih =>
        rename_i caller callee _
        obtain ⟨use, used, symbols, fresh, target⟩ := calls
        have listed := program.resolved_getElem? caller
        rw [List.getElem?_eq_getElem caller.isLt] at listed
        obtain ⟨written, there, -⟩ := Option.map_eq_some_iff.mp listed.symm
        rw [definition_of_found there] at used
        obtain ⟨use, member, resolves⟩ := use_of_bound used
        obtain ⟨name, arguments, named, box, names, known, -⟩ :=
          Use.definition_of_resolve resolves target
        cases known.symm.trans found
        refine .callee (ih there) member ?_
        simp only [callee?, box, names]

end Program

end FlowDiagram

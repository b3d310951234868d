import FlowDiagram.Proofs.Unfolding.Origins

/-!
# Unfolding under other limits

Limits never come out in what is unfolded: the budget only says whether there is room, and the depth
only whether a use is cut off.  So a run that ends does so in the same state under any limits that
leave as much room and under which every use becomes what it has become.  And a run always ends,
because each of its turns takes a frame off those pending or takes room for new ones.
-/

namespace FlowDiagram

variable {program : ResolvedProgram} {limits other : UnfoldingLimits}

/-! ## Another depth -/

/-- A use that is not cut off becomes the same at any larger depth. -/
theorem Scope.become_deeper {depth deeper number next : Nat} (le : depth ≤ deeper) {scope : Scope}
    {use : ResolvedUse} {outcome : Outcome}
    (become : scope.become program depth number use = some (outcome, next))
    (whole : ∀ node ∈ nodesOf [outcome], node.isTruncated = false) :
    scope.become program deeper number use = some (outcome, next) := by
  cases becomes_of_become become with
  | primitive target => exact (Becomes.primitive target).become
  | truncated _ _ _ _ => exact nomatch whole _ (List.mem_singleton_self _)
  | body target found bound few =>
      exact (Becomes.body target found bound (Nat.le_trans few le)).become

/-- Uses of which none is cut off become the same at any larger depth. -/
theorem Scope.becomeAll_deeper {depth deeper number next : Nat} (le : depth ≤ deeper)
    {scope : Scope} {uses : List ResolvedUse} {outcomes : List Outcome}
    (become : scope.becomeAll program depth number uses = some (outcomes, next))
    (whole : ∀ node ∈ nodesOf outcomes, node.isTruncated = false) :
    scope.becomeAll program deeper number uses = some (outcomes, next) := by
  induction uses generalizing number outcomes with
  | nil => exact become
  | cons use rest ih =>
      obtain ⟨outcome, middle, others, hfirst, hrest, rfl⟩ :=
        Unfolding.becomeAll_cons_eq_some.mp become
      rw [Unfolding.nodesOf_cons] at whole
      obtain ⟨wholeFirst, wholeRest⟩ := List.forall_mem_append.mp whole
      apply Unfolding.becomeAll_cons_eq_some.mpr
      exact ⟨outcome, middle, others, become_deeper le hfirst wholeFirst, ih hrest wholeRest, rfl⟩

namespace Unfolding

variable {root : Scope} {pending : List Nat} {unfolding final : Unfolding}

/-! ## Runs -/

/-- Everything is traced, and what was there in an earlier state still is. -/
structure Since (program : ResolvedProgram) (depth : Nat) (root : Scope) (earlier : Unfolding)
    (pending : List Nat) (unfolding : Unfolding) : Prop where
  traced : Traced program depth root pending unfolding
  nodes : earlier.nodes.toList <+: unfolding.nodes.toList
  scopes : earlier.scopes <+: unfolding.scopes

theorem Since.unfoldFrame {earlier after : Unfolding} {number : Nat} {rest later : List Nat}
    (sound : program.Sound)
    (since : Since program limits.depth root earlier (number :: rest) unfolding)
    (unfolded : unfolding.unfoldFrame program limits number = .ok (after, later)) :
    Since program limits.depth root earlier (later ++ rest) after := by
  have traced := since.traced.unfoldFrame sound unfolded
  obtain ⟨_, outcomes, next, -, -, -, -, rfl, -⟩ := since.traced.exists_settle sound unfolded
  refine ⟨traced, ?_, ?_⟩
  · rw [nodes_settle]
    exact since.nodes.trans (List.prefix_append ..)
  · rw [scopes_settle]
    exact since.scopes.trans (List.prefix_append ..)

/-- What is there stays there up to the end of a run. -/
theorem Since.unfoldAll {earlier : Unfolding} (sound : program.Sound)
    (since : Since program limits.depth root earlier pending unfolding)
    (run : unfolding.unfoldAll program limits pending = .ok final) :
    Since program limits.depth root earlier [] final :=
  unfoldAll_keeps (fun since unfolded => since.unfoldFrame sound unfolded) since run

/-- Under other limits the bodies in a state become what they become under these. -/
def Agree (program : ResolvedProgram) (limits other : UnfoldingLimits) (final : Unfolding) : Prop :=
  ∀ scope ∈ final.scopes, ∀ (number next : Nat) (outcomes : List Outcome),
    scope.becomeAll program limits.depth number scope.body.uses = some (outcomes, next) →
    nodesOf outcomes ⊆ final.nodes.toList →
    scope.becomeAll program other.depth number scope.body.uses = some (outcomes, next)

/-- With as much room and time a run ends in the same state, if all bodies become the same. -/
theorem Traced.unfoldAll_of_agree (sound : program.Sound) (inTime : other.expired = false)
    (room : limits.nodes ≤ other.nodes) (agree : final.Agree program limits other)
    (traced : Traced program limits.depth root pending unfolding)
    (run : unfolding.unfoldAll program limits pending = .ok final) :
    unfolding.unfoldAll program other pending = .ok final := by
  induction unfolding, pending using unfoldAll.induct program limits with
  | case1 unfolding =>
      rw [Unfolding.unfoldAll] at run ⊢
      exact run
  | case2 unfolding number rest expired =>
      obtain ⟨notExpired, -⟩ := unfoldAll_cons_eq_ok run
      simp [expired] at notExpired
  | case3 unfolding number rest _ error herror =>
      obtain ⟨-, after, later, hframe, -⟩ := unfoldAll_cons_eq_ok run
      simp [herror] at hframe
  | case4 unfolding number rest notExpired after later hframe ih =>
      obtain ⟨-, _, _, hframe', runLater⟩ := unfoldAll_cons_eq_ok run
      cases hframe.symm.trans hframe'
      have tracedAfter := traced.unfoldFrame sound hframe
      have start : Since program limits.depth root after (later ++ rest) after :=
        ⟨tracedAfter, List.prefix_rfl, List.prefix_rfl⟩
      obtain ⟨-, nodes, scopes⟩ := start.unfoldAll sound runLater
      obtain ⟨scope, outcomes, next, found, fit, become, enough, rfl, rfl⟩ :=
        traced.exists_settle sound hframe
      rw [nodes_settle] at nodes
      rw [scopes_settle] at scopes
      -- the body and what it has become are part of the final state
      have known : scope ∈ final.scopes :=
        scopes.subset (List.mem_append_left _ (List.mem_of_getElem? found))
      have kept : nodesOf outcomes ⊆ final.nodes.toList :=
        fun _ member => nodes.subset (List.mem_append_right _ member)
      have roomier : unfolding.room limits ≤ unfolding.room other := Nat.sub_le_sub_right room _
      have same : unfolding.unfoldFrame program other number = .ok _ :=
        (unfoldFrame_eq_ok_iff found fit).mpr
          ⟨outcomes, next, agree scope known _ _ _ become kept, Nat.le_trans enough roomier, rfl⟩
      rw [unfoldAll_cons inTime same]
      exact ih tracedAfter runLater

/-! ## Turns -/

/-- A run over a root comes to a state after so many turns, each of which unfolds a frame. -/
inductive Turns (program : ResolvedProgram) (limits : UnfoldingLimits) (start : Unfolding) :
    Nat → List Nat → Unfolding → Prop
  | start : Turns program limits start 0 [0] start
  | turn {count number : Nat} {later rest : List Nat} {before after : Unfolding}
      (turns : Turns program limits start count (number :: rest) before)
      (unfolded : before.unfoldFrame program limits number = .ok (after, later)) :
      Turns program limits start (count + 1) (later ++ rest) after

/-- A run ends where no frame is pending or the next one cannot be unfolded. -/
def EndsWith (program : ResolvedProgram) (limits : UnfoldingLimits) (unfolding : Unfolding) :
    List Nat → Except UnfoldingError Unfolding → Prop
  | [], result => result = .ok unfolding
  | number :: _, result =>
    ∃ error, unfolding.unfoldFrame program limits number = .error error ∧ result = .error error

/-- From where a run is, it goes on to an end. -/
theorem Turns.exists_end {start : Unfolding} {count : Nat} (inTime : limits.expired = false)
    (turns : Turns program limits start count pending unfolding) :
    ∃ total left final, Turns program limits start total left final ∧
      final.EndsWith program limits left (unfolding.unfoldAll program limits pending) := by
  induction unfolding, pending using unfoldAll.induct program limits generalizing count with
  | case1 unfolding =>
      refine ⟨count, [], unfolding, turns, ?_⟩
      rw [unfoldAll]
      rfl
  | case2 unfolding number rest expired =>
      rw [inTime] at expired
      cases expired
  | case3 unfolding number rest notExpired error failed =>
      refine ⟨count, number :: rest, unfolding, turns, error, failed, ?_⟩
      rw [unfoldAll_step, if_neg notExpired, failed]
  | case4 unfolding number rest _ after later unfolded ih =>
      rw [unfoldAll_cons inTime unfolded]
      exact ih (turns.turn unfolded)

/-- A turn is paid for by the frame that it takes off, and new frames by the room they take. -/
theorem Turns.add_room_le {start : Unfolding} {count : Nat}
    (turns : Turns program limits start count pending unfolding) :
    count + (unfolding.room limits + pending.length) ≤ start.room limits + 1 := by
  induction turns with
  | start => exact Nat.le_of_eq (Nat.zero_add _)
  | turn _ unfolded ih =>
      have paid := room_unfoldFrame unfolded
      rw [List.length_cons] at ih
      rw [List.length_append]
      omega

/-- So a run from a root makes no more turns than the budget has room for, its own included. -/
theorem Turns.le_budget {index count : Nat} {body : ResolvedDefinition} {binding : List Symbol}
    (turns : Turns program limits (.ofRoot index body binding) count pending unfolding) :
    count ≤ max 1 limits.nodes := by
  have charged : (ofRoot index body binding).charged = 1 := rfl
  have bound := turns.add_room_le
  rw [room, room, charged] at bound
  omega

end Unfolding

end FlowDiagram

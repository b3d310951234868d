import FlowDiagram.Proofs.Unfolding.Step

/-!
# Runs of unfolding

Unfolding works off pending frames one by one, each with all that is in it before the next.  A run
adds to the state exactly the listing that recursion gives for the scopes of its pending frames,
and it succeeds exactly when there is such a listing and the budget has room for it.
-/

namespace FlowDiagram

/-! ## Nodes and bodies among the outcomes -/

/-- A node has the ports of its use and lies where the use is named. -/
theorem Scope.become_eq_node {program : ResolvedProgram} {depth : Nat} {scope : Scope}
    {node : Node} {number next : Nat} {use : ResolvedUse}
    (become : scope.become program depth number use = some (.node node, next)) :
    node.inputs = use.inputs ∧ node.outputs = use.outputs ∧
      node.provenance.path = scope.path ++ [use.name] := by
  cases Scope.becomes_of_become become with
  | primitive target => exact ⟨rfl, rfl, rfl⟩
  | truncated target found bound many => exact ⟨rfl, rfl, rfl⟩

/-- A body is that of the definition used and lies where the use is named. -/
theorem Scope.become_eq_body {program : ResolvedProgram} {depth : Nat} {scope inner : Scope}
    {number next : Nat} {use : ResolvedUse}
    (become : scope.become program depth number use = some (.body inner, next)) :
    inner.path = scope.path ++ [use.name] ∧
      ∃ index arguments fresh, use.target = .definition index arguments fresh ∧
        program.definitions[index]? = some inner.body := by
  cases Scope.becomes_of_become become with
  | body target found bound few => exact ⟨rfl, _, _, _, target, found⟩

/-- A body unfolded below another one is a definition of the program. -/
theorem Scope.body_mem_of_becomeAll {program : ResolvedProgram} {depth : Nat} {scope : Scope}
    {number next : Nat} {uses : List ResolvedUse} {outcomes : List Outcome}
    (become : scope.becomeAll program depth number uses = some (outcomes, next)) :
    ∀ inner ∈ scopesOf outcomes, inner.body ∈ program.definitions := by
  induction uses generalizing number outcomes with
  | nil =>
      cases become
      simp
  | cons use rest ih =>
      obtain ⟨outcome, middle, others, hfirst, hrest, rfl⟩ :=
        Unfolding.becomeAll_cons_eq_some.mp become
      intro inner member
      rw [Unfolding.scopesOf_cons] at member
      rcases List.mem_append.mp member with here | later
      · cases outcome with
        | node node => simp at here
        | body scope =>
            obtain rfl : inner = scope := by simpa using here
            obtain ⟨-, index, -, -, -, known⟩ := Scope.become_eq_body hfirst
            exact List.mem_of_getElem? known
      · exact ih hrest inner later

namespace Unfolding

variable {program : ResolvedProgram} {limits : UnfoldingLimits}

/-! ## What a run adds -/

/-- The frames of these numbers stand for these scopes. -/
def Holds (unfolding : Unfolding) (numbers : List Nat) (scopes : List Scope) : Prop :=
  numbers.map (unfolding.scopes[·]?) = scopes.map some

/-- The state after a listing has been added. -/
structure Grown (before : Unfolding) (listing : Listing) (after : Unfolding) : Prop where
  nodes : after.nodes.toList = before.nodes.toList ++ listing.nodes
  scopes : after.scopes = before.scopes ++ listing.scopes
  introduction : after.introduction = listing.next

theorem Grown.empty (unfolding : Unfolding) :
    unfolding.Grown (.empty unfolding.introduction) unfolding :=
  ⟨by simp [Listing.empty], by simp [Listing.empty], rfl⟩

theorem Grown.append {before middle after : Unfolding} {first later : Listing}
    (begun : before.Grown first middle) (ended : middle.Grown later after) :
    before.Grown (first.append later) after where
  nodes := by rw [ended.nodes, begun.nodes, List.append_assoc]; rfl
  scopes := by rw [ended.scopes, begun.scopes, List.append_assoc]; rfl
  introduction := ended.introduction

theorem Grown.settle (unfolding : Unfolding) (number : Nat) (outcomes : List Outcome)
    (introduction : Nat) :
    unfolding.Grown (.ofOutcomes outcomes introduction)
      (unfolding.settle number outcomes introduction) :=
  ⟨nodes_settle .., scopes_settle .., introduction_settle ..⟩

theorem Grown.room (limits : UnfoldingLimits) {before after : Unfolding} {listing : Listing}
    (grown : before.Grown listing after) :
    after.room limits = before.room limits - listing.size := by
  unfold Unfolding.room Listing.size
  rw [charged_eq, charged_eq, grown.nodes, grown.scopes, List.length_append, List.length_append]
  omega

theorem Holds.tail {unfolding : Unfolding} {number : Nat} {numbers : List Nat} {scope : Scope}
    {scopes : List Scope} (holds : unfolding.Holds (number :: numbers) (scope :: scopes)) :
    unfolding.scopes[number]? = some scope ∧ unfolding.Holds numbers scopes :=
  List.cons.inj holds

/-- Frames that are there stay what they are. -/
theorem Holds.grown {before after : Unfolding} {listing : Listing} {numbers : List Nat}
    {scopes : List Scope} (holds : before.Holds numbers scopes)
    (grown : before.Grown listing after) : after.Holds numbers scopes := by
  induction numbers generalizing scopes with
  | nil => exact holds
  | cons number rest ih =>
      cases scopes with
      | nil => cases holds
      | cons scope others =>
          obtain ⟨found, later⟩ := holds.tail
          have below := (List.getElem?_eq_some_iff.mp found).1
          have kept : after.scopes[number]? = some scope := by
            rw [grown.scopes, List.getElem?_append_left below, found]
          exact List.cons_eq_cons.mpr ⟨kept, ih later⟩

/-- The frames pushed for the outcomes of a body stand for the scopes among them. -/
theorem holds_settle (unfolding : Unfolding) (number : Nat) (outcomes : List Outcome)
    (introduction : Nat) :
    (unfolding.settle number outcomes introduction).Holds
      (List.range' unfolding.frames.size (scopesOf outcomes).length) (scopesOf outcomes) := by
  unfold Holds
  rw [scopes_settle, ← size_scopes]
  apply List.ext_getElem?
  intro index
  rw [List.getElem?_map, List.getElem?_map]
  by_cases below : index < (scopesOf outcomes).length
  · simp [below]
  · simp [below]

/-! ## From listings to runs -/

theorem unfoldAll_cons {unfolding after : Unfolding} {number : Nat} {later rest : List Nat}
    (inTime : limits.expired = false)
    (unfolded : unfolding.unfoldFrame program limits number = .ok (after, later)) :
    unfolding.unfoldAll program limits (number :: rest) =
      after.unfoldAll program limits (later ++ rest) := by
  rw [unfoldAll_step, inTime, unfolded]
  rfl

/-- A listing that the budget has room for is added by the run over the frames of its scopes. -/
theorem unfoldAll_of_listing (sound : program.Sound) (inTime : limits.expired = false)
    {nesting : Nat} {unfolding : Unfolding} {numbers rest : List Nat} {scopes : List Scope}
    {listing : Listing} (holds : unfolding.Holds numbers scopes)
    (bodies : ∀ scope ∈ scopes, scope.body ∈ program.definitions)
    (listed : Listing.ofScopes (Scope.unfold program limits.depth nesting) scopes
      unfolding.introduction = some listing)
    (room : listing.size ≤ unfolding.room limits) :
    ∃ after, unfolding.Grown listing after ∧
      unfolding.unfoldAll program limits (numbers ++ rest) =
        after.unfoldAll program limits rest := by
  induction nesting generalizing unfolding numbers rest scopes listing with
  | zero =>
      cases scopes with
      | nil =>
          cases listed
          obtain rfl : numbers = [] := List.map_eq_nil_iff.mp holds
          exact ⟨unfolding, .empty unfolding, rfl⟩
      | cons scope others => cases listed
  | succ nesting ih =>
      -- the frames one after the other, each with what lies in it by the outer induction
      induction scopes generalizing unfolding numbers listing with
      | nil =>
          cases listed
          obtain rfl : numbers = [] := List.map_eq_nil_iff.mp holds
          exact ⟨unfolding, .empty unfolding, rfl⟩
      | cons scope others ihScopes =>
          cases numbers with
          | nil => cases holds
          | cons number numbers =>
              obtain ⟨found, holdsOthers⟩ := holds.tail
              obtain ⟨first, later, hfirst, hlater, rfl⟩ :=
                Listing.ofScopes_cons_eq_some.mp listed
              obtain ⟨outcomes, next, inner, houtcomes, hinner, rfl⟩ :=
                Scope.unfold_succ_eq_some.mp hfirst
              rw [Listing.size_append, Listing.size_append, Listing.size_ofOutcomes] at room
              have fit := (sound scope.body (bodies scope (by simp))).uses_fit
              have frame : unfolding.unfoldFrame program limits number = .ok _ :=
                (unfoldFrame_eq_ok_iff found fit).mpr
                  ⟨outcomes, next, houtcomes, by omega, rfl⟩
              have settled := Grown.settle unfolding number outcomes next
              have settledRoom := settled.room limits
              rw [Listing.size_ofOutcomes] at settledRoom
              obtain ⟨middle, grownMiddle, runMiddle⟩ := @ih _ _ (numbers ++ rest) _ _
                (holds_settle unfolding number outcomes next)
                (Scope.body_mem_of_becomeAll houtcomes) hinner (by omega)
              have throughMiddle := settled.append grownMiddle
              have middleRoom := throughMiddle.room limits
              rw [Listing.size_append, Listing.size_ofOutcomes] at middleRoom
              obtain ⟨after, grownAfter, runAfter⟩ := ihScopes
                (holdsOthers.grown throughMiddle)
                (fun scope member => bodies scope (by simp [member]))
                (by rw [throughMiddle.introduction]; exact hlater) (by omega)
              refine ⟨after, throughMiddle.append grownAfter, ?_⟩
              rw [List.cons_append, unfoldAll_cons inTime frame, runMiddle, runAfter]

/-! ## From runs to listings -/

theorem unfoldAll_cons_eq_ok {unfolding final : Unfolding} {number : Nat} {rest : List Nat}
    (run : unfolding.unfoldAll program limits (number :: rest) = .ok final) :
    limits.expired = false ∧ ∃ after later,
      unfolding.unfoldFrame program limits number = .ok (after, later) ∧
        after.unfoldAll program limits (later ++ rest) = .ok final := by
  rw [unfoldAll_step] at run
  split at run
  · cases run
  · rename_i inTime
    split at run
    · cases run
    · rename_i after later unfolded
      exact ⟨by simpa using inTime, after, later, unfolded, run⟩

/-- What holds of the pending frames and the state holds in the end, if every frame keeps it. -/
theorem unfoldAll_keeps {keeps : List Nat → Unfolding → Prop}
    (step : ∀ {unfolding after : Unfolding} {number : Nat} {later rest : List Nat},
      keeps (number :: rest) unfolding →
      unfolding.unfoldFrame program limits number = .ok (after, later) →
      keeps (later ++ rest) after)
    {unfolding final : Unfolding} {pending : List Nat} (start : keeps pending unfolding)
    (run : unfolding.unfoldAll program limits pending = .ok final) : keeps [] final := by
  induction unfolding, pending using unfoldAll.induct program limits with
  | case1 unfolding =>
      rw [unfoldAll] at run
      cases run
      exact start
  | case2 unfolding number rest expired =>
      obtain ⟨inTime, -⟩ := unfoldAll_cons_eq_ok run
      simp [expired] at inTime
  | case3 unfolding number rest inTime error herror =>
      obtain ⟨-, after, later, hframe, -⟩ := unfoldAll_cons_eq_ok run
      simp [herror] at hframe
  | case4 unfolding number rest inTime after later hframe ih =>
      obtain ⟨-, after', later', hframe', runLater⟩ := unfoldAll_cons_eq_ok run
      cases hframe.symm.trans hframe'
      exact ih (step start hframe) runLater

/-- A run that succeeds has a listing to add, and room for it. -/
theorem listing_of_unfoldAll (sound : program.Sound) {unfolding final : Unfolding}
    {numbers rest : List Nat} {scopes : List Scope} (holds : unfolding.Holds numbers scopes)
    (bodies : ∀ scope ∈ scopes, scope.body ∈ program.definitions)
    (run : unfolding.unfoldAll program limits (numbers ++ rest) = .ok final) :
    ∃ nesting listing,
      Listing.ofScopes (Scope.unfold program limits.depth nesting) scopes
        unfolding.introduction = some listing ∧
      listing.size ≤ unfolding.room limits := by
  -- on the room left and the frames pending, as the run itself
  induction hmeasure : unfolding.room limits + (numbers ++ rest).length using Nat.strongRecOn
    generalizing unfolding numbers rest scopes with
  | ind bound ih =>
      cases scopes with
      | nil =>
          exact ⟨0, .empty unfolding.introduction, rfl, by simp [Listing.empty, Listing.size]⟩
      | cons scope others =>
          cases numbers with
          | nil => cases holds
          | cons number numbers =>
              obtain ⟨found, holdsOthers⟩ := holds.tail
              have fit := (sound scope.body (bodies scope (by simp))).uses_fit
              rw [List.cons_append] at run
              obtain ⟨inTime, after, pushed, hframe, runAfter⟩ := unfoldAll_cons_eq_ok run
              obtain ⟨outcomes, next, houtcomes, room, same⟩ :=
                (unfoldFrame_eq_ok_iff found fit).mp hframe
              obtain ⟨rfl, rfl⟩ := Prod.mk.inj same
              have settled := Grown.settle unfolding number outcomes next
              have settledRoom := settled.room limits
              rw [Listing.size_ofOutcomes] at settledRoom
              have few : (scopesOf outcomes).length ≤ outcomes.length :=
                List.length_filterMap_le _ _
              simp only [List.length_append, List.length_cons] at hmeasure
              have holdsInner := holds_settle unfolding number outcomes next
              have innerBodies := Scope.body_mem_of_becomeAll houtcomes
              -- first what lies in the frame
              obtain ⟨nesting, inner, hinner, innerRoom⟩ := ih _
                (by simp only [List.length_append, List.length_range', settledRoom]; omega)
                holdsInner innerBodies runAfter rfl
              obtain ⟨middle, grownMiddle, runMiddle⟩ := @unfoldAll_of_listing _ _ sound inTime
                _ _ _ (numbers ++ rest) _ _ holdsInner innerBodies hinner innerRoom
              have throughMiddle := settled.append grownMiddle
              have middleRoom := throughMiddle.room limits
              rw [Listing.size_append, Listing.size_ofOutcomes] at middleRoom
              -- then the frames behind it
              obtain ⟨nestingLater, later, hlater, laterRoom⟩ := ih _
                (by simp only [List.length_append, middleRoom]; omega)
                (holdsOthers.grown throughMiddle)
                (fun scope member => bodies scope (by simp [member]))
                (runMiddle ▸ runAfter) rfl
              rw [throughMiddle.introduction] at hlater
              have hfirst := Scope.unfold_succ_eq_some.mpr
                ⟨outcomes, next, inner, houtcomes, hinner, rfl⟩
              refine ⟨max (nesting + 1) nestingLater,
                ((Listing.ofOutcomes outcomes next).append inner).append later, ?_, ?_⟩
              · refine Listing.ofScopes_cons_eq_some.mpr ⟨_, later, ?_, ?_, rfl⟩
                · exact Scope.unfold_mono (Nat.le_max_left _ _) hfirst
                · exact Listing.ofScopes_mono
                    (fun _ _ _ listed => Scope.unfold_mono (Nat.le_max_right _ _) listed) hlater
              · rw [Listing.size_append, Listing.size_append, Listing.size_ofOutcomes]
                omega

end Unfolding

end FlowDiagram

import FlowDiagram.Proofs.Resolution.Soundness
import FlowDiagram.Proofs.Unfolding.Listing

/-!
# Steps of unfolding

What unfolding does to its state, said once for each step: a use is placed as what its scope makes
of it, the uses of a body are placed one after the other, and a frame is settled with all its
parts.  A step succeeds exactly when its outcomes exist and the budget has room for them.
-/

namespace FlowDiagram

/-- The scope that a frame stands for. -/
def Frame.scope (frame : Frame) : Scope :=
  ⟨frame.body, frame.applications, frame.level, frame.path⟩

/-- The frame of a scope that is not unfolded yet. -/
def Scope.frame (scope : Scope) (site : UseSite) : Frame :=
  ⟨scope.body, scope.applications, scope.level, scope.path, some site, []⟩

@[simp]
theorem Scope.scope_frame (scope : Scope) (site : UseSite) : (scope.frame site).scope = scope :=
  rfl

namespace Unfolding

variable {program : ResolvedProgram} {limits : UnfoldingLimits}

/-- The scopes of the frames, in their order. -/
def scopes (unfolding : Unfolding) : List Scope :=
  unfolding.frames.toList.map Frame.scope

/-- Put what a use has become in its place. -/
def place (unfolding : Unfolding) (site : UseSite) : Outcome → Unfolding × Part
  | .node node =>
    ({ unfolding with nodes := unfolding.nodes.push node, sites := unfolding.sites.push site },
      .node unfolding.nodes.size)
  | .body scope =>
    ({ unfolding with frames := unfolding.frames.push (scope.frame site) },
      .frame unfolding.frames.size)

/-- Put in place what the uses of the frame `number` have become, from the use `next` on. -/
def placeAll (number : Nat) : Unfolding → Nat → List Outcome → Unfolding × List Part
  | unfolding, _, [] => (unfolding, [])
  | unfolding, next, outcome :: rest =>
    let (unfolding, part) := unfolding.place ⟨number, next⟩ outcome
    let (unfolding, parts) := unfolding.placeAll number (next + 1) rest
    (unfolding, part :: parts)

/-- The state in which the next introduction of symbols has this number. -/
def introducing (unfolding : Unfolding) (introduction : Nat) : Unfolding :=
  { unfolding with introduction }

/-- The frame `number` with its parts. -/
def setParts (unfolding : Unfolding) (number : Nat) (parts : List Part) : Unfolding :=
  { unfolding with
    frames := unfolding.frames.modify number fun frame => { frame with parts := parts } }

/-- A frame of which all uses have become something. -/
def settle (unfolding : Unfolding) (number : Nat) (outcomes : List Outcome)
    (introduction : Nat) : Unfolding :=
  let (placed, parts) := unfolding.placeAll number 0 outcomes
  (placed.introducing introduction).setParts number parts

/-! ## One use -/

theorem charge_eq_ok_iff {unfolding : Unfolding} :
    unfolding.charge limits = .ok () ↔ 1 ≤ unfolding.room limits := by
  unfold charge room
  split <;> simp <;> omega

theorem addNode_eq_ok_iff {unfolding : Unfolding} {site : UseSite} {use : ResolvedUse}
    {kind : NodeKind} {provenance : Provenance} {result : Unfolding × Part} :
    unfolding.addNode limits site use kind provenance = .ok result ↔
      1 ≤ unfolding.room limits ∧
        result = unfolding.place site (.node ⟨kind, use.inputs, use.outputs, provenance⟩) := by
  rw [← charge_eq_ok_iff]
  unfold addNode
  cases unfolding.charge limits with
  | error error => simp [bind, Except.bind]
  | ok value =>
      simp only [bind, Except.bind, pure, Except.pure, Except.ok.injEq, true_and]
      exact eq_comm

theorem addFrame_eq_ok_iff {unfolding : Unfolding} (scope : Scope) {site : UseSite}
    {result : Unfolding × Part} :
    unfolding.addFrame limits (scope.frame site) = .ok result ↔
      1 ≤ unfolding.room limits ∧ result = unfolding.place site (.body scope) := by
  rw [← charge_eq_ok_iff]
  unfold addFrame
  cases unfolding.charge limits with
  | error error => simp [bind, Except.bind]
  | ok value =>
      simp only [bind, Except.bind, pure, Except.pure, Except.ok.injEq, true_and]
      exact eq_comm

theorem place_introducing (unfolding : Unfolding) (introduction : Nat) (site : UseSite)
    (outcome : Outcome) :
    (unfolding.introducing introduction).place site outcome =
      ((unfolding.place site outcome).1.introducing introduction,
        (unfolding.place site outcome).2) := by
  cases outcome <;> rfl

theorem introducing_introducing (unfolding : Unfolding) (first later : Nat) :
    (unfolding.introducing first).introducing later = unfolding.introducing later := rfl

@[simp]
theorem introduction_introducing (unfolding : Unfolding) (introduction : Nat) :
    (unfolding.introducing introduction).introduction = introduction := rfl

theorem placeAll_introducing (unfolding : Unfolding) (introduction number next : Nat)
    (outcomes : List Outcome) :
    (unfolding.introducing introduction).placeAll number next outcomes =
      ((unfolding.placeAll number next outcomes).1.introducing introduction,
        (unfolding.placeAll number next outcomes).2) := by
  induction outcomes generalizing unfolding next with
  | nil => rfl
  | cons outcome rest ih =>
      simp only [placeAll, place_introducing, ih]

/-- The count by prefixes is the count by universal symbols, as no use writes too few of them. -/
theorem occurrences_eq_recursions (scope : Scope) (index : Nat) {universal : Nat}
    {symbols : List Symbol} (enough : universal ≤ symbols.length) :
    occurrences scope.applications index (symbols.take universal) =
      scope.recursions index universal symbols := by
  unfold occurrences Scope.recursions
  apply List.countP_congr
  intro application _
  have length : (symbols.take universal).length = universal := by simp [enough]
  simp only [Bool.and_eq_true, beq_iff_eq, List.isPrefixOf_iff_prefix, decide_eq_true_eq]
  rw [List.prefix_iff_eq_take, length]
  exact and_congr_right fun _ => eq_comm

theorem length_bindArguments (bind : Symbol → Symbol) (number universal : Nat) (fresh : Bool)
    (arguments : List Symbol) :
    (bindArguments bind number universal fresh arguments).length = arguments.length := by
  unfold bindArguments
  split
  · simp only [List.length_append, List.length_map, List.length_take, List.length_drop]
    omega
  · simp

/-- A use of a definition is cut off by the level that plain recursion counts. -/
theorem unfoldDefinition_eq_ok_iff {frame : Frame} {site : UseSite} {unfolding : Unfolding}
    {use : ResolvedUse} {index : Nat} {callee : ResolvedDefinition} {arguments : List Symbol}
    {fresh : Bool} (found : program.definitions[index]? = some callee)
    (count : arguments.length = callee.parameters.length) {result : Unfolding × Part} :
    let symbols := bindArguments frame.scope.bind unfolding.introduction callee.universal.length
      fresh arguments
    let level := frame.scope.recursions index callee.universal.length symbols
    let introduction := if fresh ∧ callee.universal.length < arguments.length
      then unfolding.introduction + 1 else unfolding.introduction
    unfolding.unfoldDefinition program limits frame site use index arguments fresh = .ok result ↔
      1 ≤ unfolding.room limits ∧
        result = (unfolding.introducing introduction).place site
          (if limits.depth < level then .node (frame.scope.truncatedNode use callee symbols level)
            else .body (frame.scope.inner use index callee symbols level)) := by
  intro symbols level introduction
  have enough : callee.universal.length ≤ symbols.length := by
    rw [length_bindArguments, count, ResolvedDefinition.parameters, List.length_append]
    omega
  have counted : occurrences frame.applications index
      (symbols.take callee.universal.length) = level :=
    occurrences_eq_recursions frame.scope index enough
  have introduced : unfolding.introduction +
      (if (fresh && decide (callee.universal.length < arguments.length)) = true then 1 else 0) =
        introduction := by
    simp only [Bool.and_eq_true, decide_eq_true_eq, introduction]
    split <;> rfl
  have levelOf : (if 0 < level then level else frame.level) =
      if level = 0 then frame.level else level := by
    split <;> split <;> omega
  have symbolsEq : bindArguments (frame.body.bind frame.binding) unfolding.introduction
      callee.universal.length fresh arguments = symbols := rfl
  simp only [unfoldDefinition, found, symbolsEq, counted, introduced, levelOf]
  split
  · exact addNode_eq_ok_iff
  · exact addFrame_eq_ok_iff (frame.scope.inner use index callee symbols level)

/-- A use is unfolded to what its scope makes of it, if there is room for that. -/
theorem unfoldUse_eq_ok_iff {frame : Frame} {site : UseSite} {unfolding : Unfolding}
    {use : ResolvedUse} (fits : use.Fits program) {result : Unfolding × Part} :
    unfolding.unfoldUse program limits frame site use = .ok result ↔
      ∃ outcome next,
        frame.scope.become program limits.depth unfolding.introduction use =
          some (outcome, next) ∧
        1 ≤ unfolding.room limits ∧
        result = (unfolding.introducing next).place site outcome := by
  unfold unfoldUse Scope.become
  unfold ResolvedUse.Fits at fits
  cases htarget : use.target with
  | primitive primitive =>
      simp only [Option.some.injEq, Prod.mk.injEq]
      rw [addNode_eq_ok_iff]
      constructor
      · rintro ⟨paid, rfl⟩
        exact ⟨_, _, ⟨rfl, rfl⟩, paid, rfl⟩
      · rintro ⟨outcome, next, ⟨rfl, rfl⟩, paid, rfl⟩
        exact ⟨paid, rfl⟩
  | definition index arguments fresh =>
      rw [htarget] at fits
      obtain ⟨callee, found, count, -, -⟩ := fits
      simp only [found, Option.map_some, Option.some.injEq, Prod.mk.injEq]
      refine (unfoldDefinition_eq_ok_iff found count).trans ?_
      constructor
      · rintro ⟨paid, rfl⟩
        exact ⟨_, _, ⟨rfl, rfl⟩, paid, rfl⟩
      · rintro ⟨outcome, next, ⟨rfl, rfl⟩, paid, rfl⟩
        exact ⟨paid, rfl⟩

/-! ## The uses of a body -/

@[simp]
theorem charged_place (unfolding : Unfolding) (site : UseSite) (outcome : Outcome) :
    (unfolding.place site outcome).1.charged = unfolding.charged + 1 := by
  cases outcome with
  | node node => simp [place, charged]; omega
  | body scope => simp [place, charged]; omega

@[simp]
theorem introduction_place (unfolding : Unfolding) (site : UseSite) (outcome : Outcome) :
    (unfolding.place site outcome).1.introduction = unfolding.introduction := by
  cases outcome <;> rfl

theorem unfoldUses_cons (frame : Frame) (number : Nat) (unfolding : Unfolding) (next : Nat)
    (use : ResolvedUse) (rest : List ResolvedUse) :
    unfolding.unfoldUses program limits frame number next (use :: rest) =
      (unfolding.unfoldUse program limits frame ⟨number, next⟩ use >>= fun first =>
        first.1.unfoldUses program limits frame number (next + 1) rest >>= fun later =>
          .ok (later.1, first.2 :: later.2)) := rfl

theorem becomeAll_cons_eq_some {scope : Scope} {depth number introduction : Nat}
    {use : ResolvedUse} {rest : List ResolvedUse} {outcomes : List Outcome} :
    scope.becomeAll program depth number (use :: rest) = some (outcomes, introduction) ↔
      ∃ outcome next others,
        scope.become program depth number use = some (outcome, next) ∧
        scope.becomeAll program depth next rest = some (others, introduction) ∧
        outcomes = outcome :: others := by
  simp only [Scope.becomeAll, Option.bind_eq_bind, Option.pure_def, Option.bind_eq_some_iff,
    Option.some.injEq, Prod.mk.injEq, Prod.exists]
  grind

/-- The uses of a body are unfolded to what their scope makes of them, if there is room. -/
theorem unfoldUses_eq_ok_iff {frame : Frame} {number next : Nat} {unfolding : Unfolding}
    {uses : List ResolvedUse} (fit : ∀ use ∈ uses, use.Fits program)
    {result : Unfolding × List Part} :
    unfolding.unfoldUses program limits frame number next uses = .ok result ↔
      ∃ outcomes introduction,
        frame.scope.becomeAll program limits.depth unfolding.introduction uses =
          some (outcomes, introduction) ∧
        outcomes.length ≤ unfolding.room limits ∧
        result = (unfolding.introducing introduction).placeAll number next outcomes := by
  induction uses generalizing unfolding next result with
  | nil =>
      simp only [unfoldUses, Scope.becomeAll, Except.ok.injEq, Option.some.injEq, Prod.mk.injEq]
      constructor
      · rintro rfl
        exact ⟨[], _, ⟨rfl, rfl⟩, by simp, rfl⟩
      · rintro ⟨outcomes, introduction, ⟨rfl, rfl⟩, -, rfl⟩
        rfl
  | cons use rest ih =>
      have later : ∀ other ∈ rest, other.Fits program :=
        fun other member => fit other (by simp [member])
      have room : ∀ (introduced : Nat) (outcome : Outcome),
          (((unfolding.introducing introduced).place ⟨number, next⟩ outcome).1).room limits =
            unfolding.room limits - 1 := by
        intro introduced outcome
        simp only [Unfolding.room, charged_place]
        exact Nat.sub_add_eq _ _ _
      rw [unfoldUses_cons]
      constructor
      · intro unfolded
        obtain ⟨first, hfirst, unfolded⟩ := exists_ok_of_bind unfolded
        obtain ⟨final, hlater, unfolded⟩ := exists_ok_of_bind unfolded
        cases unfolded
        obtain ⟨outcome, introduced, hbecome, paid, rfl⟩ :=
          (unfoldUse_eq_ok_iff (fit use (by simp))).mp hfirst
        obtain ⟨outcomes, introduction, hall, enough, rfl⟩ := (ih later).mp hlater
        rw [introduction_place, introduction_introducing] at hall
        rw [room] at enough
        refine ⟨outcome :: outcomes, introduction,
          becomeAll_cons_eq_some.mpr ⟨_, _, _, hbecome, hall, rfl⟩, ?_, ?_⟩
        · rw [List.length_cons]
          omega
        · simp only [placeAll, place_introducing, placeAll_introducing,
            introducing_introducing]
      · rintro ⟨outcomes, introduction, hall, enough, rfl⟩
        obtain ⟨outcome, introduced, others, hbecome, hrest, rfl⟩ :=
          becomeAll_cons_eq_some.mp hall
        rw [List.length_cons] at enough
        have first : unfolding.unfoldUse program limits frame ⟨number, next⟩ use = .ok _ :=
          (unfoldUse_eq_ok_iff (fit use (by simp))).mpr
            ⟨outcome, introduced, hbecome, by omega, rfl⟩
        have second : unfoldUses program limits frame number
            ((unfolding.introducing introduced).place ⟨number, next⟩ outcome).1 (next + 1) rest =
              .ok ((((unfolding.introducing introduced).place ⟨number, next⟩ outcome).1.introducing
                introduction).placeAll number (next + 1) others) := by
          refine (ih later).mpr ⟨others, introduction, ?_, ?_, rfl⟩
          · rw [introduction_place, introduction_introducing]
            exact hrest
          · rw [room]
            omega
        rw [first]
        change (unfoldUses program limits frame number _ _ rest >>= _) = _
        rw [second]
        simp only [placeAll, place_introducing, placeAll_introducing, introducing_introducing,
          bind, Except.bind]

/-! ## Placed outcomes -/

theorem nodes_place (unfolding : Unfolding) (site : UseSite) (outcome : Outcome) :
    (unfolding.place site outcome).1.nodes.toList =
      unfolding.nodes.toList ++ nodesOf [outcome] := by
  cases outcome <;> simp [place]

theorem scopes_place (unfolding : Unfolding) (site : UseSite) (outcome : Outcome) :
    (unfolding.place site outcome).1.scopes = unfolding.scopes ++ scopesOf [outcome] := by
  cases outcome <;> simp [place, scopes]

theorem nodesOf_cons (outcome : Outcome) (rest : List Outcome) :
    nodesOf (outcome :: rest) = nodesOf [outcome] ++ nodesOf rest := by
  cases outcome <;> rfl

theorem scopesOf_cons (outcome : Outcome) (rest : List Outcome) :
    scopesOf (outcome :: rest) = scopesOf [outcome] ++ scopesOf rest := by
  cases outcome <;> rfl

theorem nodes_placeAll (number : Nat) (unfolding : Unfolding) (next : Nat)
    (outcomes : List Outcome) :
    (unfolding.placeAll number next outcomes).1.nodes.toList =
      unfolding.nodes.toList ++ nodesOf outcomes := by
  induction outcomes generalizing unfolding next with
  | nil => simp [placeAll]
  | cons outcome rest ih =>
      simp only [placeAll, ih, nodes_place, nodesOf_cons outcome rest, List.append_assoc]

theorem scopes_placeAll (number : Nat) (unfolding : Unfolding) (next : Nat)
    (outcomes : List Outcome) :
    (unfolding.placeAll number next outcomes).1.scopes =
      unfolding.scopes ++ scopesOf outcomes := by
  induction outcomes generalizing unfolding next with
  | nil => simp [placeAll]
  | cons outcome rest ih =>
      simp only [placeAll, ih, scopes_place, scopesOf_cons outcome rest, List.append_assoc]

/-- The frames among the parts are those pushed, one after the other. -/
theorem framesOf_placeAll (number : Nat) (unfolding : Unfolding) (next : Nat)
    (outcomes : List Outcome) :
    framesOf (unfolding.placeAll number next outcomes).2 =
      List.range' unfolding.frames.size (scopesOf outcomes).length := by
  induction outcomes generalizing unfolding next with
  | nil => rfl
  | cons outcome rest ih =>
      cases outcome with
      | node node => simpa [placeAll, place, framesOf] using ih _ _
      | body scope =>
          have later := ih (unfolding.place ⟨number, next⟩ (.body scope)).1 (next + 1)
          simp only [place, Array.size_push] at later
          simpa [placeAll, place, framesOf, List.range'_succ] using later

/-! ## One frame -/

theorem scopes_setParts (unfolding : Unfolding) (number : Nat) (parts : List Part) :
    (unfolding.setParts number parts).scopes = unfolding.scopes := by
  apply List.ext_getElem?
  intro index
  simp only [scopes, setParts, List.getElem?_map, Array.getElem?_toList,
    Array.getElem?_modify]
  split
  · cases unfolding.frames[index]? <;> rfl
  · rfl

theorem size_scopes (unfolding : Unfolding) : unfolding.scopes.length = unfolding.frames.size := by
  simp [scopes]

theorem charged_eq (unfolding : Unfolding) :
    unfolding.charged = unfolding.nodes.toList.length + unfolding.scopes.length := by
  simp [charged, size_scopes]

/-- A frame is settled with what its scope makes of its uses, if there is room. -/
theorem unfoldFrame_eq_ok_iff {unfolding : Unfolding} {number : Nat} {scope : Scope}
    (found : unfolding.scopes[number]? = some scope)
    (fit : ∀ use ∈ scope.body.uses, use.Fits program) {result : Unfolding × List Nat} :
    unfolding.unfoldFrame program limits number = .ok result ↔
      ∃ outcomes introduction,
        scope.becomeAll program limits.depth unfolding.introduction scope.body.uses =
          some (outcomes, introduction) ∧
        outcomes.length ≤ unfolding.room limits ∧
        result = (unfolding.settle number outcomes introduction,
          List.range' unfolding.frames.size (scopesOf outcomes).length) := by
  obtain ⟨frame, hframe, rfl⟩ : ∃ frame, unfolding.frames[number]? = some frame ∧
      frame.scope = scope := by
    simpa [scopes, List.getElem?_map] using found
  have settled : ∀ outcomes introduction,
      (((unfolding.introducing introduction).placeAll number 0 outcomes).1.setParts number
          ((unfolding.introducing introduction).placeAll number 0 outcomes).2,
        framesOf ((unfolding.introducing introduction).placeAll number 0 outcomes).2) =
      (unfolding.settle number outcomes introduction,
        List.range' unfolding.frames.size (scopesOf outcomes).length) := by
    intro outcomes introduction
    rw [framesOf_placeAll, placeAll_introducing]
    rfl
  unfold unfoldFrame
  rw [hframe]
  constructor
  · intro unfolded
    obtain ⟨placed, hplaced, unfolded⟩ := exists_ok_of_bind unfolded
    cases unfolded
    obtain ⟨outcomes, introduction, hall, room, rfl⟩ := (unfoldUses_eq_ok_iff fit).mp hplaced
    exact ⟨outcomes, introduction, hall, room, settled outcomes introduction⟩
  · rintro ⟨outcomes, introduction, hall, room, rfl⟩
    have placed : unfolding.unfoldUses program limits frame number 0 frame.scope.body.uses =
        .ok ((unfolding.introducing introduction).placeAll number 0 outcomes) :=
      (unfoldUses_eq_ok_iff fit).mpr ⟨outcomes, introduction, hall, room, rfl⟩
    rw [← settled]
    change (unfoldUses program limits frame number unfolding 0 frame.scope.body.uses >>= _) = _
    rw [placed]
    rfl

theorem nodes_settle (unfolding : Unfolding) (number : Nat) (outcomes : List Outcome)
    (introduction : Nat) :
    (unfolding.settle number outcomes introduction).nodes.toList =
      unfolding.nodes.toList ++ nodesOf outcomes :=
  nodes_placeAll number unfolding 0 outcomes

theorem scopes_settle (unfolding : Unfolding) (number : Nat) (outcomes : List Outcome)
    (introduction : Nat) :
    (unfolding.settle number outcomes introduction).scopes =
      unfolding.scopes ++ scopesOf outcomes := by
  unfold settle
  rw [scopes_setParts]
  exact scopes_placeAll number unfolding 0 outcomes

@[simp]
theorem introduction_settle (unfolding : Unfolding) (number : Nat) (outcomes : List Outcome)
    (introduction : Nat) :
    (unfolding.settle number outcomes introduction).introduction = introduction := rfl

/-! ## One turn of a run -/

/-- The first pending frame is unfolded, before what is in it and all the others. -/
theorem unfoldAll_step (unfolding : Unfolding) (number : Nat) (rest : List Nat) :
    unfolding.unfoldAll program limits (number :: rest) =
      if limits.expired then .error .deadline
      else
        match unfolding.unfoldFrame program limits number with
        | .error error => .error error
        | .ok (after, later) => after.unfoldAll program limits (later ++ rest) := by
  rw [unfoldAll]
  split
  · rfl
  · split
    · next failed => rw [failed]
    · next unfolded => rw [unfolded]

end Unfolding

end FlowDiagram

import FlowDiagram.Proofs.Expansion.Paths
import FlowDiagram.Proofs.Unfolding.Deepening

/-!
# Calls and what they introduce

A call is a use of a definition as it stands in an expansion, unfolded or cut off, with the symbols
that it is under.  What a call introduces was made by an introduction of its own: calls found one
after the other draw their numbers from intervals that lie one behind the other.
-/

namespace FlowDiagram

/-! ## Calls -/

/-- A use of a definition that has been unfolded or cut off. -/
structure Call where
  path : List String
  definition : String
  generators : List Symbol
  deriving DecidableEq

def Instance.call (unfolded : Instance) : Call :=
  ⟨unfolded.path, unfolded.definition, unfolded.generators⟩

def Node.call? (node : Node) : Option Call :=
  match node.kind with
  | .primitive _ => none
  | .truncated definition generators => some ⟨node.provenance.path, definition, generators⟩

/-- All calls of a graph: the instances, then what was cut off. -/
def PortGraph.calls (graph : PortGraph) : List Call :=
  graph.instances.map Instance.call ++ graph.nodes.toList.filterMap Node.call?

def Listing.calls (listing : Listing) : List Call :=
  listing.instances.map Instance.call ++ listing.nodes.filterMap Node.call?

theorem Listing.calls_append (first later : Listing) :
    (first.append later).calls.Perm (first.calls ++ later.calls) := by
  simp only [calls, append, instances, List.map_append, List.filterMap_append, List.append_assoc]
  exact (List.perm_append_comm_assoc _ _ _).append_left _

/-- A use of a definition becomes one call of it, any other use none. -/
theorem Scope.calls_of_become {program : ResolvedProgram} {depth number next : Nat} {scope : Scope}
    {use : ResolvedUse} {outcome : Outcome}
    (become : scope.become program depth number use = some (outcome, next)) :
    ((Listing.ofOutcomes [outcome] next).calls = [] ∧ next = number) ∨
      ∃ index arguments fresh callee, use.target = .definition index arguments fresh ∧
        program.definitions[index]? = some callee ∧
        (Listing.ofOutcomes [outcome] next).calls = [⟨scope.path ++ [use.name], callee.name,
          bindArguments scope.bind number callee.universal.length fresh arguments⟩] ∧
        next = nextIntroduction number callee.universal.length fresh arguments := by
  cases becomes_of_become become with
  | primitive target => exact .inl ⟨rfl, rfl⟩
  | truncated target found bound many =>
      subst bound
      exact .inr ⟨_, _, _, _, target, found, rfl, rfl⟩
  | body target found bound few =>
      subst bound
      exact .inr ⟨_, _, _, _, target, found, rfl, rfl⟩

/-! ## What a call introduces -/

/--
The symbols that a call introduces: those that stand for the existential symbols of its definition,
if its use leaves them to the definition.
-/
def Program.introduced (program : Program) (root : Definition) (call : Call) : List Symbol :=
  match program.useAt? root call.path with
  | none => []
  | some use =>
    match program.callee? use with
    | none => []
    | some callee =>
      if use.leavesExistential then call.generators.drop callee.generics.universal.length else []

/--
A call is that of the use at its path, and the symbols that it introduces, if any, were made by the
introduction `number`.
-/
structure Program.Explains (program : Program) (root : Definition) (number : Nat) (call : Call)
    (use : Use) (callee : Definition) : Prop where
  found : program.useAt? root call.path = some use
  names : program.callee? use = some callee
  named : call.definition = callee.name.name
  introduced : program.introduced root call =
    if use.leavesExistential then
      callee.generics.existential.map fun ident => Symbol.fresh ident.name number
    else []

theorem drop_bindArguments (bind : Symbol → Symbol) (number : Nat) {universal : Nat}
    {arguments : List Symbol} (enough : universal ≤ arguments.length) :
    (bindArguments bind number universal true arguments).drop universal =
      (arguments.drop universal).map (Symbol.fresh · number) := by
  have length : ((arguments.take universal).map bind).length = universal := by simp [enough]
  rw [bindArguments, if_pos rfl, List.drop_append_of_le_length (Nat.le_of_eq length.symm),
    List.drop_of_length_le (Nat.le_of_eq length), List.nil_append]

/-- The call that a use becomes in a body at its path is explained by that use. -/
theorem Program.explains_call {program : Program} {root : Definition} {path : List String}
    {use : ResolvedUse} (found : program.resolved.useAt? (program.bound root) (path ++ [use.name]) =
      some use) {index : Nat} {arguments : List Symbol} {fresh : Bool}
    (target : use.target = .definition index arguments fresh) {callee : ResolvedDefinition}
    (known : program.resolved.definitions[index]? = some callee) (bind : Symbol → Symbol)
    (number : Nat) :
    ∃ written definition, program.bound definition = callee ∧
      program.Explains root number ⟨path ++ [use.name], callee.name,
        bindArguments bind number callee.universal.length fresh arguments⟩ written definition ∧
      (program.introduced root ⟨path ++ [use.name], callee.name,
        bindArguments bind number callee.universal.length fresh arguments⟩ ≠ [] →
          number < nextIntroduction number callee.universal.length fresh arguments) := by
  obtain ⟨written, hwritten, resolves⟩ := Program.useAt_of_bound found
  obtain ⟨name, generics, definition, hbox, first, listed, passes⟩ :=
    Use.definition_of_resolve resolves target
  rw [Program.resolved_getElem?, listed] at known
  cases known
  obtain ⟨leaves, own⟩ := bindGenerics_fresh passes
  have hcallee : program.callee? written = some definition := by
    simp only [Program.callee?, hbox, first]
  have hleaves : written.leavesExistential = fresh := by
    rw [leaves, Use.leavesExistential, hbox]
    cases generics <;> rfl
  have universal : (program.bound definition).universal.length =
      definition.generics.universal.length := List.length_map ..
  have count := bindGenerics_length passes
  have introduced : program.introduced root ⟨path ++ [use.name], (program.bound definition).name,
      bindArguments bind number (program.bound definition).universal.length fresh arguments⟩ =
        if written.leavesExistential then
          definition.generics.existential.map fun ident => Symbol.fresh ident.name number
        else [] := by
    simp only [Program.introduced, hwritten, hcallee, hleaves, universal]
    cases fresh with
    | false => rfl
    | true =>
        rw [if_pos rfl, if_pos rfl, drop_bindArguments bind number (by omega), own rfl,
          List.map_map]
        rfl
  refine ⟨written, definition, rfl, ⟨hwritten, hcallee, rfl, introduced⟩, fun some_ => ?_⟩
  rw [introduced, hleaves] at some_
  cases fresh with
  | false => exact absurd rfl some_
  | true =>
      have : definition.generics.existential ≠ [] := by simpa using some_
      have positive := List.length_pos_of_ne_nil this
      rw [nextIntroduction, if_pos ⟨rfl, by omega⟩]
      exact Nat.lt_succ_self number

/-! ## Numbers of introductions -/

/--
Calls are those of the uses at their paths, what they introduce was made by introductions from
`before` up to `after`, and no two of them introduce the same symbol.
-/
structure Program.Introduces (program : Program) (root : Definition) (before after : Nat)
    (calls : List Call) : Prop where
  le : before ≤ after
  each : ∀ call ∈ calls, ∃ number use callee, before ≤ number ∧
    program.Explains root number call use callee ∧
    (program.introduced root call ≠ [] → number < after)
  apart : calls.Pairwise fun first later =>
    (program.introduced root first).Disjoint (program.introduced root later)

namespace Program.Introduces

variable {program : Program} {root : Definition} {before middle after : Nat}
  {calls more : List Call}

theorem nil (number : Nat) : program.Introduces root number number [] :=
  ⟨Nat.le_refl number, nofun, .nil⟩

theorem perm (introduces : program.Introduces root before after calls) (perm : more.Perm calls) :
    program.Introduces root before after more where
  le := introduces.le
  each := fun call member => introduces.each call (perm.mem_iff.mp member)
  apart := by
    have symmetric : ∀ {first later : Call},
        (program.introduced root first).Disjoint (program.introduced root later) →
          (program.introduced root later).Disjoint (program.introduced root first) :=
      List.disjoint_symm
    exact (perm.pairwise_iff symmetric).mpr introduces.apart

/-- Every symbol that a call introduces has the number of its introduction. -/
theorem number_of_mem (written_ : program.IsWritten)
    (introduces : program.Introduces root before after calls) {call : Call} (member : call ∈ calls)
    {symbol : Symbol} (held : symbol ∈ program.introduced root call) :
    ∃ number, symbol.number? = some number ∧ before ≤ number ∧ number < after := by
  obtain ⟨number, use, callee, le, explains, below⟩ := introduces.each call member
  have lt := below (List.ne_nil_of_mem held)
  rw [explains.introduced] at held
  split at held
  · obtain ⟨ident, named, rfl⟩ := List.mem_map.mp held
    have known := Program.callee?_mem explains.names
    have writtenName := (written_ callee known).generics.2 ident named
    exact ⟨number, Symbol.number?_fresh writtenName number, le, lt⟩
  · cases held

/-- Calls found later introduce what none before introduced. -/
theorem append (written_ : program.IsWritten)
    (first : program.Introduces root before middle calls)
    (later : program.Introduces root middle after more) :
    program.Introduces root before after (calls ++ more) where
  le := first.le.trans later.le
  each := by
    intro call member
    rcases List.mem_append.mp member with old | new
    · obtain ⟨number, use, callee, le, explains, below⟩ := first.each call old
      exact ⟨number, use, callee, le, explains, fun some_ => (below some_).trans_le later.le⟩
    · obtain ⟨number, use, callee, le, explains, below⟩ := later.each call new
      exact ⟨number, use, callee, first.le.trans le, explains, below⟩
  apart := by
    refine List.pairwise_append.mpr ⟨first.apart, later.apart, fun call old other new => ?_⟩
    intro symbol held heldLater
    obtain ⟨number, made, -, below⟩ := first.number_of_mem written_ old held
    obtain ⟨same, madeLater, above, -⟩ := later.number_of_mem written_ new heldLater
    cases made.symm.trans madeLater
    omega

end Program.Introduces

/-! ## Calls of a listing -/

section Listings

variable {program : Program} {root : Definition} {depth : Nat} {scope : Scope}

/-- A scope stands where its path leads to. -/
def Scope.PlacedIn (program : Program) (root : Definition) (scope : Scope) : Prop :=
  program.resolved.bodyAt? (program.bound root) scope.path = some scope.body

theorem ResolvedProgram.useAt?_concat {program : ResolvedProgram} {root body : ResolvedDefinition}
    {path : List String} (found : program.bodyAt? root path = some body) {use : ResolvedUse}
    (named : body.uses.find? (·.name == use.name) = some use) :
    program.useAt? root (path ++ [use.name]) = some use := by
  simp only [useAt?, List.dropLast_concat, found, Option.bind_some, List.getLast?_concat, named]

theorem Scope.PlacedIn.find?_name (known : root ∈ program.definitions)
    (placed : scope.PlacedIn program root) {use : ResolvedUse} (member : use ∈ scope.body.uses) :
    scope.body.uses.find? (·.name == use.name) = some use := by
  have listed : program.bound root ∈ program.resolved.definitions := by
    obtain ⟨index, found⟩ := List.mem_iff_getElem?.mp known
    have bound := program.resolved_getElem? index
    rw [found] at bound
    exact List.mem_of_getElem? bound
  have body := ResolvedProgram.bodyAt?_mem listed placed
  exact ResolvedDefinition.find?_name (program.resolved_sound _ body).names_distinct member

/-- The bodies that uses become stand where the names of the uses lead to. -/
theorem Scope.PlacedIn.inner (known : root ∈ program.definitions)
    (placed : scope.PlacedIn program root) {use : ResolvedUse} (member : use ∈ scope.body.uses)
    {number next : Nat} {inner : Scope}
    (become : scope.become program.resolved depth number use = some (.body inner, next)) :
    inner.PlacedIn program root := by
  obtain ⟨path, index, arguments, fresh, target, found⟩ := Scope.become_eq_body become
  unfold PlacedIn
  rw [path]
  exact ResolvedProgram.bodyAt?_concat placed (placed.find?_name known member) target found

theorem Scope.introduces_become (known : root ∈ program.definitions)
    (placed : scope.PlacedIn program root) {use : ResolvedUse} (member : use ∈ scope.body.uses)
    {before after : Nat} {outcome : Outcome}
    (become : scope.become program.resolved depth before use = some (outcome, after)) :
    program.Introduces root before after (Listing.ofOutcomes [outcome] after).calls := by
  rcases Scope.calls_of_become become with ⟨none_, rfl⟩ |
    ⟨index, arguments, fresh, callee, target, found, one, rfl⟩
  · rw [none_]
    exact .nil after
  · have here := ResolvedProgram.useAt?_concat placed (placed.find?_name known member)
    obtain ⟨written, definition, -, explains, below⟩ :=
      Program.explains_call here target found scope.bind before
    rw [one]
    refine ⟨le_nextIntroduction .., ?_, List.pairwise_singleton ..⟩
    intro call only
    rw [List.mem_singleton.mp only]
    exact ⟨before, written, definition, Nat.le_refl before, explains, below⟩

theorem Scope.introduces_becomeAll (written_ : program.IsWritten)
    (known : root ∈ program.definitions) (placed : scope.PlacedIn program root)
    {uses : List ResolvedUse} (among : ∀ use ∈ uses, use ∈ scope.body.uses) {before after : Nat}
    {outcomes : List Outcome}
    (become : scope.becomeAll program.resolved depth before uses = some (outcomes, after)) :
    program.Introduces root before after (Listing.ofOutcomes outcomes after).calls ∧
      ∀ inner ∈ scopesOf outcomes, inner.PlacedIn program root := by
  induction uses generalizing before outcomes with
  | nil =>
      cases become
      exact ⟨.nil after, nofun⟩
  | cons use rest ih =>
      obtain ⟨outcome, middle, others, hfirst, hrest, rfl⟩ :=
        Unfolding.becomeAll_cons_eq_some.mp become
      obtain ⟨later, placedLater⟩ := ih (fun other member => among other (by simp [member])) hrest
      have first := introduces_become known placed (among use (by simp)) hfirst
      have split : Listing.ofOutcomes (outcome :: others) after =
          (Listing.ofOutcomes [outcome] middle).append (.ofOutcomes others after) := by
        simp only [Listing.ofOutcomes, Listing.append, ← Unfolding.nodesOf_cons,
          ← Unfolding.scopesOf_cons]
      refine ⟨?_, fun inner member => ?_⟩
      · rw [split]
        exact (first.append written_ later).perm (Listing.calls_append ..)
      · rw [Unfolding.scopesOf_cons] at member
        rcases List.mem_append.mp member with here | there
        · cases outcome with
          | node node => cases here
          | body scope =>
              obtain rfl : inner = scope := by simpa using here
              exact placed.inner known (among use (by simp)) hfirst
        · exact placedLater inner there

theorem Listing.introduces_ofScopes (written_ : program.IsWritten)
    {unfold : Scope → Nat → Option Listing} {scopes : List Scope}
    (each : ∀ scope ∈ scopes, ∀ (number : Nat) (listing : Listing),
      unfold scope number = some listing →
        program.Introduces root number listing.next listing.calls)
    {before : Nat} {listing : Listing} (unfolded : ofScopes unfold scopes before = some listing) :
    program.Introduces root before listing.next listing.calls := by
  induction scopes generalizing before listing with
  | nil =>
      cases unfolded
      exact .nil before
  | cons scope rest ih =>
      obtain ⟨first, later, hfirst, hlater, rfl⟩ := ofScopes_cons_eq_some.mp unfolded
      have introducesFirst := each scope (by simp) before first hfirst
      have introducesLater := ih (fun other member => each other (by simp [member])) hlater
      exact (introducesFirst.append written_ introducesLater).perm (calls_append ..)

/-- What the calls below a body introduce is numbered by the introductions made meanwhile. -/
theorem Scope.introduces_unfold (written_ : program.IsWritten) (known : root ∈ program.definitions)
    {nesting : Nat} (placed : scope.PlacedIn program root) {before : Nat} {listing : Listing}
    (unfolded : scope.unfold program.resolved depth nesting before = some listing) :
    program.Introduces root before listing.next listing.calls := by
  induction nesting generalizing scope before listing with
  | zero => cases unfolded
  | succ nesting ih =>
      obtain ⟨outcomes, next, inner, houtcomes, hinner, rfl⟩ := unfold_succ_eq_some.mp unfolded
      obtain ⟨own, placedInner⟩ :=
        introduces_becomeAll written_ known placed (fun _ member => member) houtcomes
      have below : program.Introduces root next inner.next inner.calls :=
        Listing.introduces_ofScopes written_
          (fun scope member _ _ => ih (placedInner scope member)) hinner
      exact (own.append written_ below).perm (Listing.calls_append ..)

end Listings

end FlowDiagram

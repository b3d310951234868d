import FlowDiagram.Proofs.Expansion.Paths
import FlowDiagram.Proofs.Resolution.Spans
import FlowDiagram.Proofs.Resolution.WellFormed
import FlowDiagram.Proofs.Unfolding.Moving

/-!
# Definitions in another program

A definition is bound by the names in its body.  If what it names stands in another program as well,
each under a name of its own, then the definition is bound there as it is here, but for the numbers
of the definitions that it uses.
-/

namespace FlowDiagram

/-! ## Distinct names -/

/-- Nothing is refused exactly when all names are different, and none is held already. -/
theorem Registry.registerAll_errors_eq_nil_iff {registry : Registry} (inStep : registry.InStep)
    {index : Nat} {definitions : List Definition} :
    (registry.registerAll index definitions).2 = [] ↔
      (definitions.map (·.name.name)).Nodup ∧
        ∀ definition ∈ definitions, registry.find? definition.name.name = none := by
  induction definitions generalizing registry index with
  | nil => simp [registerAll]
  | cons definition rest ih =>
      cases held : registry.find? definition.name.name with
      | some entry => simp [registerAll_of_held held, held]
      | none =>
          rw [registerAll_of_new held]
          have added : ∀ name, (registry.add index definition).find? name = none ↔
              registry.find? name = none ∧ definition.name.name ≠ name := by
            intro name
            simp [inStep.find?_add held]
          simp only [ih (inStep.add held), added, List.map_cons, List.nodup_cons, List.mem_map,
            List.mem_cons, forall_eq_or_imp, held, true_and]
          grind

/-- No definition is refused exactly when all have different names. -/
theorem Registry.ofProgram_errors_eq_nil_iff {program : Program} :
    (Registry.ofProgram program).2 = [] ↔ (program.definitions.map (·.name.name)).Nodup := by
  unfold ofProgram
  rw [registerAll_errors_eq_nil_iff empty_inStep]
  exact and_iff_left fun _ _ => rfl

/-- Where names are different, a definition is the first of its name. -/
theorem Program.definition?_of_mem {program : Program} {definition : Definition}
    (distinct : (program.definitions.map (·.name.name)).Nodup)
    (member : definition ∈ program.definitions) :
    program.definition? definition.name.name = some definition :=
  find?_eq_of_nodup_map (fun other : Definition => other.name.name) distinct member

/-! ## Places -/

/-- The number under which a definition of the first program stands in the second. -/
def Program.placeIn (first second : Program) (index : Nat) : Nat :=
  match first.definitions[index]? with
  | none => 0
  | some definition => second.definitions.findIdx (·.name.name == definition.name.name)

variable {first second : Program}

theorem Program.definitions_placeIn (distinct : (second.definitions.map (·.name.name)).Nodup)
    {index : Nat} {definition : Definition} (found : first.definitions[index]? = some definition)
    (stands : definition ∈ second.definitions) :
    second.definitions[first.placeIn second index]? = some definition := by
  rw [placeIn, found]
  dsimp only
  have inside : second.definitions.findIdx (·.name.name == definition.name.name) <
      second.definitions.length :=
    List.findIdx_lt_length_of_exists ⟨definition, stands, beq_self_eq_true _⟩
  have same := beq_iff_eq.mp (List.findIdx_getElem (w := inside))
  rw [List.getElem?_eq_getElem inside,
    List.inj_on_of_nodup_map distinct (List.getElem_mem inside) stands same]

/-- Where names are different, a definition stands at its place only. -/
theorem Program.placeIn_eq (distinct : (second.definitions.map (·.name.name)).Nodup)
    {index place : Nat} {definition : Definition}
    (found : first.definitions[index]? = some definition)
    (there : second.definitions[place]? = some definition) :
    first.placeIn second index = place := by
  have placed := definitions_placeIn distinct found (List.mem_of_getElem? there)
  have inside := (List.getElem?_eq_some_iff.mp placed).1
  exact (List.getElem?_inj inside distinct.of_map).mp (placed.trans there.symm)

/-! ## Uses -/

theorem Use.bindPorts_move (use : Use) (target : UseTarget) (inputs outputs : Nat)
    (place : Nat → Nat) :
    use.bindPorts (target.move place) inputs outputs =
      (use.bindPorts target inputs outputs).map (ResolvedUse.move place) := by
  unfold bindPorts
  split
  · rfl
  · rfl

/-- A use of a definition is bound to where that stands, as the first of its name. -/
theorem Use.resolveDefinition_eq {program : Program} {name : Ident} {callee : Definition}
    (use : Use) (arguments : Option Generics)
    (first : program.definition? name.name = some callee) :
    ∃ index, program.definitions[index]? = some callee ∧
      use.resolveDefinition program (Registry.ofProgram program).1 name arguments =
        (bindGenerics callee arguments >>= fun passed =>
          use.bindPorts (.definition index passed.1 passed.2) callee.ports.inputs.length
            callee.ports.outputs.length) := by
  have registered := Registry.find?_ofProgram program name.name
  unfold resolveDefinition
  cases hentry : (Registry.ofProgram program).1.find? name.name with
  | none =>
      rw [hentry] at registered
      cases registered.symm.trans first
  | some entry =>
      rw [hentry] at registered
      obtain ⟨other, hother, listed, described⟩ := registered
      cases hother.symm.trans first
      refine ⟨entry.index, listed, ?_⟩
      simp only [listed]
      rw [described]
      rfl

/-- A use is bound in another program where what it names stands, to where that stands. -/
theorem Use.resolve_move (distinct : (second.definitions.map (·.name.name)).Nodup) {use : Use}
    {bound : ResolvedUse}
    (resolves : use.resolve first (Registry.ofProgram first).1 = .ok bound)
    (stands : ∀ callee, first.callee? use = some callee → callee ∈ second.definitions) :
    use.resolve second (Registry.ofProgram second).1 =
      .ok (bound.move (first.placeIn second)) := by
  cases named : use.box.primitive? with
  | some looked =>
      cases looked with
      | error error =>
          rw [Use.resolve_of_error named] at resolves
          cases resolves
      | ok primitive =>
          rw [Use.resolve_of_ok named] at resolves ⊢
          have moved := use.bindPorts_move (.primitive primitive) primitive.inputs
            primitive.outputs (first.placeIn second)
          rw [resolves] at moved
          exact moved
  | none =>
      have unnamed := @BoxRef.hasShape_iff_primitive first use.box 0 0
      rw [named] at unnamed
      obtain ⟨name, arguments, hbox⟩ := unnamed
      simp only [Use.resolve, hbox] at resolves ⊢
      have told : Told _ (use.resolveDefinition first _ name arguments) :=
        use.resolveDefinition_told name arguments
      rw [resolves] at told
      obtain ⟨callee, hfirst, -⟩ := BoxRef.hasShape_definition_iff.mp told
      have names : first.callee? use = some callee := by
        simp only [Program.callee?, hbox, hfirst]
      have hname : callee.name.name = name.name := by simpa using List.find?_some hfirst
      have hsecond := Program.definition?_of_mem distinct (stands callee names)
      rw [hname] at hsecond
      obtain ⟨index, found, binds⟩ := use.resolveDefinition_eq arguments hfirst
      obtain ⟨there, foundThere, bindsThere⟩ := use.resolveDefinition_eq arguments hsecond
      rw [binds] at resolves
      obtain ⟨passed, passes, ports⟩ := exists_ok_of_bind resolves
      have moved := use.bindPorts_move (.definition index passed.1 passed.2)
        callee.ports.inputs.length callee.ports.outputs.length (first.placeIn second)
      rw [ports, UseTarget.move, Program.placeIn_eq distinct found foundThere] at moved
      rw [bindsThere, passes]
      exact moved

/-! ## Bodies -/

/-- The instances of a body with the definitions used moved. -/
def Instances.move (place : Nat → Nat) (known : Instances) : Instances :=
  { known with uses := known.uses.map (ResolvedUse.move place) }

theorem Instances.add_move (definition : String) (known : Instances) {use : Use}
    {bound : ResolvedUse} {place : Nat → Nat}
    (resolves : use.resolve first (Registry.ofProgram first).1 = .ok bound)
    (resolvesThere : use.resolve second (Registry.ofProgram second).1 = .ok (bound.move place)) :
    (known.move place).add second (Registry.ofProgram second).1 definition use =
      (known.add first (Registry.ofProgram first).1 definition use).move place := by
  have found : (known.move place).find? use.name.name = known.find? use.name.name := rfl
  unfold add
  rw [found, resolves, resolvesThere]
  cases known.find? use.name.name with
  | some first => rfl
  | none => simp [move]

/-- Only the ports of bound uses are looked at by links. -/
theorem PortRef.resolve_move (definition : Definition) (known : Instances) (place : Nat → Nat)
    (role : LinkRole) (ref : PortRef) :
    ref.resolve definition (known.move place) role = ref.resolve definition known role := by
  have found : ∀ name, (known.move place).find? name = known.find? name := fun _ => rfl
  have uses : ∀ number : Nat, (known.move place).uses[number]? =
      known.uses[number]?.map (ResolvedUse.move place) := fun _ => List.getElem?_map
  have ports : ∀ (use : ResolvedUse) side, (use.move place).ports side = use.ports side := by
    intro use side
    cases side <;> rfl
  unfold resolve
  simp only [found, uses]
  cases ref.owner with
  | none => rfl
  | some owner =>
      dsimp only
      cases known.find? owner.name with
      | none => rfl
      | some name =>
          obtain ⟨ident, number⟩ := name
          cases number with
          | none => rfl
          | some number =>
              dsimp only
              cases known.uses[number]? with
              | none => rfl
              | some use => simp only [Option.map_some, ports]

theorem Wiring.add_move (definition : Definition) (known : Instances) (place : Nat → Nat) :
    Wiring.add definition (known.move place) = Wiring.add definition known := by
  funext wiring link
  simp only [add, PortRef.resolve_move]

/-- A body is bound in another program where all that it names stands, to where that stands. -/
theorem Program.bound_move (distinct : (second.definitions.map (·.name.name)).Nodup)
    {definition : Definition} (wellFormed : definition.WellFormed first)
    (stands : ∀ use ∈ definition.uses, ∀ callee, first.callee? use = some callee →
      callee ∈ second.definitions) :
    second.bound definition = (first.bound definition).move (first.placeIn second) := by
  have bind : ∀ uses : List Use, uses ⊆ definition.uses → ∀ known : Instances,
      uses.foldl (Instances.add second (Registry.ofProgram second).1 definition.name.name)
          (known.move (first.placeIn second)) =
        (uses.foldl (Instances.add first (Registry.ofProgram first).1 definition.name.name)
          known).move (first.placeIn second) := by
    intro uses within
    induction uses with
    | nil => exact fun _ => rfl
    | cons use rest ih =>
        obtain ⟨member, later⟩ := List.cons_subset.mp within
        intro known
        have told := Use.resolve_told first use
        cases resolves : use.resolve first (Registry.ofProgram first).1 with
        | error errors =>
            rw [resolves] at told
            exact absurd (wellFormed.uses use member).shape told.1
        | ok bound =>
            have resolvesThere := Use.resolve_move distinct resolves (stands use member)
            rw [List.foldl_cons, List.foldl_cons,
              Instances.add_move _ known resolves resolvesThere]
            exact ih later _
  have known := bind definition.uses (List.Subset.refl _) .empty
  change definition.uses.foldl (Instances.add second _ definition.name.name) .empty = _ at known
  unfold bound Definition.resolve
  dsimp only
  rw [known, Wiring.add_move]
  rfl

end FlowDiagram

import FlowDiagram.Expansion
import FlowDiagram.Proofs.Unfolding.Altering

/-!
# Moved definitions

Unfolding knows definitions by their numbers.  Where the definitions that one program needs stand at
other numbers of another one, what refers to them being moved likewise, both programs unfold them
alike: numbers serve to find definitions and to tell them apart, and never come out.
-/

namespace FlowDiagram

/-! ## Moving -/

/-- The definition that a use refers to. -/
def ResolvedUse.Refers (use : ResolvedUse) (index : Nat) : Prop :=
  ∃ arguments fresh, use.target = .definition index arguments fresh

def UseTarget.move (place : Nat → Nat) : UseTarget → UseTarget
  | .primitive box => .primitive box
  | .definition index arguments fresh => .definition (place index) arguments fresh

def ResolvedUse.move (place : Nat → Nat) (use : ResolvedUse) : ResolvedUse :=
  { use with target := use.target.move place }

def ResolvedDefinition.move (place : Nat → Nat) (definition : ResolvedDefinition) :
    ResolvedDefinition :=
  { definition with uses := definition.uses.map (ResolvedUse.move place) }

def Application.move (place : Nat → Nat) (application : Application) : Application :=
  { application with definition := place application.definition }

def Frame.move (place : Nat → Nat) (frame : Frame) : Frame :=
  { frame with
    body := frame.body.move place
    applications := frame.applications.map (Application.move place) }

/-- The alteration that moves definitions. -/
def Alteration.moving (place : Nat → Nat) : Alteration :=
  ⟨Frame.move place, id, ResolvedUse.move place⟩

/--
The definitions that are needed stand in another program too, at different places, and refer to
needed definitions only.
-/
structure ResolvedProgram.Keeps (first second : ResolvedProgram) (place : Nat → Nat)
    (Needed : Nat → Prop) : Prop where
  injective : ∀ index other, Needed index → Needed other → place index = place other →
    index = other
  moved : ∀ index, Needed index → ∃ definition, first.definitions[index]? = some definition ∧
    second.definitions[place index]? = some (definition.move place)
  closed : ∀ index definition, Needed index → first.definitions[index]? = some definition →
    ∀ use ∈ definition.uses, ∀ callee, use.Refers callee → Needed callee

/-- All that a frame refers to is needed. -/
structure Frame.Needs (Needed : Nat → Prop) (frame : Frame) : Prop where
  uses : ∀ use ∈ frame.body.uses, ∀ index, use.Refers index → Needed index
  applications : ∀ application ∈ frame.applications, Needed application.definition

/-! ## What is left alone -/

theorem Alteration.moving_neutral (place : Nat → Nat) : (moving place).Neutral :=
  ⟨fun _ => rfl, fun _ => rfl, fun _ => rfl, fun _ _ => rfl, fun _ => rfl⟩

@[simp]
theorem Frame.binding_move (place : Nat → Nat) (frame : Frame) :
    (frame.move place).binding = frame.binding := by
  simp only [Frame.binding, Frame.move]
  cases frame.applications <;> rfl

/-- The same symbols are bound. -/
theorem Frame.bind_move (place : Nat → Nat) (frame : Frame) :
    (frame.move place).body.bind (frame.move place).binding = frame.body.bind frame.binding := by
  rw [Frame.binding_move]
  rfl

/-- The same is told of instances, and of the nodes, which are left alone. -/
theorem Unfolding.plan_moving (place : Nat → Nat) (unfolding : Unfolding)
    (root : ResolvedDefinition) (binding : List Symbol) :
    (unfolding.alter (.moving place)).plan (root.move place) binding =
      unfolding.plan root binding := by
  have instances : (unfolding.alter (.moving place)).instances = unfolding.instances := by
    simp only [instances, alter, Alteration.moving, Array.toList_map, ← List.map_tail,
      List.map_map]
    refine List.map_congr_left fun frame _ => ?_
    rw [Function.comp_apply, Frame.binding_move]
    rfl
  have nodes : (unfolding.alter (.moving place)).nodes = unfolding.nodes :=
    Array.map_id unfolding.nodes
  rw [plan, instances, nodes]
  rfl

variable {first second : ResolvedProgram} {place : Nat → Nat} {Needed : Nat → Prop}

/-- A definition lies around as often as before, as no other is moved to its place. -/
theorem ResolvedProgram.Keeps.occurrences_move (keeps : first.Keeps second place Needed)
    {applications : List Application} (needed : ∀ application ∈ applications,
      Needed application.definition) {index : Nat} (known : Needed index)
    (universal : List Symbol) :
    occurrences (applications.map (Application.move place)) (place index) universal =
      occurrences applications index universal := by
  unfold occurrences
  rw [List.countP_map]
  refine List.countP_congr fun application member => ?_
  have same : place application.definition = place index ↔ application.definition = index :=
    ⟨keeps.injective _ _ (needed application member) known, fun same => by rw [same]⟩
  simp [Application.move, same]

/-- What a frame that needs only what is kept unfolds to is moved, and needs no more. -/
theorem ResolvedProgram.Keeps.carries (keeps : first.Keeps second place Needed)
    (limits : UnfoldingLimits) :
    (Alteration.moving place).Carries first second limits (Frame.Needs Needed) where
  unfoldUse frame site unfolding needs use member := by
    have target : (use.move place).target = use.target.move place := rfl
    change (unfolding.alter (.moving place)).unfoldUse second limits (frame.move place) site
      (use.move place) = _
    rw [Unfolding.unfoldUse, Unfolding.unfoldUse, target]
    cases htarget : use.target with
    | primitive primitive =>
        refine Unfolding.addNode_alter (.moving place) limits unfolding site ?_
        rw [Frame.bind_move]
        rfl
    | definition index arguments fresh =>
        have known : Needed index := needs.uses use member index ⟨arguments, fresh, htarget⟩
        obtain ⟨callee, found, there⟩ := keeps.moved index known
        refine Unfolding.unfoldDefinition_alter unfolding arguments fresh found there rfl
          (frame.bind_move place) (keeps.occurrences_move needs.applications known) ?_ ?_
        · exact fun _ _ => rfl
        · exact fun _ _ => rfl
  inner outer needs use member index number arguments fresh frame target found applications := by
    have known : Needed index := needs.uses use member index ⟨arguments, fresh, target⟩
    refine ⟨keeps.closed index frame.body known found, ?_⟩
    rw [applications]
    exact List.forall_mem_cons.mpr ⟨known, needs.applications⟩
  setParts _ _ needs := ⟨needs.uses, needs.applications⟩

/-! ## Expansion -/

/-- A needed root expands to the same graph in both programs, or fails for the same reason. -/
theorem ResolvedProgram.Keeps.expand_eq (keeps : first.Keeps second place Needed)
    {root : first.Index} {there : second.Index} (needed : Needed root)
    (placed : (there : Nat) = place root) (generators : Option (List Symbol))
    (limits : UnfoldingLimits) :
    second.expand there generators limits = first.expand root generators limits := by
  obtain ⟨definition, found, foundThere⟩ := keeps.moved root needed
  have body : first.definition root = definition := by
    have listed := List.getElem?_eq_getElem root.isLt
    exact Option.some.inj (listed.symm.trans found)
  have bodyThere : second.definition there = definition.move place := by
    have listed := List.getElem?_eq_getElem there.isLt
    rw [← placed] at foundThere
    exact Option.some.inj (listed.symm.trans foundThere)
  have needs : ∀ binding, (Unfolding.ofRoot root definition binding).All (Frame.Needs Needed) := by
    intro binding number frame listed
    have inside := (Array.getElem?_eq_some_iff.mp listed).1
    obtain rfl : number = 0 := by simpa [Unfolding.ofRoot] using inside
    obtain rfl := Option.some.inj listed
    exact ⟨keeps.closed root definition needed found, List.forall_mem_singleton.mpr needed⟩
  have binding : (definition.move place).rootBinding generators =
      definition.rootBinding generators := by
    cases generators <;> rfl
  unfold expand
  simp only [Unfolding.build_builder]
  rw [body, bodyThere, binding]
  cases definition.rootBinding generators with
  | error error => rfl
  | ok binding =>
      have outset : Unfolding.ofRoot there (definition.move place) binding =
          (Unfolding.ofRoot root definition binding).alter (.moving place) := by
        simp [placed, Unfolding.ofRoot, Unfolding.alter, Alteration.moving, Frame.move,
          Application.move]
      have run := Unfolding.unfoldAll_alter (Alteration.moving_neutral place)
        (keeps.carries limits) (Unfolding.ofRoot root definition binding) [0] (needs binding)
      simp only [bind, Except.bind, outset, run]
      cases (Unfolding.ofRoot root definition binding).unfoldAll first limits [0] with
      | error error => rfl
      | ok unfolding =>
          have edges := Unfolding.edges_alter (Alteration.moving_neutral place) unfolding
            definition.inputs.length
          have inputs : (definition.move place).inputs = definition.inputs := rfl
          simp only [Except.map, Unfolding.plan_moving, inputs, edges]

end FlowDiagram

import FlowDiagram.Expansion
import FlowDiagram.Proofs.PortGraph.Relabelling
import FlowDiagram.Proofs.Unfolding.Altering
import FlowDiagram.Proofs.Unfolding.Renaming

/-!
# Renaming what is expanded

A program expands under renamed generators to the graph that it expands to, renamed.  For that a
renaming has to leave alone the symbols that the program names and those that are introduced under
their names, and to keep different symbols different among these and the generators.
-/

namespace FlowDiagram

/-! ## Symbols of a program -/

/-- The symbols that a use names. -/
def ResolvedUse.symbols (use : ResolvedUse) : List Symbol :=
  match use.target with
  | .primitive primitive => primitive.symbol?.toList
  | .definition _ arguments _ => arguments

/-- The symbols that a definition names: its parameters, and those that its uses name. -/
def ResolvedDefinition.symbols (definition : ResolvedDefinition) : List Symbol :=
  definition.parameters ++ definition.uses.flatMap ResolvedUse.symbols

/-- The symbols that a program names anywhere. -/
def ResolvedProgram.symbols (program : ResolvedProgram) : List Symbol :=
  program.definitions.flatMap ResolvedDefinition.symbols

/--
A renaming that a program cannot tell, as long as it only meets known symbols: it leaves alone what
the program names or introduces, and keeps known symbols apart.
-/
structure ResolvedProgram.Untold (program : ResolvedProgram) (rename : Symbol → Symbol)
    (known : Set Symbol) : Prop where
  named : ∀ symbol ∈ program.symbols, symbol ∈ known ∧ rename symbol = symbol
  introduced : ∀ symbol ∈ program.symbols, ∀ number,
    symbol.fresh number ∈ known ∧ rename (symbol.fresh number) = symbol.fresh number
  apart : Set.InjOn rename known

theorem ResolvedProgram.mem_symbols_of_use {program : ResolvedProgram}
    {definition : ResolvedDefinition} (listed : definition ∈ program.definitions)
    {use : ResolvedUse} (member : use ∈ definition.uses) {symbol : Symbol}
    (named : symbol ∈ use.symbols) : symbol ∈ program.symbols :=
  List.mem_flatMap.mpr ⟨definition, listed,
    List.mem_append_right _ (List.mem_flatMap.mpr ⟨use, member, named⟩)⟩

/-! ## Unfolding -/

def Frame.rename (rename : Symbol → Symbol) (frame : Frame) : Frame :=
  { frame with applications := frame.applications.map (Application.rename rename) }

/-- The alteration that renames symbols. -/
def Alteration.renames (rename : Symbol → Symbol) : Alteration :=
  ⟨Frame.rename rename, Node.rename rename, id⟩

/-- All symbols that a frame and those around it are unfolded under are known. -/
structure Frame.Knows (program : ResolvedProgram) (known : Set Symbol) (frame : Frame) : Prop where
  body : frame.body ∈ program.definitions
  symbols : ∀ application ∈ frame.applications, ∀ symbol ∈ application.binding, symbol ∈ known

theorem Alteration.renames_neutral (rename : Symbol → Symbol) : (renames rename).Neutral :=
  ⟨fun _ => (List.map_id _).symm, fun _ => rfl, fun _ => rfl, fun _ _ => rfl, fun _ => rfl⟩

/-! ## Graphs -/

/-- Rename the symbols of a plan: the generators, and those of the nodes and of the instances. -/
def GraphPlan.rename (rename : Symbol → Symbol) (plan : GraphPlan) : GraphPlan :=
  { plan with
    generators := plan.generators.map rename
    nodes := plan.nodes.map (Node.rename rename)
    instances := plan.instances.map (Instance.rename rename) }

/-- Rename the symbols of a graph; its ports and its edges stay. -/
def PortGraph.rename (rename : Symbol → Symbol) (graph : PortGraph) : PortGraph :=
  { graph with toGraphPlan := graph.toGraphPlan.rename rename }

/-- The relabelling that renames symbols. -/
def Relabelling.renames (rename : Symbol → Symbol) : Relabelling where
  plan := GraphPlan.rename rename
  node := Node.rename rename
  primitive := Primitive.rename rename
  inputs _ := rfl
  outputs _ := rfl
  nodes _ := rfl
  nodeInputs _ := rfl
  nodeOutputs _ := rfl
  kinds before := by cases kind : before.kind <;> simp [Node.rename, kind] <;> rfl

/-! ## Unfolding -/

variable {program : ResolvedProgram} {rename : Symbol → Symbol} {known : Set Symbol}

theorem Frame.binding_rename (rename : Symbol → Symbol) (frame : Frame) :
    (frame.rename rename).binding = frame.binding.map rename := by
  simp only [binding, Frame.rename]
  cases frame.applications <;> rfl

theorem Frame.Knows.binding {frame : Frame} (knows : frame.Knows program known) :
    ∀ symbol ∈ frame.binding, symbol ∈ known := by
  unfold Frame.binding
  cases happlications : frame.applications with
  | nil => simp
  | cons application rest => exact knows.symbols application (by simp [happlications])

namespace ResolvedProgram.Untold

/-- A name stands for the renamed symbol. -/
theorem bind_rename (untold : program.Untold rename known) {frame : Frame} {symbol : Symbol}
    (named : symbol ∈ program.symbols) :
    (frame.rename rename).body.bind (frame.rename rename).binding symbol =
      rename (frame.body.bind frame.binding symbol) := by
  rw [Frame.binding_rename]
  exact frame.body.bind_rename frame.binding (untold.named symbol named).2

theorem bind_mem (untold : program.Untold rename known) {frame : Frame}
    (knows : frame.Knows program known) {symbol : Symbol} (named : symbol ∈ program.symbols) :
    frame.body.bind frame.binding symbol ∈ known := by
  unfold ResolvedDefinition.bind
  cases looked : (frame.body.parameters.zip frame.binding).lookup symbol with
  | none => exact (untold.named symbol named).1
  | some bound =>
      obtain ⟨before, after, split, -⟩ := List.lookup_eq_some_iff.mp looked
      have member : (symbol, bound) ∈ frame.body.parameters.zip frame.binding := by simp [split]
      exact knows.binding bound (List.of_mem_zip member).2

/-- The symbols passed on are renamed. -/
theorem bindArguments_rename (untold : program.Untold rename known) {frame : Frame}
    {arguments : List Symbol} (named : ∀ symbol ∈ arguments, symbol ∈ program.symbols)
    (number universal : Nat) (fresh : Bool) :
    bindArguments ((frame.rename rename).body.bind (frame.rename rename).binding) number universal
        fresh arguments =
      (bindArguments (frame.body.bind frame.binding) number universal fresh arguments).map
        rename := by
  unfold bindArguments
  split
  · rw [List.map_append, List.map_map, List.map_map]
    refine congrArg₂ _ (List.map_congr_left fun symbol member => ?_)
      (List.map_congr_left fun symbol member => ?_)
    · exact untold.bind_rename (named symbol (List.mem_of_mem_take member))
    · exact (untold.introduced symbol (named symbol (List.mem_of_mem_drop member)) number).2.symm
  · rw [List.map_map]
    exact List.map_congr_left fun symbol member => untold.bind_rename (named symbol member)

theorem bindArguments_mem (untold : program.Untold rename known) {frame : Frame}
    (knows : frame.Knows program known) {arguments : List Symbol}
    (named : ∀ symbol ∈ arguments, symbol ∈ program.symbols) (number universal : Nat)
    (fresh : Bool) :
    ∀ symbol ∈ bindArguments (frame.body.bind frame.binding) number universal fresh arguments,
      symbol ∈ known := by
  intro symbol member
  unfold bindArguments at member
  split at member
  · rcases List.mem_append.mp member with passed | made
    · obtain ⟨argument, held, rfl⟩ := List.mem_map.mp passed
      exact untold.bind_mem knows (named argument (List.mem_of_mem_take held))
    · obtain ⟨argument, held, rfl⟩ := List.mem_map.mp made
      exact (untold.introduced argument (named argument (List.mem_of_mem_drop held)) number).1
  · obtain ⟨argument, held, rfl⟩ := List.mem_map.mp member
    exact untold.bind_mem knows (named argument held)

/-- Of known symbols, renaming tells the same lists to begin with others. -/
theorem isPrefixOf_map (untold : program.Untold rename known) {first second : List Symbol}
    (firstKnown : ∀ symbol ∈ first, symbol ∈ known)
    (secondKnown : ∀ symbol ∈ second, symbol ∈ known) :
    (first.map rename).isPrefixOf (second.map rename) = first.isPrefixOf second := by
  induction first generalizing second with
  | nil => simp
  | cons symbol rest ih =>
      cases second with
      | nil => rfl
      | cons other more =>
          obtain ⟨here, later⟩ := List.forall_mem_cons.mp firstKnown
          obtain ⟨there, after⟩ := List.forall_mem_cons.mp secondKnown
          have same : (rename symbol == rename other) = (symbol == other) :=
            Bool.eq_iff_iff.mpr (by simpa using ⟨untold.apart here there, congrArg rename⟩)
          rw [List.map_cons, List.map_cons, List.isPrefixOf_cons_cons, List.isPrefixOf_cons_cons,
            same, ih later after]

/-- A definition lies around as often under renamed symbols. -/
theorem occurrences_rename (untold : program.Untold rename known) {frame : Frame}
    (knows : frame.Knows program known) (index : Nat) {universal : List Symbol}
    (universalKnown : ∀ symbol ∈ universal, symbol ∈ known) :
    occurrences (frame.rename rename).applications index (universal.map rename) =
      occurrences frame.applications index universal := by
  unfold occurrences Frame.rename
  rw [List.countP_map]
  refine List.countP_congr fun application member => ?_
  have binding := untold.isPrefixOf_map universalKnown (knows.symbols application member)
  simp only [Function.comp_apply, Application.rename, binding]

/-- What a frame unfolds to under renamed symbols is renamed. -/
theorem carries (untold : program.Untold rename known) (limits : UnfoldingLimits) :
    (Alteration.renames rename).Carries program program limits (Frame.Knows program known) where
  unfoldUse frame site unfolding knows use member := by
    have named : ∀ symbol ∈ use.symbols, symbol ∈ program.symbols := fun symbol held =>
      program.mem_symbols_of_use knows.body member held
    unfold ResolvedUse.symbols at named
    change (unfolding.alter (.renames rename)).unfoldUse program limits (frame.rename rename) site
      use = _
    rw [Unfolding.unfoldUse, Unfolding.unfoldUse]
    cases htarget : use.target with
    | primitive primitive =>
        simp only [htarget] at named
        refine Unfolding.addNode_alter (.renames rename) limits unfolding site ?_
        have renamed : primitive.rename
            ((frame.rename rename).body.bind (frame.rename rename).binding) =
              (primitive.rename (frame.body.bind frame.binding)).rename rename :=
          Primitive.rename_rename fun symbol acts =>
            untold.bind_rename (named symbol (by simpa using acts))
        rw [renamed]
        rfl
    | definition index arguments fresh =>
        simp only [htarget] at named
        cases found : program.definitions[index]? with
        | none => simp only [Unfolding.unfoldDefinition, found, Except.map]
        | some callee =>
            refine Unfolding.unfoldDefinition_rename unfolding rename found found rfl
              (fun number => untold.bindArguments_rename named number _ fresh) ?_
              (fun _ _ => rfl) (fun _ _ => rfl)
            intro number symbols
            rw [← List.map_take]
            refine untold.occurrences_rename knows index fun symbol held => ?_
            exact untold.bindArguments_mem knows named number _ fresh symbol
              (List.mem_of_mem_take held)
  inner outer knows use member index number arguments fresh frame target found applications := by
    have named : ∀ symbol ∈ arguments, symbol ∈ program.symbols := by
      intro symbol held
      refine program.mem_symbols_of_use knows.body member ?_
      rw [ResolvedUse.symbols, target]
      exact held
    refine ⟨List.mem_of_getElem? found, ?_⟩
    rw [applications]
    exact List.forall_mem_cons.mpr
      ⟨untold.bindArguments_mem knows named number _ fresh, knows.symbols⟩
  setParts _ _ knows := ⟨knows.body, knows.symbols⟩

end ResolvedProgram.Untold

/-! ## Expanding -/

theorem Unfolding.plan_renames (rename : Symbol → Symbol) (unfolding : Unfolding)
    (root : ResolvedDefinition) (binding : List Symbol) :
    (unfolding.alter (.renames rename)).plan root (binding.map rename) =
      (unfolding.plan root binding).rename rename := by
  have instances : (unfolding.alter (.renames rename)).instances =
      unfolding.instances.map (Instance.rename rename) := by
    simp only [Unfolding.instances, alter, Alteration.renames, Array.toList_map, ← List.map_tail,
      List.map_map]
    refine List.map_congr_left fun frame _ => ?_
    simp only [Function.comp_apply, Instance.rename, Frame.binding_rename]
    rfl
  rw [plan, instances]
  rfl

theorem Unfolding.ofRoot_renames (rename : Symbol → Symbol) (index : Nat)
    (root : ResolvedDefinition) (binding : List Symbol) :
    Unfolding.ofRoot index root (binding.map rename) =
      (Unfolding.ofRoot index root binding).alter (.renames rename) := by
  simp [Unfolding.ofRoot, Unfolding.alter, Alteration.renames, Frame.rename, Application.rename]

/-- Where the generators of a root are known, so are those of its frame. -/
theorem Frame.Knows.ofRoot (index : Nat) {root : ResolvedDefinition} {binding : List Symbol}
    (listed : root ∈ program.definitions) (held : ∀ symbol ∈ binding, symbol ∈ known) :
    (Unfolding.ofRoot index root binding).All (Frame.Knows program known) := by
  intro number frame found
  have inside := (Array.getElem?_eq_some_iff.mp found).1
  obtain rfl : number = 0 := by simpa [Unfolding.ofRoot] using inside
  obtain rfl := Option.some.inj found
  exact ⟨listed, List.forall_mem_singleton.mpr held⟩

/-- Known generators, renamed, make the root expand to the same graph, renamed. -/
theorem ResolvedProgram.Untold.expand_rename (untold : program.Untold rename known)
    (root : program.Index) {generators : List Symbol}
    (generatorsKnown : ∀ symbol ∈ generators, symbol ∈ known) (limits : UnfoldingLimits) :
    program.expand root (some (generators.map rename)) limits =
      (program.expand root (some generators) limits).map (PortGraph.rename rename) := by
  have listed : program.definition root ∈ program.definitions :=
    List.get_mem program.definitions root
  have own : ∀ symbol ∈ (program.definition root).existential, symbol ∈ program.symbols :=
    fun symbol member => List.mem_flatMap.mpr
      ⟨_, listed, List.mem_append_left _ (List.mem_append_right _ member)⟩
  have existential : (program.definition root).existential.map rename =
      (program.definition root).existential :=
    (List.map_congr_left fun symbol member =>
      (untold.named symbol (own symbol member)).2).trans (List.map_id _)
  unfold expand
  simp only [ResolvedDefinition.rootBinding, List.length_map, Unfolding.build_builder]
  split
  · rename_i many
    have binding : generators.map rename ++ (program.definition root).existential =
        (generators ++ (program.definition root).existential).map rename := by
      rw [List.map_append, existential]
    have held : ∀ symbol ∈ generators ++ (program.definition root).existential,
        symbol ∈ known := by
      intro symbol member
      rcases List.mem_append.mp member with given | written
      · exact generatorsKnown symbol given
      · exact (untold.named symbol (own symbol written)).1
    have run := Unfolding.unfoldAll_alter (Alteration.renames_neutral rename)
      (untold.carries limits) _ [0] (Frame.Knows.ofRoot root listed held)
    simp only [bind, Except.bind, binding, Unfolding.ofRoot_renames, run]
    cases (Unfolding.ofRoot root (program.definition root)
      (generators ++ (program.definition root).existential)).unfoldAll program limits [0] with
    | error error => rfl
    | ok unfolding =>
        have built (plan : GraphPlan) (edges : List Edge) :
            PortGraph.build (plan.rename rename) edges =
              (PortGraph.build plan edges).map (PortGraph.rename rename) :=
          (Relabelling.renames rename).build plan edges
        simp only [Except.map, Unfolding.plan_renames,
          Unfolding.edges_alter (Alteration.renames_neutral rename), built]
        cases PortGraph.build (unfolding.plan (program.definition root)
          (generators ++ (program.definition root).existential))
          (unfolding.edges (program.definition root).inputs.length) <;> rfl
  · rfl

end FlowDiagram

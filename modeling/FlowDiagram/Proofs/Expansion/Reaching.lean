import FlowDiagram.Compilation.Run
import FlowDiagram.Proofs.Resolution.Placing
import FlowDiagram.Proofs.Unfolding.Spans

/-!
# What an expansion depends on

A root expands to what the definitions say that it reaches, and to nothing else: where these stand,
and what else stands in their program, makes no difference.
-/

namespace FlowDiagram

/-- The definitions that the definition of a name reaches in a program: itself, and what it uses. -/
inductive Program.Reaches (program : Program) (name : String) : Definition → Prop
  | root {definition : Definition} (first : program.definition? name = some definition) :
      Reaches program name definition
  | callee {caller callee : Definition} {use : Use} (reached : Reaches program name caller)
      (member : use ∈ caller.uses) (names : program.callee? use = some callee) :
      Reaches program name callee

/-- The numbers of the definitions reached. -/
def Program.ReachesNumber (program : Program) (name : String) (index : Nat) : Prop :=
  ∃ definition, program.definitions[index]? = some definition ∧ program.Reaches name definition

theorem Program.Reaches.mem {program : Program} {name : String} {definition : Definition}
    (reached : program.Reaches name definition) : definition ∈ program.definitions := by
  cases reached with
  | root first => exact List.mem_of_find?_eq_some first
  | callee _ _ names => exact Program.callee?_mem names

/-- A bound use is bound from one of those written. -/
theorem Program.use_of_bound {program : Program} {definition : Definition} {bound : ResolvedUse}
    (member : bound ∈ (program.bound definition).uses) :
    ∃ use ∈ definition.uses, use.resolve program (Registry.ofProgram program).1 = .ok bound := by
  have start : Instances.empty.Faithful program [] := ⟨nofun, nofun⟩
  obtain ⟨use, first, resolves⟩ :=
    (start.foldl definition.name.name definition.uses).uses bound member
  exact ⟨use, by simpa using List.mem_of_find?_eq_some first, resolves⟩

variable {first second : Program} {name : String}

/-- Where all that is reached stands in another program, that keeps what expansion needs. -/
theorem Program.keeps_reached
    (distinct : (first.definitions.map (·.name.name)).Nodup)
    (distinctThere : (second.definitions.map (·.name.name)).Nodup)
    (wellFormed : ∀ definition ∈ first.definitions, definition.WellFormed first)
    (stands : ∀ definition, first.Reaches name definition → definition ∈ second.definitions) :
    first.resolved.Keeps second.resolved (first.placeIn second) (first.ReachesNumber name) where
  injective index other := by
    rintro ⟨definition, found, reached⟩ ⟨another, foundOther, reachedOther⟩ same
    have placed := Program.definitions_placeIn distinctThere found (stands _ reached)
    have placedOther := Program.definitions_placeIn distinctThere foundOther
      (stands _ reachedOther)
    rw [same, placedOther] at placed
    cases placed
    have inside := (List.getElem?_eq_some_iff.mp found).1
    exact (List.getElem?_inj inside distinct.of_map).mp (found.trans foundOther.symm)
  moved index := by
    rintro ⟨definition, found, reached⟩
    have placed := Program.definitions_placeIn distinctThere found (stands _ reached)
    refine ⟨first.bound definition, ?_, ?_⟩
    · rw [Program.resolved_getElem?, found]
      rfl
    · rw [Program.resolved_getElem?, placed, Option.map_some,
        Program.bound_move distinctThere (wellFormed definition reached.mem)]
      exact fun use member callee names => stands callee (.callee reached member names)
  closed index resolved := by
    rintro ⟨definition, found, reached⟩ there use member callee ⟨symbols, fresh, target⟩
    rw [Program.resolved_getElem?, found] at there
    cases there
    obtain ⟨written, listed, resolves⟩ := Program.use_of_bound member
    obtain ⟨ident, arguments, body, hbox, hfirst, known, -⟩ :=
      Use.definition_of_resolve resolves target
    have names : first.callee? written = some body := by simp only [Program.callee?, hbox, hfirst]
    exact ⟨body, known, .callee reached listed names⟩

/-- So a definition expands alike in both, under the numbers that it has there. -/
theorem Program.expand_eq_of_stands
    (distinct : (first.definitions.map (·.name.name)).Nodup)
    (distinctThere : (second.definitions.map (·.name.name)).Nodup)
    (wellFormed : ∀ definition ∈ first.definitions, definition.WellFormed first)
    (stands : ∀ definition, first.Reaches name definition → definition ∈ second.definitions)
    {one two : ResolvedProgram} (bound : first.resolved = one) (boundThere : second.resolved = two)
    {root : one.Index} {there : two.Index} {definition : Definition}
    (found : first.definitions[(root : Nat)]? = some definition)
    (foundThere : second.definitions[(there : Nat)]? = some definition)
    (named : definition.name.name = name) (generators : Option (List Symbol))
    (limits : UnfoldingLimits) :
    two.expand there generators limits = one.expand root generators limits := by
  subst bound boundThere
  have keeps := Program.keeps_reached distinct distinctThere wellFormed stands
  have unique := Program.definition?_of_mem distinct (List.mem_of_getElem? found)
  rw [named] at unique
  exact keeps.expand_eq ⟨definition, found, .root unique⟩
    (Program.placeIn_eq distinctThere found foundThere).symm generators limits

/-! ## Roots by name -/

/-- The root of a name is a definition of that name. -/
theorem Program.definition_of_named {program : Program} {index : program.resolved.Index}
    (named : program.resolved.named? name = some index) :
    ∃ definition, program.definitions[(index : Nat)]? = some definition ∧
      definition.name.name = name := by
  have same := (List.findFinIdx?_eq_some_iff.mp named).1
  have listed := program.resolved_getElem? index
  rw [List.getElem?_eq_getElem index.isLt] at listed
  obtain ⟨definition, found, bound⟩ := Option.map_eq_some_iff.mp listed.symm
  refine ⟨definition, found, ?_⟩
  have named : (program.bound definition).name = name := by
    rw [bound]
    exact beq_iff_eq.mp same
  exact named

/-- Where names are different, a definition is the root of its name. -/
theorem Program.named_of_definition {program : Program}
    (distinct : (program.definitions.map (·.name.name)).Nodup) {place : Nat}
    {definition : Definition} (found : program.definitions[place]? = some definition) :
    ∃ index, program.resolved.named? definition.name.name = some index ∧
      (index : Nat) = place := by
  cases named : program.resolved.named? definition.name.name with
  | none =>
      have listed : program.bound definition ∈ program.resolved.definitions :=
        List.mem_of_getElem? (i := place) (by rw [program.resolved_getElem?, found]; rfl)
      exact absurd (beq_self_eq_true _) (List.findFinIdx?_eq_none_iff.mp named _ listed)
  | some index =>
      obtain ⟨other, foundOther, same⟩ := Program.definition_of_named named
      have unique : other = definition := List.inj_on_of_nodup_map distinct
        (List.mem_of_getElem? foundOther) (List.mem_of_getElem? found) same
      have inside := (List.getElem?_eq_some_iff.mp foundOther).1
      rw [unique] at foundOther
      exact ⟨index, rfl, (List.getElem?_inj inside distinct.of_map).mp
        (foundOther.trans found.symm)⟩

/-! ## Without spans -/

theorem Program.names_withoutSpans (program : Program) :
    program.withoutSpans.definitions.map (·.name.name) =
      program.definitions.map (·.name.name) :=
  List.map_map

theorem Program.resolved_withoutSpans (program : Program) :
    program.withoutSpans.resolved = program.resolved.withoutSpans := by
  rw [resolved, Registry.ofProgram_withoutSpans, program.resolve_withoutSpans]
  rfl

theorem Program.definition?_withoutSpans (program : Program) (name : String) :
    program.withoutSpans.definition? name =
      (program.definition? name).map Definition.withoutSpans :=
  List.find?_map

theorem Program.callee?_withoutSpans (program : Program) (use : Use) :
    program.withoutSpans.callee? use.withoutSpans =
      (program.callee? use).map Definition.withoutSpans := by
  obtain ⟨box, ports, ident, span⟩ := use
  cases box with
  | definition ident arguments => exact program.definition?_withoutSpans ident.name
  | _ => rfl

/-- What is reached does not depend on where anything is written. -/
theorem Program.Reaches.of_withoutSpans {program : Program} {bare : Definition}
    (reached : program.withoutSpans.Reaches name bare) :
    ∃ definition, program.Reaches name definition ∧ definition.withoutSpans = bare := by
  induction reached with
  | root first =>
      rw [Program.definition?_withoutSpans] at first
      obtain ⟨definition, found, same⟩ := Option.map_eq_some_iff.mp first
      exact ⟨definition, .root found, same⟩
  | callee reached member names ih =>
      obtain ⟨caller, reachedCaller, rfl⟩ := ih
      obtain ⟨use, listed, rfl⟩ := List.mem_map.mp member
      rw [Program.callee?_withoutSpans] at names
      obtain ⟨callee, found, same⟩ := Option.map_eq_some_iff.mp names
      exact ⟨callee, .callee reachedCaller listed found, same⟩

/-- Nor does whether its definitions are well formed. -/
theorem Program.wellFormed_withoutSpans {program : Program}
    (resolves : (program.resolve (Registry.ofProgram program).1).2 = []) :
    ∀ bare ∈ program.withoutSpans.definitions, bare.WellFormed program.withoutSpans := by
  refine Program.wellFormed_of_resolve ?_
  rw [Registry.ofProgram_withoutSpans, program.resolve_withoutSpans]
  exact List.map_eq_nil_iff.mpr resolves

/-- So a definition expands alike, but for spans, where another program has it with others. -/
theorem Program.expand_alike_of_stands
    (distinct : (first.definitions.map (·.name.name)).Nodup)
    (distinctThere : (second.definitions.map (·.name.name)).Nodup)
    (resolves : (first.resolve (Registry.ofProgram first).1).2 = [])
    (stands : ∀ definition, first.Reaches name definition →
      ∃ other ∈ second.definitions, other.withoutSpans = definition.withoutSpans)
    {root : first.resolved.Index} {there : second.resolved.Index} {definition other : Definition}
    (found : first.definitions[(root : Nat)]? = some definition)
    (foundThere : second.definitions[(there : Nat)]? = some other)
    (same : other.withoutSpans = definition.withoutSpans) (named : definition.name.name = name)
    (generators : Option (List Symbol)) (limits : UnfoldingLimits) :
    (second.resolved.expand there generators limits).map PortGraph.withoutSpans =
      (first.resolved.expand root generators limits).map PortGraph.withoutSpans := by
  have bareStands : ∀ bare, first.withoutSpans.Reaches name bare →
      bare ∈ second.withoutSpans.definitions := by
    intro bare bareReached
    obtain ⟨origin, originReached, rfl⟩ := bareReached.of_withoutSpans
    obtain ⟨twin, twinListed, twinSame⟩ := stands origin originReached
    exact List.mem_map.mpr ⟨twin, twinListed, twinSame⟩
  have length : ∀ program : ResolvedProgram,
      program.withoutSpans.definitions.length = program.definitions.length :=
    fun program => List.length_map _
  let bareRoot : first.resolved.withoutSpans.Index := ⟨root, by rw [length]; exact root.isLt⟩
  let bareThere : second.resolved.withoutSpans.Index := ⟨there, by rw [length]; exact there.isLt⟩
  have rootNumber : (bareRoot : Nat) = root := rfl
  have thereNumber : (bareThere : Nat) = there := rfl
  have bareFound : first.withoutSpans.definitions[(bareRoot : Nat)]? =
      some definition.withoutSpans := by
    rw [Program.withoutSpans, List.getElem?_map, found]
    rfl
  have bareFoundThere : second.withoutSpans.definitions[(bareThere : Nat)]? =
      some definition.withoutSpans := by
    rw [Program.withoutSpans, List.getElem?_map, foundThere, ← same]
    rfl
  rw [← ResolvedProgram.expand_withoutSpans _ thereNumber,
    ← ResolvedProgram.expand_withoutSpans _ rootNumber]
  exact Program.expand_eq_of_stands (first.names_withoutSpans ▸ distinct)
    (second.names_withoutSpans ▸ distinctThere) (Program.wellFormed_withoutSpans resolves)
    bareStands first.resolved_withoutSpans second.resolved_withoutSpans bareFound bareFoundThere
    named generators limits

/-! ## The outcome -/

/--
A root expands to the same graph, or fails for the same reason, in every program where all that it
reaches stands as well.  Where it stands is of no matter but for spans, and not even for these if
they are the same.
-/
theorem ResolvedProgram.expand_eq_of_reached
    (distinct : (Registry.ofProgram first).2 = [])
    (distinctThere : (Registry.ofProgram second).2 = [])
    (resolves : (first.resolve (Registry.ofProgram first).1).2 = [])
    {root : first.resolved.Index} (named : first.resolved.named? name = some root)
    (stands : ∀ definition, first.Reaches name definition →
      ∃ other ∈ second.definitions, other.withoutSpans = definition.withoutSpans) :
    ∃ there, second.resolved.named? name = some there ∧
      ∀ generators limits,
        (second.resolved.expand there generators limits).map PortGraph.withoutSpans =
            (first.resolved.expand root generators limits).map PortGraph.withoutSpans ∧
          ((∀ definition, first.Reaches name definition → definition ∈ second.definitions) →
            second.resolved.expand there generators limits =
              first.resolved.expand root generators limits) := by
  have names := Registry.ofProgram_errors_eq_nil_iff.mp distinct
  have namesThere := Registry.ofProgram_errors_eq_nil_iff.mp distinctThere
  have wellFormed := Program.wellFormed_of_resolve resolves
  obtain ⟨definition, found, rfl⟩ := Program.definition_of_named named
  have reached : first.Reaches definition.name.name definition :=
    .root (Program.definition?_of_mem names (List.mem_of_getElem? found))
  obtain ⟨other, listed, same⟩ := stands definition reached
  obtain ⟨place, foundThere⟩ := List.mem_iff_getElem?.mp listed
  have sameName : other.withoutSpans.name.name = definition.withoutSpans.name.name := by
    rw [same]
  change other.name.name = definition.name.name at sameName
  obtain ⟨there, namedThere, rfl⟩ := Program.named_of_definition namesThere foundThere
  rw [sameName] at namedThere
  refine ⟨there, namedThere, fun generators limits => ⟨?_, fun standsSame => ?_⟩⟩
  · exact Program.expand_alike_of_stands names namesThere resolves stands found foundThere same
      rfl generators limits
  · have member := standsSame definition reached
    have unique : other = definition :=
      List.inj_on_of_nodup_map namesThere listed member sameName
    exact Program.expand_eq_of_stands names namesThere wellFormed standsSame rfl rfl found
      (unique ▸ foundThere) rfl generators limits

/-- All that is reached is among definitions that lead to no others. -/
theorem Program.Reaches.mem_of_closed {program : Program} {definitions : List Definition}
    (root : ∀ definition ∈ program.definition? name, definition ∈ definitions)
    (closed : ∀ caller ∈ definitions, ∀ use ∈ caller.uses, ∀ callee ∈ program.callee? use,
      callee ∈ definitions) {definition : Definition}
    (reached : program.Reaches name definition) : definition ∈ definitions := by
  induction reached with
  | root first => exact root _ first
  | callee reached member names ih => exact closed _ ih _ member _ names

/-- A root in front of what it uses, which uses itself and a symbol of its own. -/
def forwardProgram : Program :=
  .ofLines [
    "def main = [X | Y]",
    "  use ring [X | Y] as R",
    "  link X >-> R.X, R.Y >-> Y",
    "def spare = [X | Y]",
    "  link X >-> Y",
    "def ring = <|a> [X | Y]",
    "  use +a [X | Y] as Add",
    "  use ring [X | Y] as Next",
    "  link X >-> Add.X, Add.Y >-> Next.X, Next.Y >-> Y"]

/-- The same root behind what it uses; what it does not use is another definition. -/
def backwardProgram : Program :=
  .ofLines [
    "def ring = <|a> [X | Y]",
    "  use +a [X | Y] as Add",
    "  use ring [X | Y] as Next",
    "  link X >-> Add.X, Add.Y >-> Next.X, Next.Y >-> Y",
    "def spare = <b> [X | Y]",
    "  use -b [X | Y] as Rem",
    "  link X >-> Rem.X, Rem.Y >-> Y",
    "def main = [X | Y]  use ring [X | Y] as R  link X >-> R.X, R.Y >-> Y"]

/-- The definitions that the root of the forward program reaches. -/
def forwardReached : List Definition :=
  forwardProgram.definitions.filter (·.name.name != "spare")

/-- Where the definitions stand and what else stands there does not show in the graph. -/
theorem ResolvedProgram.expand_eq_of_reached_forward :
    ∃ (root : forwardProgram.resolved.Index) (there : backwardProgram.resolved.Index)
      (graph : PortGraph),
      forwardProgram.resolved.named? "main" = some root ∧
      backwardProgram.resolved.named? "main" = some there ∧
      forwardProgram.resolved.expand root none ⟨1, 8, false⟩ = .ok graph ∧
      graph.nodes.toList.map (·.kind) = [.primitive (.add "a#1"), .primitive (.add "a#2"),
        .truncated "ring" ["a#3"]] ∧
      (backwardProgram.resolved.expand there none ⟨1, 8, false⟩).map PortGraph.withoutSpans =
        .ok graph.withoutSpans := by
  have expanding : ((forwardProgram.resolved.named? "main").bind fun root =>
      (forwardProgram.resolved.expand root none ⟨1, 8, false⟩).toOption.map fun graph =>
        graph.nodes.toList.map (·.kind)) =
        some [.primitive (.add "a#1"), .primitive (.add "a#2"), .truncated "ring" ["a#3"]] := by
    decide +kernel
  obtain ⟨root, named, expands⟩ := Option.bind_eq_some_iff.mp expanding
  obtain ⟨graph, found, kinds⟩ := Option.map_eq_some_iff.mp expands
  have expanded := eq_ok_of_toOption found
  obtain ⟨distinct, resolves⟩ : (Registry.ofProgram forwardProgram).2 = [] ∧
      (forwardProgram.resolve (Registry.ofProgram forwardProgram).1).2 = [] := by
    decide +kernel
  obtain ⟨first, closed⟩ :
      (∀ definition ∈ forwardProgram.definition? "main", definition ∈ forwardReached) ∧
      ∀ caller ∈ forwardReached, ∀ use ∈ caller.uses, ∀ callee ∈ forwardProgram.callee? use,
        callee ∈ forwardReached := by
    decide +kernel
  obtain ⟨distinctThere, twins⟩ : (Registry.ofProgram backwardProgram).2 = [] ∧
      ∀ definition ∈ forwardReached, ∃ other ∈ backwardProgram.definitions,
        other.withoutSpans = definition.withoutSpans := by
    decide +kernel
  obtain ⟨there, namedThere, alike⟩ := ResolvedProgram.expand_eq_of_reached distinct distinctThere
    resolves named fun definition reached => twins definition (reached.mem_of_closed first closed)
  have outcome := (alike none ⟨1, 8, false⟩).1
  rw [expanded] at outcome
  exact ⟨_, there, graph, named, namedThere, expanded, kinds, outcome⟩

end FlowDiagram

import FlowDiagram.Program.Read
import FlowDiagram.Resolution

/-!
# Sound resolved programs

A resolved program is sound when its numbers mean something: every use has as many ports as its
target, every link runs between ports that are there, the uses of a body have names of their own,
and no two links of a body end at one port.  Resolution yields a sound program whether or not it
has errors to tell.
-/

namespace FlowDiagram

/-! ## Soundness -/

/-- A use has the ports of its target, and as many symbols as the definition it names takes. -/
def ResolvedUse.Fits (program : ResolvedProgram) (use : ResolvedUse) : Prop :=
  match use.target with
  | .primitive primitive =>
    use.inputs.length = primitive.inputs ∧ use.outputs.length = primitive.outputs ∧
      0 < primitive.inputs
  | .definition index arguments _ =>
    ∃ callee, program.definitions[index]? = some callee ∧
      arguments.length = callee.parameters.length ∧
      use.inputs.length = callee.inputs.length ∧ use.outputs.length = callee.outputs.length

/-- A link of a definition can start here. -/
def ResolvedDefinition.HasSource (definition : ResolvedDefinition) : LinkEnd → Prop
  | .boundary port => port < definition.inputs.length
  | .use number port => ∃ use, definition.uses[number]? = some use ∧ port < use.outputs.length

/-- A link of a definition can end here. -/
def ResolvedDefinition.HasTarget (definition : ResolvedDefinition) : LinkEnd → Prop
  | .boundary port => port < definition.outputs.length
  | .use number port => ∃ use, definition.uses[number]? = some use ∧ port < use.inputs.length

structure ResolvedDefinition.Sound (program : ResolvedProgram)
    (definition : ResolvedDefinition) : Prop where
  uses_fit : ∀ use ∈ definition.uses, use.Fits program
  names_distinct : (definition.uses.map (·.name)).Nodup
  sources_exist : ∀ link ∈ definition.links, definition.HasSource link.source
  targets_exist : ∀ link ∈ definition.links, definition.HasTarget link.target
  targets_distinct : (definition.links.map (·.target)).Nodup

def ResolvedProgram.Sound (program : ResolvedProgram) : Prop :=
  ∀ definition ∈ program.definitions, definition.Sound program

/-! ## The registry -/

/-- Every entry describes the definition that it points to. -/
def Registry.Describes (registry : Registry) (definitions : List Definition) : Prop :=
  ∀ entry ∈ registry.entries, ∃ definition,
    definitions[entry.index]? = some definition ∧
      entry = .ofDefinition entry.index definition

theorem Registry.Describes.registerAll {definitions : List Definition} {registry : Registry}
    (describes : registry.Describes definitions) (before after : List Definition)
    (split : definitions = before ++ after) :
    (registry.registerAll before.length after).1.Describes definitions := by
  induction after generalizing before registry with
  | nil => exact describes
  | cons definition rest ih =>
      have later : definitions = (before ++ [definition]) ++ rest := by simp [split]
      have found : definitions[before.length]? = some definition := by simp [split]
      cases held : registry.find? definition.name.name with
      | some entry =>
          rw [registerAll_of_held held]
          simpa using ih describes (before ++ [definition]) later
      | none =>
          have extended : (registry.add before.length definition).Describes definitions := by
            intro entry member
            rcases List.mem_append.mp member with old | new
            · exact describes entry old
            · rw [List.mem_singleton.mp new]
              exact ⟨definition, found, rfl⟩
          rw [registerAll_of_new held]
          simpa using ih extended (before ++ [definition]) later

theorem Registry.ofProgram_describes (program : Program) :
    (Registry.ofProgram program).1.Describes program.definitions := by
  have initial : Registry.empty.Describes program.definitions := by
    intro entry member
    cases member
  exact initial.registerAll [] program.definitions rfl

theorem Registry.Describes.find? {registry : Registry} {definitions : List Definition}
    (describes : registry.Describes definitions) {name : String} {entry : RegistryEntry}
    (found : registry.find? name = some entry) :
    ∃ definition, definitions[entry.index]? = some definition ∧
      entry = .ofDefinition entry.index definition :=
  describes entry (Registry.mem_of_find?_eq_some found)

/-! ## Uses -/

/-- A sequence that succeeds does so step by step. -/
theorem exists_ok_of_bind {ε α β : Type} {first : Except ε α} {next : α → Except ε β} {result : β}
    (succeeds : first >>= next = .ok result) :
    ∃ value, first = .ok value ∧ next value = .ok result := by
  cases first with
  | error error => cases succeeds
  | ok value => exact ⟨value, rfl, succeeds⟩

/-- A sequence fails in its first step, or in what comes after that. -/
theorem error_of_bind {ε α β : Type} {first : Except ε α} {next : α → Except ε β} {error : ε}
    (failed : first >>= next = .error error) :
    first = .error error ∨ ∃ value, first = .ok value ∧ next value = .error error := by
  cases first with
  | error other =>
      cases failed
      exact .inl rfl
  | ok value => exact .inr ⟨value, rfl, failed⟩

theorem eq_ok_of_toOption {ε α : Type} {result : Except ε α} {value : α}
    (found : result.toOption = some value) : result = .ok value := by
  cases result with
  | error error => cases found
  | ok other => rw [Option.some.inj found]

theorem Use.bindPorts_ok {use : Use} {target : UseTarget} {inputs outputs : Nat}
    {resolved : ResolvedUse} (bound : use.bindPorts target inputs outputs = .ok resolved) :
    resolved.target = target ∧ resolved.name = use.name.name ∧
      resolved.inputs.length = inputs ∧ resolved.outputs.length = outputs := by
  unfold Use.bindPorts at bound
  split at bound
  · rename_i fits
    obtain ⟨inputsFit, outputsFit⟩ := List.append_eq_nil_iff.mp fits
    cases bound
    simp only [Use.countPorts, ite_eq_left_iff, reduceCtorEq, imp_false,
      Classical.not_not] at inputsFit outputsFit
    exact ⟨rfl, rfl, by simpa using inputsFit, by simpa using outputsFit⟩
  · cases bound

theorem Primitive.inputs_pos_of_lookup {tag : String} {argument : CatalogArgument}
    {primitive : Primitive} (found : Primitive.lookup tag argument = .ok primitive) :
    0 < primitive.inputs := by
  unfold Primitive.lookup at found
  split at found
  all_goals cases found
  all_goals simp only [Primitive.inputs]
  all_goals first
    | omega
    | exact Nat.pos_of_ne_zero ‹_›

theorem BoxRef.inputs_pos {box : BoxRef} {primitive : Primitive}
    (found : box.primitive? = some (.ok primitive)) : 0 < primitive.inputs := by
  unfold BoxRef.primitive? at found
  split at found
  all_goals first
    | exact Primitive.inputs_pos_of_lookup (Option.some.inj found)
    | cases found

theorem bindGenerics_length {callee : Definition} {arguments : Option Generics}
    {symbols : List Symbol} {fresh : Bool}
    (bound : bindGenerics callee arguments = .ok (symbols, fresh)) :
    symbols.length = callee.generics.universal.length + callee.generics.existential.length := by
  unfold bindGenerics at bound
  split at bound
  · cases bound
    simp
  · rename_i written
    split at bound
    · rename_i counted
      unfold Generics.countFor at counted
      obtain ⟨universal, existential⟩ := List.append_eq_nil_iff.mp counted
      simp only [ite_eq_left_iff, reduceCtorEq, imp_false,
        Classical.not_not] at universal existential
      split at bound
      · cases bound
        simp [universal]
      · rename_i given
        cases bound
        rcases existential with none | count
        · exact absurd none given
        · simp [universal, count]
    · cases bound

/-- The number of definitions and their shapes are those of the program. -/
theorem Program.resolve_getElem? (program : Program) (registry : Registry) (index : Nat) :
    (program.resolve registry).1.definitions[index]? =
      program.definitions[index]?.map fun definition =>
        (definition.resolve program registry).1 := by
  simp [Program.resolve, List.getElem?_map, Function.comp_def]

theorem Use.resolve_fits {program : Program} {use : Use} {resolved : ResolvedUse}
    (bound : use.resolve program (Registry.ofProgram program).1 = .ok resolved) :
    resolved.Fits (program.resolve (Registry.ofProgram program).1).1 ∧
      resolved.name = use.name.name := by
  unfold Use.resolve at bound
  split at bound
  · unfold Use.resolveDefinition at bound
    split at bound
    · cases bound
    · rename_i entry hentry
      split at bound
      · cases bound
      · rename_i callee hcallee
        obtain ⟨⟨symbols, fresh⟩, harguments, hports⟩ := exists_ok_of_bind bound
        obtain ⟨target, name, inputs, outputs⟩ := Use.bindPorts_ok hports
        obtain ⟨definition, hdefinition, shape⟩ :=
          (Registry.ofProgram_describes program).find? hentry
        obtain rfl : definition = callee :=
          Option.some.inj (hdefinition.symm.trans hcallee)
        refine ⟨?_, name⟩
        unfold ResolvedUse.Fits
        rw [target]
        refine ⟨_, by rw [Program.resolve_getElem?, hcallee]; rfl, ?_, ?_, ?_⟩
        · simp [bindGenerics_length harguments, ResolvedDefinition.parameters,
            Definition.resolve]
        · rw [inputs, shape]
          simp [RegistryEntry.ofDefinition, Definition.resolve]
        · rw [outputs, shape]
          simp [RegistryEntry.ofDefinition, Definition.resolve]
  · split at bound
    · rename_i primitive hprimitive
      obtain ⟨target, name, inputs, outputs⟩ := Use.bindPorts_ok bound
      refine ⟨?_, name⟩
      unfold ResolvedUse.Fits
      rw [target]
      exact ⟨inputs, outputs, BoxRef.inputs_pos hprimitive⟩
    · cases bound
    · cases bound

/-! ## Instances -/

/-- What is known of the uses of a body, as far as it matters for soundness. -/
structure Instances.Sound (program : ResolvedProgram) (known : Instances) : Prop where
  uses_fit : ∀ use ∈ known.uses, use.Fits program
  names_distinct : (known.uses.map (·.name)).Nodup
  names_known : ∀ use ∈ known.uses, use.name ∈ known.names.map (·.ident.name)

theorem Instances.not_mem_of_find?_none {known : Instances} {name : String}
    (unknown : known.find? name = none) : name ∉ known.names.map (·.ident.name) := by
  intro member
  obtain ⟨instanceName, listed, same⟩ := List.mem_map.mp member
  have differs := List.find?_eq_none.mp unknown instanceName listed
  exact differs (by simpa using same)

theorem Instances.Sound.add {program : Program} {known : Instances}
    (sound : known.Sound (program.resolve (Registry.ofProgram program).1).1)
    (definition : String) (use : Use) :
    (known.add program (Registry.ofProgram program).1 definition use).Sound
      (program.resolve (Registry.ofProgram program).1).1 := by
  unfold Instances.add
  split
  · exact ⟨sound.uses_fit, sound.names_distinct, sound.names_known⟩
  · rename_i hfind
    have unknown := Instances.not_mem_of_find?_none hfind
    dsimp only
    split
    · rename_i resolved hresolve
      obtain ⟨fits, name⟩ := Use.resolve_fits hresolve
      refine ⟨?_, ?_, ?_⟩
      · intro other member
        rcases List.mem_append.mp member with old | new
        · exact sound.uses_fit other old
        · rw [List.mem_singleton.mp new]
          exact fits
      · rw [List.map_append, List.nodup_append]
        refine ⟨sound.names_distinct, by simp, ?_⟩
        intro first old second new same
        obtain ⟨other, listed, rfl⟩ := List.mem_map.mp old
        have hsecond : second = use.name.name := by simpa [name] using new
        exact unknown (hsecond ▸ same ▸ sound.names_known other listed)
      · intro other member
        rw [List.map_append]
        rcases List.mem_append.mp member with old | new
        · exact List.mem_append_left _ (sound.names_known other old)
        · rw [List.mem_singleton.mp new, name]
          exact List.mem_append_right _ (by simp)
    · refine ⟨sound.uses_fit, sound.names_distinct, fun other member => ?_⟩
      rw [List.map_append]
      exact List.mem_append_left _ (sound.names_known other member)

theorem Instances.Sound.foldl (program : Program) (definition : String) (uses : List Use)
    {known : Instances}
    (sound : known.Sound (program.resolve (Registry.ofProgram program).1).1) :
    (uses.foldl (Instances.add program (Registry.ofProgram program).1 definition) known).Sound
      (program.resolve (Registry.ofProgram program).1).1 := by
  induction uses generalizing known with
  | nil => exact sound
  | cons use rest ih => exact ih (sound.add definition use)

theorem Instances.empty_sound (program : ResolvedProgram) : Instances.empty.Sound program where
  uses_fit := by simp [Instances.empty]
  names_distinct := by simp [Instances.empty]
  names_known := by simp [Instances.empty]

/-! ## Links -/

theorem portNumber?_lt {ports : List String} {port : String} {number : Nat}
    (found : portNumber? ports port = some number) : number < ports.length := by
  obtain ⟨below, -⟩ := List.findIdx?_eq_some_iff_getElem.mp found
  exact below

/-- What a link end refers to is there, on the side that its role asks for. -/
theorem PortRef.resolve_ok {definition : Definition} {known : Instances} {role : LinkRole}
    {ref : PortRef} {place : LinkEnd} (bound : ref.resolve definition known role = .ok place) :
    match place with
    | .boundary port => port < (definition.boundary role.boundarySide).length
    | .use number port =>
      ∃ use, known.uses[number]? = some use ∧ port < (use.ports role.instanceSide).length := by
  unfold PortRef.resolve at bound
  dsimp only at bound
  split at bound
  · split at bound
    · rename_i number hnumber
      cases bound
      exact portNumber?_lt hnumber
    · split at bound <;> cases bound
  · split at bound
    · cases bound
    · cases bound
    · split at bound
      · cases bound
      · rename_i use huse
        split at bound
        · rename_i number hnumber
          cases bound
          exact ⟨use, huse, portNumber?_lt hnumber⟩
        · split at bound <;> cases bound

/-- The links bound so far fit what is known of a definition. -/
structure Wiring.Sound (resolved : ResolvedDefinition) (wiring : Wiring) : Prop where
  sources_exist : ∀ link ∈ wiring.links, resolved.HasSource link.source
  targets_exist : ∀ link ∈ wiring.links, resolved.HasTarget link.target
  targets_distinct : (wiring.links.map (·.target)).Nodup
  targets_listed : wiring.targets.map (·.1) = wiring.links.map (·.target)

theorem not_mem_of_lookup_none {α β : Type} [BEq α] [LawfulBEq α] {pairs : List (α × β)} {key : α}
    (missing : pairs.lookup key = none) : key ∉ pairs.map (·.1) := by
  intro member
  obtain ⟨pair, listed, rfl⟩ := List.mem_map.mp member
  have differs := List.lookup_eq_none_iff.mp missing pair listed
  simp at differs

theorem Wiring.Sound.add {definition : Definition} {known : Instances}
    {resolved : ResolvedDefinition} (uses : resolved.uses = known.uses)
    (inputs : resolved.inputs = definition.boundary .input)
    (outputs : resolved.outputs = definition.boundary .output)
    {wiring : Wiring} (sound : wiring.Sound resolved) (link : Link) :
    (wiring.add definition known link).Sound resolved := by
  unfold Wiring.add
  dsimp only
  split
  · rename_i source target hsource htarget
    split
    · exact ⟨sound.sources_exist, sound.targets_exist, sound.targets_distinct,
        sound.targets_listed⟩
    · rename_i hlookup
      have sourceExists : resolved.HasSource source := by
        have found := PortRef.resolve_ok hsource
        cases source with
        | boundary port =>
            simpa [ResolvedDefinition.HasSource, inputs, LinkRole.boundarySide] using found
        | use number port =>
            simpa [ResolvedDefinition.HasSource, uses, LinkRole.instanceSide,
              ResolvedUse.ports] using found
      have targetExists : resolved.HasTarget target := by
        have found := PortRef.resolve_ok htarget
        cases target with
        | boundary port =>
            simpa [ResolvedDefinition.HasTarget, outputs, LinkRole.boundarySide] using found
        | use number port =>
            simpa [ResolvedDefinition.HasTarget, uses, LinkRole.instanceSide,
              ResolvedUse.ports] using found
      refine ⟨?_, ?_, ?_, ?_⟩
      · intro other member
        rcases List.mem_append.mp member with old | new
        · exact sound.sources_exist other old
        · rw [List.mem_singleton.mp new]
          exact sourceExists
      · intro other member
        rcases List.mem_append.mp member with old | new
        · exact sound.targets_exist other old
        · rw [List.mem_singleton.mp new]
          exact targetExists
      · rw [List.map_append, List.nodup_append]
        refine ⟨sound.targets_distinct, by simp, ?_⟩
        intro first old second new same
        have hsecond : second = target := by simpa using new
        refine not_mem_of_lookup_none hlookup ?_
        rw [sound.targets_listed, ← hsecond, ← same]
        exact old
      · simp [sound.targets_listed]
  · exact ⟨sound.sources_exist, sound.targets_exist, sound.targets_distinct,
      sound.targets_listed⟩

theorem Wiring.Sound.foldl (definition : Definition) {known : Instances}
    {resolved : ResolvedDefinition} (uses : resolved.uses = known.uses)
    (inputs : resolved.inputs = definition.boundary .input)
    (outputs : resolved.outputs = definition.boundary .output) (links : List Link)
    {wiring : Wiring} (sound : wiring.Sound resolved) :
    (links.foldl (Wiring.add definition known) wiring).Sound resolved := by
  induction links generalizing wiring with
  | nil => exact sound
  | cons link rest ih => exact ih (sound.add uses inputs outputs link)

theorem Wiring.empty_sound (resolved : ResolvedDefinition) : Wiring.empty.Sound resolved where
  sources_exist := by simp [Wiring.empty]
  targets_exist := by simp [Wiring.empty]
  targets_distinct := by simp [Wiring.empty]
  targets_listed := by simp [Wiring.empty]

/-! ## Programs -/

theorem Definition.resolve_sound (program : Program) (definition : Definition) :
    (definition.resolve program (Registry.ofProgram program).1).1.Sound
      (program.resolve (Registry.ofProgram program).1).1 := by
  have instances := Instances.Sound.foldl program definition.name.name definition.uses
    (Instances.empty_sound _)
  have wiring := Wiring.Sound.foldl definition rfl rfl rfl definition.links
    (Wiring.empty_sound (definition.resolve program (Registry.ofProgram program).1).1)
  exact ⟨instances.uses_fit, instances.names_distinct, wiring.sources_exist,
    wiring.targets_exist, wiring.targets_distinct⟩

/-- A program with its names bound, as far as they can be. -/
def Program.resolved (program : Program) : ResolvedProgram :=
  (program.resolve (Registry.ofProgram program).1).1

/-- What resolution yields is sound, with errors to tell or without. -/
theorem Program.resolved_sound (program : Program) : program.resolved.Sound := by
  intro resolved member
  obtain ⟨result, listed, rfl⟩ := List.mem_map.mp member
  obtain ⟨definition, -, rfl⟩ := List.mem_map.mp listed
  exact Definition.resolve_sound program definition

/-! ## Programs to try things on -/

/-- The source that has these lines. -/
def sourceOfLines (lines : List String) : List Char :=
  lines.flatMap fun line => line.toList ++ ['\n']

/-- The program that is written in these lines. -/
def Program.ofLines (lines : List String) : Program :=
  match Program.read (sourceOfLines lines) with
  | .ok program => program
  | .error _ => ⟨[], 0, 0⟩

theorem Program.read_ofLines {lines : List String}
    (reads : (Program.read (sourceOfLines lines)).toOption.isSome = true) :
    Program.read (sourceOfLines lines) = .ok (.ofLines lines) := by
  unfold Program.ofLines
  cases hread : Program.read (sourceOfLines lines) with
  | error error =>
      rw [hread] at reads
      cases reads
  | ok program => rfl

end FlowDiagram

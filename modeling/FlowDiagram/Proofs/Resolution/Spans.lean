import FlowDiagram.Proofs.Program.Parts
import FlowDiagram.Resolution
import Mathlib.Data.List.Basic

/-!
# Resolution without spans

A resolved body and the errors of a body keep spans, to point into the source, but nothing is bound
by them: what a program without spans resolves to is what the program resolves to, without spans.
-/

namespace FlowDiagram

/-! ## Diagnostics without places -/

def RelatedPlace.withoutSpan (place : RelatedPlace) : RelatedPlace :=
  { place with span := .nowhere }

/-- What a diagnostic says, but not where. -/
def Diagnostic.withoutPlaces (diagnostic : Diagnostic) : Diagnostic :=
  { diagnostic with
    span := .nowhere
    position := none
    related := diagnostic.related.map RelatedPlace.withoutSpan }

/-! ## Registries -/

def RegistryEntry.withoutSpan (entry : RegistryEntry) : RegistryEntry :=
  { entry with span := .nowhere }

def Registry.withoutSpans (registry : Registry) : Registry :=
  { registry with entries := registry.entries.map RegistryEntry.withoutSpan }

def RegistryError.withoutSpans : RegistryError → RegistryError
  | .duplicate name _ _ => .duplicate name .nowhere .nowhere
  | .unknown name => .unknown name

@[simp]
theorem Ident.name_withoutSpan (ident : Ident) : ident.withoutSpan.name = ident.name :=
  rfl

@[simp]
theorem map_name_withoutSpan (idents : List Ident) :
    (idents.map Ident.withoutSpan).map (·.name) = idents.map (·.name) := by
  rw [List.map_map]
  rfl

theorem RegistryEntry.ofDefinition_withoutSpans (index : Nat) (definition : Definition) :
    RegistryEntry.ofDefinition index definition.withoutSpans =
      (RegistryEntry.ofDefinition index definition).withoutSpan := by
  simp [ofDefinition, withoutSpan, Definition.withoutSpans, Generics.withoutSpans,
    Ports.withoutSpans, Ident.withoutSpan]

namespace Registry

theorem find?_withoutSpans (registry : Registry) (name : String) :
    registry.withoutSpans.find? name = (registry.find? name).map RegistryEntry.withoutSpan := by
  rw [find?, find?, Option.map_bind]
  exact congrArg _ (funext fun slot => List.getElem?_map)

/-- Definitions are refused by their names. -/
theorem registerAll_withoutSpans (registry : Registry) (index : Nat)
    (definitions : List Definition) :
    registry.withoutSpans.registerAll index (definitions.map Definition.withoutSpans) =
      ((registry.registerAll index definitions).1.withoutSpans,
        (registry.registerAll index definitions).2.map RegistryError.withoutSpans) := by
  induction definitions generalizing registry index with
  | nil => rfl
  | cons definition rest ih =>
      have found := registry.find?_withoutSpans definition.name.name
      have known : definition.withoutSpans.name.name = definition.name.name := rfl
      rw [← known] at found
      rw [List.map_cons]
      cases held : registry.find? definition.name.name with
      | none =>
          have next : (registry.add index definition).withoutSpans =
              registry.withoutSpans.add index definition.withoutSpans := by
            simp [withoutSpans, add, known, RegistryEntry.ofDefinition_withoutSpans]
          rw [registerAll_of_new held, registerAll_of_new (by rw [found, known, held]; rfl), ← next]
          exact ih ..
      | some entry =>
          have heldAgain : registry.withoutSpans.find? definition.withoutSpans.name.name =
              some entry.withoutSpan := by
            rw [found, known, held]
            rfl
          rw [registerAll_of_held held, registerAll_of_held heldAgain, ih]
          rfl

theorem ofProgram_withoutSpans (program : Program) :
    ofProgram program.withoutSpans =
      ((ofProgram program).1.withoutSpans,
        (ofProgram program).2.map RegistryError.withoutSpans) :=
  registerAll_withoutSpans empty 0 program.definitions

end Registry

theorem RegistryError.diagnostic_withoutSpans (place : Span) (error : RegistryError) :
    error.withoutSpans.diagnostic .nowhere = (error.diagnostic place).withoutPlaces := by
  cases error <;> rfl

/-! ## Resolved bodies and their errors -/

def ResolvedUse.withoutSpan (use : ResolvedUse) : ResolvedUse :=
  { use with span := .nowhere }

def ResolvedLink.withoutSpan (link : ResolvedLink) : ResolvedLink :=
  { link with span := .nowhere }

def ResolvedDefinition.withoutSpans (definition : ResolvedDefinition) : ResolvedDefinition :=
  { definition with
    span := .nowhere
    uses := definition.uses.map ResolvedUse.withoutSpan
    links := definition.links.map ResolvedLink.withoutSpan }

def ResolvedProgram.withoutSpans (program : ResolvedProgram) : ResolvedProgram :=
  ⟨program.definitions.map ResolvedDefinition.withoutSpans⟩

def ResolutionError.withoutSpans : ResolutionError → ResolutionError
  | .repeatedPort owner port => .repeatedPort owner port.withoutSpan
  | .repeatedInstance definition name _ => .repeatedInstance definition name.withoutSpan .nowhere
  | .unknownDefinition name => .unknownDefinition name.withoutSpan
  | .notInCatalog error _ => .notInCatalog error .nowhere
  | .portCount use side listed expected => .portCount use.withoutSpans side listed expected
  | .universalCount callee expected given _ => .universalCount callee expected given .nowhere
  | .existentialCount callee expected given _ => .existentialCount callee expected given .nowhere
  | .boundaryRole definition ref role => .boundaryRole definition ref.withoutSpans role
  | .unknownBoundaryPort definition ref role =>
    .unknownBoundaryPort definition ref.withoutSpans role
  | .unknownInstance definition name => .unknownInstance definition name.withoutSpan
  | .instanceRole owner ref role => .instanceRole owner.withoutSpan ref.withoutSpans role
  | .unknownInstancePort owner ref => .unknownInstancePort owner.withoutSpan ref.withoutSpans
  | .fanIn ref _ => .fanIn ref.withoutSpans .nowhere

theorem ResolutionError.message_withoutSpans (error : ResolutionError) :
    error.withoutSpans.message = error.message := by
  cases error with
  | portCount use side listed expected =>
      have named : use.withoutSpans.box.text = use.box.text := use.box.text_withoutSpans
      dsimp only [withoutSpans, message]
      rw [named]
      rfl
  | instanceRole owner ref role =>
      dsimp only [withoutSpans, message]
      rw [PortRef.text_withoutSpans]
      rfl
  | fanIn ref first =>
      dsimp only [withoutSpans, message]
      rw [PortRef.text_withoutSpans]
  | _ => rfl

theorem ResolutionError.diagnostic_withoutSpans (error : ResolutionError) :
    error.withoutSpans.diagnostic = error.diagnostic.withoutPlaces := by
  unfold diagnostic
  rw [message_withoutSpans]
  cases error <;> rfl

/-! ## Ports -/

theorem repeatedAfter_withoutSpan (seen : List String) (idents : List Ident) :
    repeatedAfter seen (idents.map Ident.withoutSpan) =
      (repeatedAfter seen idents).map Ident.withoutSpan := by
  induction idents generalizing seen with
  | nil => rfl
  | cons ident rest ih =>
      rw [List.map_cons, repeatedAfter, repeatedAfter, Ident.name_withoutSpan]
      split
      · rw [ih, List.map_cons]
      · rw [ih]

theorem Ports.repeated_withoutSpans (owner : PortsOwner) (ports : Ports) :
    ports.withoutSpans.repeated owner =
      (ports.repeated owner).map ResolutionError.withoutSpans := by
  simp [repeated, withoutSpans, repeatedAfter_withoutSpan, ResolutionError.withoutSpans,
    Function.comp_def]

/-! ## Uses -/

theorem Use.countPorts_withoutSpans (use : Use) (side : Side) (listed : List Ident)
    (expected : Nat) :
    use.withoutSpans.countPorts side (listed.map Ident.withoutSpan) expected =
      (use.countPorts side listed expected).map ResolutionError.withoutSpans := by
  unfold countPorts
  rw [List.length_map]
  split <;> rfl

theorem Use.bindPorts_withoutSpans (use : Use) (target : UseTarget) (inputs outputs : Nat) :
    use.withoutSpans.bindPorts target inputs outputs =
      ((use.bindPorts target inputs outputs).map ResolvedUse.withoutSpan).mapError
        (List.map ResolutionError.withoutSpans) := by
  have listedInputs : use.withoutSpans.ports.inputs = use.ports.inputs.map Ident.withoutSpan := rfl
  have listedOutputs : use.withoutSpans.ports.outputs = use.ports.outputs.map Ident.withoutSpan :=
    rfl
  unfold bindPorts
  rw [listedInputs, listedOutputs, countPorts_withoutSpans, countPorts_withoutSpans,
    ← List.map_append, map_name_withoutSpan, map_name_withoutSpan]
  cases use.countPorts .input use.ports.inputs inputs ++
      use.countPorts .output use.ports.outputs outputs with
  | nil => rfl
  | cons error rest => rfl

theorem Generics.countFor_withoutSpans (arguments : Generics) (callee : Definition) :
    arguments.withoutSpans.countFor callee.withoutSpans =
      (arguments.countFor callee).map ResolutionError.withoutSpans := by
  unfold countFor
  simp only [Generics.withoutSpans, Definition.withoutSpans, List.length_map, List.map_eq_nil_iff,
    Ident.name_withoutSpan, List.map_append]
  congr 1 <;> split <;> rfl

theorem bindGenerics_withoutSpans (callee : Definition) (arguments : Option Generics) :
    bindGenerics callee.withoutSpans (arguments.map Generics.withoutSpans) =
      (bindGenerics callee arguments).mapError (List.map ResolutionError.withoutSpans) := by
  have existential : callee.withoutSpans.generics.existential =
      callee.generics.existential.map Ident.withoutSpan := rfl
  have universal : callee.withoutSpans.generics.universal =
      callee.generics.universal.map Ident.withoutSpan := rfl
  cases arguments with
  | none =>
      simp [bindGenerics, existential, universal, Except.mapError, Function.comp_def]
  | some arguments =>
      rw [Option.map_some, bindGenerics, bindGenerics, Generics.countFor_withoutSpans]
      cases arguments.countFor callee with
      | nil =>
          simp only [List.map_nil, existential, Generics.withoutSpans, List.map_eq_nil_iff,
            ← List.map_append, map_name_withoutSpan]
          split <;> rfl
      | cons error rest => rfl

theorem BoxRef.primitive?_withoutSpans (box : BoxRef) :
    box.withoutSpans.primitive? = box.primitive? := by
  cases box <;> rfl

theorem Use.resolveDefinition_withoutSpans (program : Program) (registry : Registry) (use : Use)
    (name : Ident) (arguments : Option Generics) :
    use.withoutSpans.resolveDefinition program.withoutSpans registry.withoutSpans name.withoutSpan
        (arguments.map Generics.withoutSpans) =
      ((use.resolveDefinition program registry name arguments).map
        ResolvedUse.withoutSpan).mapError (List.map ResolutionError.withoutSpans) := by
  have found := registry.find?_withoutSpans name.name
  rw [resolveDefinition, resolveDefinition, Ident.name_withoutSpan, found]
  cases registry.find? name.name with
  | none => rfl
  | some entry =>
      have there : program.withoutSpans.definitions[entry.index]? =
          program.definitions[entry.index]?.map Definition.withoutSpans := List.getElem?_map
      simp only [Option.map_some, RegistryEntry.withoutSpan, there]
      cases program.definitions[entry.index]? with
      | none => rfl
      | some callee =>
          simp only [Option.map_some, bindGenerics_withoutSpans]
          cases bindGenerics callee arguments with
          | error errors => rfl
          | ok bound => exact use.bindPorts_withoutSpans _ _ _

theorem BoxRef.span_withoutSpans (box : BoxRef) : box.withoutSpans.span = .nowhere := by
  cases box with
  | definition name arguments => cases arguments <;> rfl
  | _ => rfl

/-- A box that is no definition is bound by its primitive. -/
theorem Use.resolve_of_ok {program : Program} {registry : Registry} {use : Use}
    {primitive : Primitive} (named : use.box.primitive? = some (.ok primitive)) :
    use.resolve program registry =
      use.bindPorts (.primitive primitive) primitive.inputs primitive.outputs := by
  unfold Use.resolve
  split
  · next other => rw [other] at named; cases named
  · rw [named]

/-- A box that is neither a definition nor a primitive is refused where it stands. -/
theorem Use.resolve_of_error {program : Program} {registry : Registry} {use : Use}
    {error : CatalogError} (named : use.box.primitive? = some (.error error)) :
    use.resolve program registry = .error [.notInCatalog error use.box.span] := by
  unfold Use.resolve
  split
  · next other => rw [other] at named; cases named
  · rw [named]

/-- What a use is bound to does not depend on where it is written. -/
theorem Use.resolve_withoutSpans (program : Program) (registry : Registry) (use : Use) :
    use.withoutSpans.resolve program.withoutSpans registry.withoutSpans =
      ((use.resolve program registry).map ResolvedUse.withoutSpan).mapError
        (List.map ResolutionError.withoutSpans) := by
  have same : use.withoutSpans.box.primitive? = use.box.primitive? :=
    use.box.primitive?_withoutSpans
  cases named : use.box.primitive? with
  | none =>
      obtain ⟨box, ports, name, span⟩ := use
      cases box with
      | definition callee arguments =>
          exact Use.resolveDefinition_withoutSpans program registry _ callee arguments
      | _ => cases named
  | some looked =>
      rw [named] at same
      cases looked with
      | ok primitive =>
          rw [resolve_of_ok named, resolve_of_ok same]
          exact use.bindPorts_withoutSpans _ _ _
      | error error =>
          have place : use.withoutSpans.box.span = .nowhere := use.box.span_withoutSpans
          rw [resolve_of_error named, resolve_of_error same, place]
          rfl

/-! ## Instances -/

def InstanceName.withoutSpan (name : InstanceName) : InstanceName :=
  { name with ident := name.ident.withoutSpan }

def Instances.withoutSpans (known : Instances) : Instances where
  uses := known.uses.map ResolvedUse.withoutSpan
  names := known.names.map InstanceName.withoutSpan
  errors := known.errors.map ResolutionError.withoutSpans

theorem Instances.find?_withoutSpans (known : Instances) (name : String) :
    known.withoutSpans.find? name = (known.find? name).map InstanceName.withoutSpan := by
  unfold find? withoutSpans
  rw [List.find?_map]
  rfl

theorem Instances.add_withoutSpans (program : Program) (registry : Registry) (definition : String)
    (known : Instances) (use : Use) :
    known.withoutSpans.add program.withoutSpans registry.withoutSpans definition
        use.withoutSpans =
      (known.add program registry definition use).withoutSpans := by
  have name : use.withoutSpans.name = use.name.withoutSpan := rfl
  have ports : use.withoutSpans.ports = use.ports.withoutSpans := rfl
  have found := known.find?_withoutSpans use.name.name
  rw [add, add, name, Ident.name_withoutSpan, found, ports, use.resolve_withoutSpans,
    Ports.repeated_withoutSpans]
  cases known.find? use.name.name with
  | some first => simp [withoutSpans, ResolutionError.withoutSpans, InstanceName.withoutSpan,
      Ident.withoutSpan]
  | none =>
      cases use.resolve program registry with
      | ok resolved => simp [withoutSpans, InstanceName.withoutSpan, Except.map, Except.mapError]
      | error errors => simp [withoutSpans, InstanceName.withoutSpan, Except.map, Except.mapError]

/-! ## Links -/

def Wiring.withoutSpans (wiring : Wiring) : Wiring where
  links := wiring.links.map ResolvedLink.withoutSpan
  targets := wiring.targets.map fun target => (target.1, .nowhere)
  errors := wiring.errors.map ResolutionError.withoutSpans

theorem Definition.boundary_withoutSpans (definition : Definition) (side : Side) :
    definition.withoutSpans.boundary side = definition.boundary side := by
  cases side <;> exact map_name_withoutSpan _

theorem PortRef.resolve_withoutSpans (definition : Definition) (known : Instances)
    (role : LinkRole) (ref : PortRef) :
    ref.withoutSpans.resolve definition.withoutSpans known.withoutSpans role =
      (ref.resolve definition known role).mapError (Option.map ResolutionError.withoutSpans) := by
  obtain ⟨owner, port, span⟩ := ref
  cases owner with
  | none =>
      simp only [PortRef.resolve, withoutSpans, Option.map_none, Ident.name_withoutSpan,
        Definition.boundary_withoutSpans]
      cases portNumber? (definition.boundary role.boundarySide) port.name with
      | some number => rfl
      | none =>
          dsimp only
          split <;> rfl
  | some owner =>
      have found := known.find?_withoutSpans owner.name
      simp only [PortRef.resolve, withoutSpans, Option.map_some, Ident.name_withoutSpan, found]
      cases known.find? owner.name with
      | none => rfl
      | some name =>
          obtain ⟨ident, number⟩ := name
          cases number with
          | none => rfl
          | some number =>
              have there : known.withoutSpans.uses[number]? =
                  known.uses[number]?.map ResolvedUse.withoutSpan := List.getElem?_map
              simp only [Option.map_some, InstanceName.withoutSpan, there]
              cases known.uses[number]? with
              | none => rfl
              | some use =>
                  have ports : ∀ side, use.withoutSpan.ports side = use.ports side := by
                    intro side
                    cases side <;> rfl
                  simp only [Option.map_some, ports]
                  cases portNumber? (use.ports role.instanceSide) port.name with
                  | some port => rfl
                  | none =>
                      dsimp only
                      split <;> rfl

theorem endErrors_mapError (stop : Except (Option ResolutionError) LinkEnd) :
    endErrors (stop.mapError (Option.map ResolutionError.withoutSpans)) =
      (endErrors stop).map ResolutionError.withoutSpans := by
  cases stop with
  | ok stop => rfl
  | error error => cases error <;> rfl

theorem Wiring.lookup_withoutSpans (wiring : Wiring) (target : LinkEnd) :
    wiring.withoutSpans.targets.lookup target =
      (wiring.targets.lookup target).map fun _ => .nowhere := by
  unfold withoutSpans
  induction wiring.targets with
  | nil => rfl
  | cons first rest ih =>
      rw [List.map_cons, List.lookup_cons, List.lookup_cons]
      split
      · rfl
      · exact ih

theorem Wiring.add_withoutSpans (definition : Definition) (known : Instances) (wiring : Wiring)
    (link : Link) :
    wiring.withoutSpans.add definition.withoutSpans known.withoutSpans link.withoutSpans =
      (wiring.add definition known link).withoutSpans := by
  have source := link.source.resolve_withoutSpans definition known .source
  have target := link.target.resolve_withoutSpans definition known .target
  have ends : link.withoutSpans.source = link.source.withoutSpans ∧
      link.withoutSpans.target = link.target.withoutSpans := ⟨rfl, rfl⟩
  unfold add
  dsimp only
  rw [ends.1, ends.2, source, target, endErrors_mapError, endErrors_mapError]
  cases link.source.resolve definition known .source with
  | error error => simp [withoutSpans, Except.mapError]
  | ok source =>
      cases link.target.resolve definition known .target with
      | error error => simp [withoutSpans, Except.mapError]
      | ok target =>
          simp only [Except.mapError, lookup_withoutSpans]
          cases wiring.targets.lookup target with
          | some first => simp [withoutSpans, ResolutionError.withoutSpans]
          | none => simp [withoutSpans, ResolvedLink.withoutSpan, PortRef.withoutSpans,
              Link.withoutSpans]

/-! ## Definitions and programs -/

/-- What a body is bound to does not depend on where it is written. -/
theorem Definition.resolve_withoutSpans (program : Program) (registry : Registry)
    (definition : Definition) :
    definition.withoutSpans.resolve program.withoutSpans registry.withoutSpans =
      ((definition.resolve program registry).1.withoutSpans,
        (definition.resolve program registry).2.map ResolutionError.withoutSpans) := by
  have name : definition.withoutSpans.name.name = definition.name.name := rfl
  have known : definition.withoutSpans.uses.foldl
      (Instances.add program.withoutSpans registry.withoutSpans definition.name.name) .empty =
      (definition.uses.foldl (Instances.add program registry definition.name.name)
        .empty).withoutSpans := by
    rw [show definition.withoutSpans.uses = definition.uses.map Use.withoutSpans from rfl,
      List.foldl_map]
    show List.foldl _ (Instances.withoutSpans .empty) _ = _
    exact List.foldl_hom _ fun known use => known.add_withoutSpans program registry _ use
  have wiring : ∀ known : Instances, definition.withoutSpans.links.foldl
      (Wiring.add definition.withoutSpans known.withoutSpans) .empty =
      (definition.links.foldl (Wiring.add definition known) .empty).withoutSpans := by
    intro known
    rw [show definition.withoutSpans.links = definition.links.map Link.withoutSpans from rfl,
      List.foldl_map]
    show List.foldl _ (Wiring.withoutSpans .empty) _ = _
    exact List.foldl_hom _ fun wiring link => wiring.add_withoutSpans definition known link
  have ports : definition.withoutSpans.ports = definition.ports.withoutSpans := rfl
  unfold Definition.resolve
  dsimp only
  rw [name, known, wiring, ports, Ports.repeated_withoutSpans]
  simp [ResolvedDefinition.withoutSpans, Instances.withoutSpans, Wiring.withoutSpans,
    Definition.withoutSpans, Generics.withoutSpans, Ports.withoutSpans, Function.comp_def,
    Ident.withoutSpan]

/-- What a program resolves to does not depend on where anything is written. -/
theorem Program.resolve_withoutSpans (program : Program) (registry : Registry) :
    program.withoutSpans.resolve registry.withoutSpans =
      ((program.resolve registry).1.withoutSpans,
        (program.resolve registry).2.map ResolutionError.withoutSpans) := by
  have each := Definition.resolve_withoutSpans program registry
  have definitions : program.withoutSpans.definitions =
      program.definitions.map Definition.withoutSpans := rfl
  simp [Program.resolve, definitions, ResolvedProgram.withoutSpans, each, Function.comp_def,
    List.flatMap_map, List.map_flatMap]

end FlowDiagram

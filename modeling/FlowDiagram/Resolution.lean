import FlowDiagram.Resolution.Body
import FlowDiagram.Resolution.Error

/-!
# Resolution

Resolution binds the names in the bodies of a program: uses to primitives and definitions, symbols
to generic parameters, link ends to ports.  It goes on past errors; what cannot be bound is left
out, and what hangs on it is left out without a further word.
-/

namespace FlowDiagram

/-! ## Ports -/

/-- The identifiers whose name is in `seen` or occurs earlier in the list. -/
def repeatedAfter (seen : List String) : List Ident → List Ident
  | [] => []
  | ident :: rest =>
    if ident.name ∈ seen then ident :: repeatedAfter seen rest
    else repeatedAfter (ident.name :: seen) rest

/-- Ports are told apart by name on either side. -/
def Ports.repeated (owner : PortsOwner) (ports : Ports) : List ResolutionError :=
  (repeatedAfter [] ports.inputs ++ repeatedAfter [] ports.outputs).map (.repeatedPort owner)

/-! ## Uses -/

/-- An error of a port count, unless as many ports are listed as expected. -/
def Use.countPorts (use : Use) (side : Side) (listed : List Ident) (expected : Nat) :
    List ResolutionError :=
  if listed.length = expected then [] else [.portCount use side listed.length expected]

/-- A use of a target with so many inputs and outputs. -/
def Use.bindPorts (use : Use) (target : UseTarget) (inputs outputs : Nat) :
    Except (List ResolutionError) ResolvedUse :=
  match use.countPorts .input use.ports.inputs inputs ++
      use.countPorts .output use.ports.outputs outputs with
  | [] => .ok
      { name := use.name.name
        target := target
        inputs := use.ports.inputs.map (·.name)
        outputs := use.ports.outputs.map (·.name)
        span := use.span }
  | errors => .error errors

/-- Errors of the numbers of generic symbols written for `callee`. -/
def Generics.countFor (arguments : Generics) (callee : Definition) : List ResolutionError :=
  let universal := callee.generics.universal.length
  let existential := callee.generics.existential.length
  (if arguments.universal.length = universal then []
    else [.universalCount callee.name.name universal arguments.universal.length arguments.span]) ++
  (if arguments.existential = [] ∨ arguments.existential.length = existential then []
    else [.existentialCount callee.name.name existential arguments.existential.length
      arguments.span])

/--
The symbols that a use passes to `callee`, and whether it leaves the existential ones to it.  What
is not written passes under the names that the callee has for it.
-/
def bindGenerics (callee : Definition) :
    Option Generics → Except (List ResolutionError) (List Symbol × Bool)
  | none =>
    .ok ((callee.generics.universal ++ callee.generics.existential).map (·.name), true)
  | some arguments =>
    match arguments.countFor callee with
    | [] =>
      if arguments.existential = [] then
        .ok ((arguments.universal ++ callee.generics.existential).map (·.name), true)
      else .ok ((arguments.universal ++ arguments.existential).map (·.name), false)
    | errors => .error errors

/-- The primitive that a box names, or nothing when it names a definition. -/
def BoxRef.primitive? : BoxRef → Option (Except CatalogError Primitive)
  | .add symbol => some (Primitive.lookup "+" (.symbol symbol.name))
  | .remove symbol => some (Primitive.lookup "-" (.symbol symbol.name))
  | .spawn symbol => some (Primitive.lookup "*" (.symbol symbol.name))
  | .indexed tag count _ => some (Primitive.lookup tag.name (.count count.toNat))
  | .join _ => some (Primitive.lookup "><" .none)
  | .split _ => some (Primitive.lookup "<>" .none)
  | .definition .. => none

/-- Bind a use of the definition `name`. -/
def Use.resolveDefinition (program : Program) (registry : Registry) (use : Use) (name : Ident)
    (arguments : Option Generics) : Except (List ResolutionError) ResolvedUse :=
  match registry.find? name.name with
  | none => .error [.unknownDefinition name]
  | some entry =>
    match program.definitions[entry.index]? with
    | none => .error [.unknownDefinition name]
    | some callee => do
      let (symbols, fresh) ← bindGenerics callee arguments
      use.bindPorts (.definition entry.index symbols fresh) entry.inputs entry.outputs

/-- Bind a use, or say all that keeps it from being bound. -/
def Use.resolve (program : Program) (registry : Registry) (use : Use) :
    Except (List ResolutionError) ResolvedUse :=
  match use.box with
  | .definition name arguments => use.resolveDefinition program registry name arguments
  | box =>
    match box.primitive? with
    | some (.ok primitive) =>
      use.bindPorts (.primitive primitive) primitive.inputs primitive.outputs
    | some (.error error) => .error [.notInCatalog error box.span]
    | none => .error []

/-! ## Instances of a body -/

/-- A name given to an instance, and the number of its use if that could be bound. -/
structure InstanceName where
  ident : Ident
  number : Option Nat
  deriving DecidableEq

/-- The uses of a body bound so far, and the names given so far. -/
structure Instances where
  uses : List ResolvedUse
  names : List InstanceName
  errors : List ResolutionError

def Instances.empty : Instances := ⟨[], [], []⟩

/-- What is known of an instance name. -/
def Instances.find? (known : Instances) (name : String) : Option InstanceName :=
  known.names.find? (·.ident.name == name)

/-- Take one more use; a use under a name already given is passed over. -/
def Instances.add (program : Program) (registry : Registry) (definition : String)
    (known : Instances) (use : Use) : Instances :=
  match known.find? use.name.name with
  | some first =>
    { known with
      errors := known.errors ++ [.repeatedInstance definition use.name first.ident.span] }
  | none =>
    let errors := known.errors ++ use.ports.repeated (.use use.name.name)
    match use.resolve program registry with
    | .ok resolved =>
      ⟨known.uses ++ [resolved], known.names ++ [⟨use.name, some known.uses.length⟩], errors⟩
    | .error more => ⟨known.uses, known.names ++ [⟨use.name, none⟩], errors ++ more⟩

/-! ## Links -/

/-- The number of the first port of a name. -/
def portNumber? (ports : List String) (port : String) : Option Nat :=
  ports.findIdx? (· == port)

/-- The ports on a side of a definition's boundary. -/
def Definition.boundary (definition : Definition) : Side → List String
  | .input => definition.ports.inputs.map (·.name)
  | .output => definition.ports.outputs.map (·.name)

/-- The ports on a side of a use. -/
def ResolvedUse.ports (use : ResolvedUse) : Side → List String
  | .input => use.inputs
  | .output => use.outputs

/--
Bind an end of a link.  The error is missing when the end names an instance whose use could not be
bound: that has been told already.
-/
def PortRef.resolve (definition : Definition) (known : Instances) (role : LinkRole)
    (ref : PortRef) : Except (Option ResolutionError) LinkEnd :=
  let port := ref.port.name
  match ref.owner with
  | none =>
    match portNumber? (definition.boundary role.boundarySide) port with
    | some number => .ok (.boundary number)
    | none =>
      if port ∈ definition.boundary role.boundarySide.other then
        .error (some (.boundaryRole definition.name.name ref role))
      else .error (some (.unknownBoundaryPort definition.name.name ref role))
  | some owner =>
    match known.find? owner.name with
    | none => .error (some (.unknownInstance definition.name.name owner))
    | some ⟨_, none⟩ => .error none
    | some ⟨_, some number⟩ =>
      match known.uses[number]? with
      | none => .error none
      | some use =>
        match portNumber? (use.ports role.instanceSide) port with
        | some port => .ok (.use number port)
        | none =>
          if port ∈ use.ports role.instanceSide.other then
            .error (some (.instanceRole owner ref role))
          else .error (some (.unknownInstancePort owner ref))

/-- The links of a body bound so far, each with the place of its target. -/
structure Wiring where
  links : List ResolvedLink
  targets : List (LinkEnd × Span)
  errors : List ResolutionError

def Wiring.empty : Wiring := ⟨[], [], []⟩

/-- The error of an end, if it has one to tell. -/
def endErrors : Except (Option ResolutionError) LinkEnd → List ResolutionError
  | .error (some error) => [error]
  | _ => []

/-- Take one more link; at most one link may end at a port. -/
def Wiring.add (definition : Definition) (known : Instances) (wiring : Wiring) (link : Link) :
    Wiring :=
  let source := link.source.resolve definition known .source
  let target := link.target.resolve definition known .target
  match source, target with
  | .ok source, .ok target =>
    match wiring.targets.lookup target with
    | some first => { wiring with errors := wiring.errors ++ [.fanIn link.target first] }
    | none =>
      ⟨wiring.links ++ [⟨source, target, link.span⟩],
        wiring.targets ++ [(target, link.target.span)], wiring.errors⟩
  | _, _ => { wiring with errors := wiring.errors ++ endErrors source ++ endErrors target }

/-! ## Definitions and programs -/

/-- Bind the body of a definition as far as it can be bound. -/
def Definition.resolve (program : Program) (registry : Registry) (definition : Definition) :
    ResolvedDefinition × List ResolutionError :=
  let name := definition.name.name
  let known := definition.uses.foldl (Instances.add program registry name) .empty
  let wiring := definition.links.foldl (Wiring.add definition known) .empty
  ({ name := name
     span := definition.name.span
     universal := definition.generics.universal.map (·.name)
     existential := definition.generics.existential.map (·.name)
     inputs := definition.ports.inputs.map (·.name)
     outputs := definition.ports.outputs.map (·.name)
     uses := known.uses
     links := wiring.links },
   definition.ports.repeated (.definition name) ++ known.errors ++ wiring.errors)

/-- Bind the bodies of a program. -/
def Program.resolve (program : Program) (registry : Registry) :
    ResolvedProgram × List ResolutionError :=
  let results := program.definitions.map (Definition.resolve program registry)
  (⟨results.map (·.1)⟩, results.flatMap (·.2))

end FlowDiagram

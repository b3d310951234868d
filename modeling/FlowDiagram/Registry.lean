import FlowDiagram.Diagnostic
import FlowDiagram.Program

/-!
# The registry of definitions

Definitions are registered under their names, together with their shapes.  The first definition of
a name holds it; a second one is refused and changes nothing.
-/

namespace FlowDiagram

/-- Where a definition stands among those of its program, and its declared shape. -/
structure RegistryEntry where
  index : Nat
  name : String
  span : Span
  universal : Nat
  existential : Nat
  inputs : Nat
  outputs : Nat
  deriving DecidableEq

def RegistryEntry.ofDefinition (index : Nat) (definition : Definition) : RegistryEntry where
  index := index
  name := definition.name.name
  span := definition.name.span
  universal := definition.generics.universal.length
  existential := definition.generics.existential.length
  inputs := definition.ports.inputs.length
  outputs := definition.ports.outputs.length

/-- Entries in the order of registration, and under each name the place of its entry. -/
structure Registry where
  entries : List RegistryEntry
  slots : List (String × Nat)
  deriving DecidableEq

inductive RegistryError where
  | duplicate (name : String) (first second : Span)
  | unknown (name : String)
  deriving DecidableEq

def RegistryError.kind : RegistryError → DiagnosticKind
  | .duplicate .. => .duplicateDefinition
  | .unknown _ => .unknownDefinition

def RegistryError.message : RegistryError → String
  | .duplicate name _ _ => "duplicate definition `" ++ name ++ "`"
  | .unknown name => "unknown definition `" ++ name ++ "`"

namespace Registry

def empty : Registry := ⟨[], []⟩

def size (registry : Registry) : Nat := registry.entries.length

def isEmpty (registry : Registry) : Bool := registry.entries.isEmpty

/-- The entry that holds a name. -/
def find? (registry : Registry) (name : String) : Option RegistryEntry :=
  (registry.slots.lookup name).bind fun slot => registry.entries[slot]?

theorem mem_of_find?_eq_some {registry : Registry} {name : String} {entry : RegistryEntry}
    (found : registry.find? name = some entry) : entry ∈ registry.entries := by
  obtain ⟨slot, -, there⟩ := Option.bind_eq_some_iff.mp found
  exact List.mem_of_getElem? there

/-- The entry that holds a name, or the error that nothing does. -/
def resolve (registry : Registry) (name : String) : Except RegistryError RegistryEntry :=
  match registry.find? name with
  | some entry => .ok entry
  | none => .error (.unknown name)

/-- The registry with one entry more, for the definition at `index`. -/
def add (registry : Registry) (index : Nat) (definition : Definition) : Registry where
  entries := registry.entries ++ [.ofDefinition index definition]
  slots := (definition.name.name, registry.entries.length) :: registry.slots

/-- The refusal of a definition whose name an entry holds. -/
def refusal (definition : Definition) (holder : RegistryEntry) : RegistryError :=
  .duplicate definition.name.name holder.span definition.name.span

/-- Register the definition at `index`, unless its name is held.  The registry after the call comes
with the outcome, refused or not. -/
def register (registry : Registry) (index : Nat) (definition : Definition) :
    Except RegistryError Unit × Registry :=
  match registry.find? definition.name.name with
  | some entry => (.error (refusal definition entry), registry)
  | none => (.ok (), registry.add index definition)

/-- Register definitions from `index` on; refused ones are told and passed over. -/
def registerAll (registry : Registry) (index : Nat) :
    List Definition → Registry × List RegistryError
  | [] => (registry, [])
  | definition :: rest =>
    let (outcome, next) := registry.register index definition
    let (final, errors) := next.registerAll (index + 1) rest
    match outcome with
    | .ok () => (final, errors)
    | .error error => (final, error :: errors)

section

variable {registry : Registry} {definition : Definition} {entry : RegistryEntry}

theorem register_of_new (new : registry.find? definition.name.name = none) (index : Nat) :
    registry.register index definition = (.ok (), registry.add index definition) := by
  rw [register, new]

/-- A definition whose name is held changes nothing. -/
theorem register_of_held (held : registry.find? definition.name.name = some entry) (index : Nat) :
    registry.register index definition = (.error (refusal definition entry), registry) := by
  rw [register, held]

theorem registerAll_of_new (new : registry.find? definition.name.name = none) (index : Nat)
    (rest : List Definition) :
    registry.registerAll index (definition :: rest) =
      (registry.add index definition).registerAll (index + 1) rest := by
  rw [registerAll, register_of_new new]

theorem registerAll_of_held (held : registry.find? definition.name.name = some entry)
    (index : Nat) (rest : List Definition) :
    registry.registerAll index (definition :: rest) =
      ((registry.registerAll (index + 1) rest).1,
        refusal definition entry :: (registry.registerAll (index + 1) rest).2) := by
  rw [registerAll, register_of_held held]

end

/-- The registry of a program, and the definitions refused. -/
def ofProgram (program : Program) : Registry × List RegistryError :=
  registerAll empty 0 program.definitions

end Registry

/-- A second definition is shown together with the first one of its name. -/
def RegistryError.diagnostic (place : Span) (error : RegistryError) : Diagnostic :=
  match error with
  | .duplicate _ first second =>
    ((Diagnostic.error error.kind second error.message).withRelated first
      "first defined here").withHint "rename one of the definitions"
  | .unknown _ => .error error.kind place error.message

end FlowDiagram

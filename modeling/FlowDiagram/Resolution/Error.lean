import FlowDiagram.Diagnostic
import FlowDiagram.Primitive
import FlowDiagram.Program.Print
import FlowDiagram.Registry

/-!
# What can be wrong with a body

Each cause is what a person has to know to mend it; wording and place follow from the cause.
-/

namespace FlowDiagram

/-- The side of a box that a port is on. -/
inductive Side where
  | input
  | output
  deriving DecidableEq

def Side.name : Side → String
  | .input => "input"
  | .output => "output"

/-- The part that an end plays in its link. -/
inductive LinkRole where
  | source
  | target
  deriving DecidableEq

def LinkRole.name : LinkRole → String
  | .source => "source"
  | .target => "target"

/-- The side of the boundary that a link end of this role may name. -/
def LinkRole.boundarySide : LinkRole → Side
  | .source => .input
  | .target => .output

/-- The side of an instance that a link end of this role may name. -/
def LinkRole.instanceSide : LinkRole → Side
  | .source => .output
  | .target => .input

def Side.other : Side → Side
  | .input => .output
  | .output => .input

/-- Whose ports are listed: a definition's, or those of an instance. -/
inductive PortsOwner where
  | definition (name : String)
  | use (name : String)
  deriving DecidableEq

def PortsOwner.text : PortsOwner → String
  | .definition name => "definition `" ++ name ++ "`"
  | .use name => "instance `" ++ name ++ "`"

inductive ResolutionError where
  /-- A port is listed twice on one side. -/
  | repeatedPort (owner : PortsOwner) (port : Ident)
  /-- An instance has the name of an earlier one. -/
  | repeatedInstance (definition : String) (name : Ident) (first : Span)
  /-- A use names a definition that is not there. -/
  | unknownDefinition (name : Ident)
  /-- A use names no primitive. -/
  | notInCatalog (error : CatalogError) (place : Span)
  /-- A use lists too few or too many ports on a side. -/
  | portCount (use : Use) (side : Side) (listed expected : Nat)
  /-- A use writes the wrong number of universal symbols. -/
  | universalCount (callee : String) (expected given : Nat) (place : Span)
  /-- A use writes the wrong number of existential symbols. -/
  | existentialCount (callee : String) (expected given : Nat) (place : Span)
  /-- A boundary port plays the part of the other side. -/
  | boundaryRole (definition : String) (ref : PortRef) (role : LinkRole)
  | unknownBoundaryPort (definition : String) (ref : PortRef) (role : LinkRole)
  | unknownInstance (definition : String) (name : Ident)
  /-- A port of an instance plays the part of the other side. -/
  | instanceRole (owner : Ident) (ref : PortRef) (role : LinkRole)
  | unknownInstancePort (owner : Ident) (ref : PortRef)
  /-- Two links end at one port. -/
  | fanIn (ref : PortRef) (first : Span)
  deriving DecidableEq

namespace ResolutionError

def kind : ResolutionError → DiagnosticKind
  | .repeatedPort .. | .boundaryRole .. | .instanceRole .. => .portMismatch
  | .repeatedInstance .. => .duplicateInstance
  | .unknownDefinition _ => .unknownDefinition
  | .notInCatalog error _ => error.kind
  | .portCount .. | .universalCount .. | .existentialCount .. => .arityMismatch
  | .unknownBoundaryPort .. | .unknownInstance .. | .unknownInstancePort .. => .unboundPort
  | .fanIn .. => .illegalFanIn

def span : ResolutionError → Span
  | .repeatedPort _ port => port.span
  | .repeatedInstance _ name _ | .unknownDefinition name | .unknownInstance _ name => name.span
  | .notInCatalog _ place | .universalCount _ _ _ place | .existentialCount _ _ _ place => place
  | .portCount use _ _ _ => use.ports.span
  | .boundaryRole _ ref _ | .unknownBoundaryPort _ ref _ | .instanceRole _ ref _
  | .unknownInstancePort _ ref | .fanIn ref _ => ref.span

/-- How many symbols of a sort a definition takes. -/
def countMessage (callee sort : String) (expected given : Nat) : String :=
  "`" ++ callee ++ "` takes " ++ toString expected ++ " " ++ sort ++ " generator(s), " ++
    toString given ++ " given"

def message : ResolutionError → String
  | .repeatedPort owner port => "port `" ++ port.name ++ "` is declared twice on " ++ owner.text
  | .repeatedInstance definition name _ =>
    "instance `" ++ name.name ++ "` is declared twice in `" ++ definition ++ "`"
  | .unknownDefinition name => (RegistryError.unknown name.name).message
  | .notInCatalog error _ => error.message
  | .portCount use side listed expected =>
    "instance `" ++ use.name.name ++ "` of `" ++ use.box.text ++ "` lists " ++ toString listed ++
      " " ++ side.name ++ "s, expected " ++ toString expected
  | .universalCount callee expected given _ => countMessage callee "universal" expected given
  | .existentialCount callee expected given _ => countMessage callee "existential" expected given
  | .boundaryRole definition ref role =>
    "boundary " ++ role.boundarySide.other.name ++ " `" ++ ref.port.name ++ "` of `" ++
      definition ++ "` cannot be used as an edge " ++ role.name
  | .unknownBoundaryPort definition ref role =>
    "`" ++ definition ++ "` has no boundary " ++ role.boundarySide.name ++ " `" ++
      ref.port.name ++ "`"
  | .unknownInstance definition name =>
    "no instance `" ++ name.name ++ "` in `" ++ definition ++ "`"
  | .instanceRole owner ref role =>
    "`" ++ ref.text ++ "` is an " ++ role.instanceSide.other.name ++ " of `" ++ owner.name ++
      "` and cannot be used as an edge " ++ role.name
  | .unknownInstancePort owner ref =>
    "instance `" ++ owner.name ++ "` has no port `" ++ ref.port.name ++ "`"
  | .fanIn ref _ => "port `" ++ ref.text ++ "` already has an incoming edge"

def hint : ResolutionError → Option String
  | .unknownInstance _ name => some ("declare it with `use ... as " ++ name.name ++ "`")
  | .fanIn .. => some "merge the flows explicitly with `U\x7bk\x7d` or `><`"
  | _ => none

def related : ResolutionError → List RelatedPlace
  | .repeatedInstance _ _ first => [⟨first, "first declared here"⟩]
  | .fanIn _ first => [⟨first, "first edge here"⟩]
  | _ => []

def diagnostic (error : ResolutionError) : Diagnostic :=
  { Diagnostic.error error.kind error.span error.message with
    hint := error.hint
    related := error.related }

end ResolutionError

end FlowDiagram

import FlowDiagram.Token

/-!
# Programs

A program is a list of definitions of boxes.  A definition has generic symbols, boundary ports and
a body: uses of boxes, each under a name of its own, and links from port to port.  Every part knows
the bytes of the source that it was read from.
-/

namespace FlowDiagram

/-- A name where it is written. -/
structure Ident where
  name : String
  span : Span
  deriving DecidableEq

/--
Generic symbols `<u1, u2 | e1>`.  Universal symbols are supplied by whoever uses a definition,
existential ones are introduced by the definition itself.
-/
structure Generics where
  universal : List Ident
  existential : List Ident
  span : Span
  deriving DecidableEq

def Generics.empty (span : Span) : Generics := ⟨[], [], span⟩

def Generics.isEmpty (generics : Generics) : Bool :=
  generics.universal.isEmpty && generics.existential.isEmpty

def Generics.size (generics : Generics) : Nat :=
  generics.universal.length + generics.existential.length

/-- The ports `[in1, in2 | out1]` of a box. -/
structure Ports where
  inputs : List Ident
  outputs : List Ident
  span : Span
  deriving DecidableEq

/-- The box that a use names. -/
inductive BoxRef where
  | add (symbol : Ident)
  | remove (symbol : Ident)
  | spawn (symbol : Ident)
  | indexed (tag : Ident) (count : UInt32) (span : Span)
  | join (span : Span)
  | split (span : Span)
  | definition (name : Ident) (arguments : Option Generics)
  deriving DecidableEq

/-- Where a box is named: a signed symbol counts without its sign. -/
def BoxRef.span : BoxRef → Span
  | .add symbol | .remove symbol | .spawn symbol => symbol.span
  | .indexed _ _ span | .join span | .split span => span
  | .definition name none => name.span
  | .definition name (some arguments) => ⟨name.span.start, arguments.span.stop⟩

/-- An instance of a box: `use box ports as name`. -/
structure Use where
  box : BoxRef
  ports : Ports
  name : Ident
  span : Span
  deriving DecidableEq

/-- A boundary port of the enclosing definition, or a port of the instance `owner`. -/
structure PortRef where
  owner : Option Ident
  port : Ident
  span : Span
  deriving DecidableEq

/-- A link `source >-> target`. -/
structure Link where
  source : PortRef
  target : PortRef
  span : Span
  deriving DecidableEq

structure Definition where
  name : Ident
  generics : Generics
  ports : Ports
  uses : List Use
  links : List Link
  span : Span
  deriving DecidableEq

structure Program where
  definitions : List Definition
  span : Span
  deriving DecidableEq

/-- The first definition of a name. -/
def Program.definition? (program : Program) (name : String) : Option Definition :=
  program.definitions.find? (·.name.name == name)

end FlowDiagram

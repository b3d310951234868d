import FlowDiagram.Primitive
import FlowDiagram.Text.Span

/-!
# Resolved programs

In a resolved program names have given way to numbers: a use points to a primitive or to a
definition of the program, and a link runs from port number to port number.
-/

namespace FlowDiagram

/--
What a use instantiates.  A definition gets one symbol per generic symbol, the universal ones
first, written as in the enclosing definition; `fresh` says that the existential ones were left to
it.
-/
inductive UseTarget where
  | primitive (primitive : Primitive)
  | definition (index : Nat) (arguments : List Symbol) (fresh : Bool)
  deriving DecidableEq

/-- A resolved use, with its own names for the ports of its target. -/
structure ResolvedUse where
  name : String
  target : UseTarget
  inputs : List String
  outputs : List String
  span : Span
  deriving DecidableEq

/--
An end of a link: a boundary port, which is an input for a source and an output for a target, or a
port of a use.
-/
inductive LinkEnd where
  | boundary (port : Nat)
  | use (number : Nat) (port : Nat)
  deriving DecidableEq

structure ResolvedLink where
  source : LinkEnd
  target : LinkEnd
  span : Span
  deriving DecidableEq

structure ResolvedDefinition where
  name : String
  span : Span
  universal : List Symbol
  existential : List Symbol
  inputs : List String
  outputs : List String
  uses : List ResolvedUse
  links : List ResolvedLink
  deriving DecidableEq

/-- The generic symbols, universal ones first. -/
def ResolvedDefinition.parameters (definition : ResolvedDefinition) : List Symbol :=
  definition.universal ++ definition.existential

/-- Resolved definitions, in the order of their program. -/
structure ResolvedProgram where
  definitions : List ResolvedDefinition
  deriving DecidableEq

/-- The number of the first definition of a name. -/
def ResolvedProgram.indexOf? (program : ResolvedProgram) (name : String) : Option Nat :=
  program.definitions.findIdx? (·.name == name)

end FlowDiagram

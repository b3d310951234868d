import FlowDiagram.Diagnostic
import FlowDiagram.Symbol

/-!
# Primitive boxes

The closed set of boxes that need no definition: they add, remove or spawn a symbol, merge several
flows, or copy one flow onto two.  Every other box unfolds into these.
-/

namespace FlowDiagram

inductive Primitive where
  /-- Adds a symbol that must not be there. -/
  | add (symbol : Symbol)
  /-- Removes a symbol that must be there. -/
  | remove (symbol : Symbol)
  /-- Adds a symbol, there or not. -/
  | spawn (symbol : Symbol)
  /-- Merges as many flows as it says. -/
  | union (count : Nat)
  /-- Merges two flows. -/
  | join
  /-- Copies a flow onto two. -/
  | split
  deriving DecidableEq

namespace Primitive

/-- How many flows go in. -/
def inputs : Primitive → Nat
  | .add _ | .remove _ | .spawn _ => 1
  | .union count => count
  | .join => 2
  | .split => 1

/-- How many flows come out. -/
def outputs : Primitive → Nat
  | .split => 2
  | _ => 1

/-- Replace the symbol, if there is one. -/
def rename (bind : Symbol → Symbol) : Primitive → Primitive
  | .add symbol => .add (bind symbol)
  | .remove symbol => .remove (bind symbol)
  | .spawn symbol => .spawn (bind symbol)
  | other => other

/-- The symbol that a primitive acts on. -/
def symbol? : Primitive → Option Symbol
  | .add symbol | .remove symbol | .spawn symbol => some symbol
  | _ => none

def text : Primitive → String
  | .add symbol => "+" ++ symbol.written
  | .remove symbol => "-" ++ symbol.written
  | .spawn symbol => "*" ++ symbol.written
  | .union count => "U\x7b" ++ toString count ++ "\x7d"
  | .join => "><"
  | .split => "<>"

end Primitive

/-! ## The catalog -/

/-- What stands with the tag of a primitive. -/
inductive CatalogArgument where
  | none
  | symbol (symbol : Symbol)
  | count (count : Nat)
  deriving DecidableEq

inductive CatalogError where
  | unknown (tag : String)
  | noInputs (tag : String)
  | wrongArgument (tag : String)
  deriving DecidableEq

def CatalogError.kind : CatalogError → DiagnosticKind
  | .unknown _ => .unknownPrimitive
  | .noInputs _ | .wrongArgument _ => .arityMismatch

def CatalogError.message : CatalogError → String
  | .unknown tag => "unknown primitive `" ++ tag ++ "`"
  | .noInputs tag => "primitive `" ++ tag ++ "\x7b0\x7d` needs at least one input"
  | .wrongArgument tag => "primitive `" ++ tag ++ "` takes a different argument"

/-- The tags under which primitives are known. -/
def catalogTags : List String :=
  ["+", "-", "*", "U", "><", "<>"]

/-- The primitive with a tag and an argument; a merge needs at least one flow. -/
def Primitive.lookup (tag : String) (argument : CatalogArgument) :
    Except CatalogError Primitive :=
  match tag, argument with
  | "+", .symbol symbol => .ok (.add symbol)
  | "-", .symbol symbol => .ok (.remove symbol)
  | "*", .symbol symbol => .ok (.spawn symbol)
  | "U", .count 0 => .error (.noInputs tag)
  | "U", .count count => .ok (.union count)
  | "><", .none => .ok .join
  | "<>", .none => .ok .split
  | _, _ => .error (if tag ∈ catalogTags then .wrongArgument tag else .unknown tag)

end FlowDiagram

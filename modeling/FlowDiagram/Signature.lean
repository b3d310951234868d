import FlowDiagram.SymbolSet
import FlowDiagram.Text.Joined

/-!
# Signatures

The signature of a graph says for each boundary port which symbols every flow through it carries,
and which none does.
-/

namespace FlowDiagram

open Text

/-- What is known of the symbols that pass a port. -/
structure PortType where
  includes : SymbolSet
  excludes : SymbolSet
  deriving DecidableEq

def PortType.unknown : PortType := ⟨.empty, .empty⟩

instance : Inhabited PortType := ⟨.unknown⟩

structure PortSignature where
  name : String
  type : PortType
  deriving DecidableEq

structure Signature where
  inputs : List PortSignature
  outputs : List PortSignature
  deriving DecidableEq

/-- The written names of the members of a set, each once, in increasing order. -/
def SymbolSet.written (set : SymbolSet) : List String :=
  (SymbolSet.ofList (set.toList.map Symbol.written)).toList

theorem SymbolSet.mem_written {set : SymbolSet} {name : String} :
    name ∈ set.written ↔ ∃ symbol ∈ set, symbol.written = name := by
  unfold SymbolSet.written
  rw [← SymbolSet.mem_def, SymbolSet.mem_ofList, List.mem_map]
  rfl

/-- The symbols carried, then the symbols not carried behind a `!`, all under their written
names. -/
def PortType.text (type : PortType) : String :=
  "\x7b" ++ commaList (type.includes.written ++ type.excludes.written.map ("!" ++ ·)) ++ "\x7d"

def PortSignature.text (port : PortSignature) : String :=
  port.name ++ ": " ++ port.type.text

namespace Signature

def text (signature : Signature) : String :=
  "[" ++ commaList (signature.inputs.map PortSignature.text) ++ " | " ++
    commaList (signature.outputs.map PortSignature.text) ++ "]"

/-- The type of the first port of a name in a list. -/
def type? (ports : List PortSignature) (name : String) : Option PortType :=
  (ports.find? (·.name == name)).map (·.type)

def input? (signature : Signature) (name : String) : Option PortType :=
  type? signature.inputs name

def output? (signature : Signature) (name : String) : Option PortType :=
  type? signature.outputs name

end Signature

end FlowDiagram

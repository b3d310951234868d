import FlowDiagram.Primitive
import FlowDiagram.Signature

/-!
# Rules of inference

A wire carries a flow from one source to all its targets.  What is known of the wires at a
primitive implies more about them, in both directions.  Facts are only ever added.
-/

namespace FlowDiagram

/-- A wire by its number. -/
abbrev Wire := Nat

/-- What is known of each wire. -/
abbrev Facts := Array PortType

namespace Facts

/-- Nothing known of so many wires. -/
def unknown (wires : Nat) : Facts := Array.replicate wires .unknown

/-- What is known of a wire. -/
def get (facts : Facts) (wire : Wire) : PortType :=
  (facts[wire]?).getD .unknown

/-- The wire carries these symbols. -/
def carry (facts : Facts) (wire : Wire) (symbols : SymbolSet) : Facts :=
  facts.modify wire fun type => { type with includes := type.includes.union symbols }

/-- The wire carries none of these symbols. -/
def lack (facts : Facts) (wire : Wire) (symbols : SymbolSet) : Facts :=
  facts.modify wire fun type => { type with excludes := type.excludes.union symbols }

/-- What `source` carries, `target` carries, but for `except`. -/
def carryOver (facts : Facts) (source target : Wire) (except : Option Symbol) : Facts :=
  facts.carry target ((facts.get source).includes.filter (some · != except))

/-- What `source` lacks, `target` lacks, but for `except`. -/
def lackOver (facts : Facts) (source target : Wire) (except : Option Symbol) : Facts :=
  facts.lack target ((facts.get source).excludes.filter (some · != except))

/-- Two wires agree on all symbols but `except`. -/
def agree (facts : Facts) (first second : Wire) (except : Option Symbol) : Facts :=
  let facts := facts.carryOver first second except
  let facts := facts.lackOver first second except
  let facts := facts.carryOver second first except
  facts.lackOver second first except

/-! ## Merging -/

/-- An input of a merge carries no more than the output, and lacks what the output lacks. -/
def mergeInput (output : Wire) (facts : Facts) (input : Wire) : Facts :=
  (facts.carryOver input output none).lackOver output input none

/-- The symbols that every wire of a list lacks. -/
def lackedByAll (facts : Facts) : List Wire → SymbolSet
  | [] => .empty
  | first :: rest =>
    (facts.get first).excludes.filter fun symbol =>
      rest.all fun wire => decide (symbol ∈ (facts.get wire).excludes)

/--
A symbol that the output of a merge carries comes from an input; if only one input can still carry
it, that one does.
-/
def supply (inputs : List Wire) (facts : Facts) (symbol : Symbol) : Facts :=
  if inputs.any fun wire => decide (symbol ∈ (facts.get wire).includes) then facts
  else
    match inputs.filter fun wire => decide (symbol ∉ (facts.get wire).excludes) with
    | [only] => facts.carry only (.singleton symbol)
    | _ => facts

/-- The flow of `output` is the union of the flows of `inputs`. -/
def merge (facts : Facts) (inputs : List Wire) (output : Wire) : Facts :=
  let facts := inputs.foldl (mergeInput output) facts
  let facts := facts.lack output (facts.lackedByAll inputs)
  (facts.get output).includes.toList.foldl (supply inputs) facts

/-! ## Primitives -/

/-- All that the facts on the wires of a primitive imply at once. -/
def apply (facts : Facts) (primitive : Primitive) (inputs outputs : List Wire) : Facts :=
  match primitive, inputs, outputs with
  | .add symbol, input :: _, output :: _ =>
    ((facts.carry output (.singleton symbol)).lack input (.singleton symbol)).agree input output
      (some symbol)
  | .remove symbol, input :: _, output :: _ =>
    ((facts.carry input (.singleton symbol)).lack output (.singleton symbol)).agree input output
      (some symbol)
  | .spawn symbol, input :: _, output :: _ =>
    (facts.carry output (.singleton symbol)).agree input output (some symbol)
  | .union _, _, output :: _ | .join, _, output :: _ => facts.merge inputs output
  | .split, input :: _, _ =>
    outputs.foldl (fun facts output => facts.agree input output none) facts
  | _, _, _ => facts

end Facts

end FlowDiagram

/-!
# Passes

A compilation runs in passes, each of which works on what others have made.  To get the result of a
pass those that it works on are run before it, in order, and no other.
-/

namespace FlowDiagram

inductive Pass where
  | register
  | resolve
  | expand
  | check
  | infer
  deriving DecidableEq

/-- What a pass makes. -/
inductive Artifact where
  | registry
  | resolved
  | graph
  | checked
  | signature
  deriving DecidableEq

namespace Pass

/-- All passes, in the order in which they run. -/
def all : List Pass := [.register, .resolve, .expand, .check, .infer]

def name : Pass → String
  | .register => "register"
  | .resolve => "resolve"
  | .expand => "expand"
  | .check => "check"
  | .infer => "infer"

/-- The passes whose results a pass works on. -/
def inputs : Pass → List Pass
  | .register => []
  | .resolve => [.register]
  | .expand => [.resolve]
  | .check => [.expand]
  | .infer => [.check]

def outputs : Pass → List Artifact
  | .register => [.registry]
  | .resolve => [.resolved]
  | .expand => [.graph]
  | .check => [.checked]
  | .infer => [.signature]

/-- What holds of the result of a pass. -/
def invariants : Pass → String
  | .register => "definition names unique, first definition wins"
  | .resolve => "every use bound, use-site arity matches, no fan-in"
  | .expand => "flat graph of primitives, recursion cut at max depth"
  | .check => "every port connected as declared"
  | .infer => "no wire both carries and excludes a generator"

/--
Put a pass in line, behind those that it works on, unless it has been seen.  Of the two lists the
first has what has been seen, and the second what is in line; `steps` is how many passes there may
be on the way from the one that was asked for.
-/
def enqueue : Nat → Pass → List Pass × List Pass → List Pass × List Pass
  | 0, _, lists => lists
  | steps + 1, pass, (seen, line) =>
    if pass ∈ seen then (seen, line)
    else
      let (seen, line) :=
        pass.inputs.foldl (fun lists input => enqueue steps input lists) (pass :: seen, line)
      (seen, line ++ [pass])

/-- The passes to run for the result of a pass, in order.  No pass comes twice on the way to
another, so there are never more on it than there are passes. -/
def required (terminal : Pass) : List Pass := (enqueue all.length terminal ([], [])).2

/-- All passes up to one are required for it, as each works on the one before. -/
theorem required_eq (terminal : Pass) :
    required terminal = all.takeWhile (· != terminal) ++ [terminal] := by
  cases terminal <;> rfl

end Pass

end FlowDiagram

import FlowDiagram.Connection
import FlowDiagram.Expansion
import FlowDiagram.Pass
import FlowDiagram.Resolution
import FlowDiagram.Signature.Inference

/-!
# Running passes

A run takes a program through the passes up to a terminal one.  Each pass reports its diagnostics;
the first that reports an error is the last to run.
-/

namespace FlowDiagram

/--
What to compile, and within which limits.  A pass that is stopped by the clock leaves nothing of
what it has made, so it does not matter at which of its looks that happens.  But the time may run
out between two passes, so each has an answer of its own.
-/
structure CompileOptions where
  /-- The root; without one it is `main`, or else the last definition. -/
  root : Option String
  /-- The symbols bound to the universal symbols of the root. -/
  generators : Option (List Symbol)
  /-- Whether the signature is asked for. -/
  typing : Bool
  limits : UnfoldingLimits
  /-- Whether the check of the connections is stopped by the clock. -/
  checkExpired : Bool
  /-- Whether inference is stopped by the clock. -/
  inferExpired : Bool

/-! ## The root -/

inductive RootError where
  | notDefined (name : String)
  | noDefinitions
  deriving DecidableEq

def RootError.diagnostic (place : Span) : RootError → Diagnostic
  | .notDefined name =>
    .error .unknownDefinition place ("root definition `" ++ name ++ "` is not defined")
  | .noDefinitions =>
    (Diagnostic.error .unknownDefinition place "program contains no definitions").withHint
      "start a diagram with `def main = [X | Y] ...`"

namespace ResolvedProgram

/-- The first definition of a name. -/
def named? (program : ResolvedProgram) (name : String) : Option program.Index :=
  program.definitions.findFinIdx? (·.name == name)

/-- The last definition. -/
def last? (program : ResolvedProgram) : Option program.Index :=
  if nonempty : 0 < program.definitions.length then
    some ⟨program.definitions.length - 1, Nat.sub_one_lt_of_lt nonempty⟩
  else none

/-- The definition of the given name; without one `main`, or else the last definition. -/
def selectRoot (program : ResolvedProgram) : Option String → Except RootError program.Index
  | some name =>
    match program.named? name with
    | some index => .ok index
    | none => .error (.notDefined name)
  | none =>
    match (program.named? "main").or program.last? with
    | some index => .ok index
    | none => .error .noDefinitions

/-! ## Unused definitions -/

/-- The definitions that a definition uses. -/
def callees (program : ResolvedProgram) (index : Nat) : List Nat :=
  match program.definitions[index]? with
  | none => []
  | some definition => definition.uses.filterMap fun use =>
    match use.target with
    | .definition callee _ _ => some callee
    | .primitive _ => none

/--
The definitions seen, and all that those in `pending` use, directly or not.  Each definition is
pending at most once, so `steps` need not exceed their number.
-/
def closure (program : ResolvedProgram) : Nat → List Nat → List Nat → List Nat
  | 0, _, seen => seen
  | _, [], seen => seen
  | steps + 1, index :: pending, seen =>
    let fresh := ((program.callees index).filter (· ∉ seen)).eraseDups
    closure program steps (fresh ++ pending) (fresh ++ seen)

/-- The definitions that a root uses, directly or not, and the root. -/
def reachable (program : ResolvedProgram) (root : Nat) : List Nat :=
  program.closure program.definitions.length [root] [root]

/-- A warning for each definition that the root does not use. -/
def unusedWarnings (program : ResolvedProgram) (root : program.Index) : List Diagnostic :=
  let used := program.reachable root
  let rootName := (program.definition root).name
  program.definitions.zipIdx.filterMap fun (definition, index) =>
    if index ∈ used then none
    else
      some (.warning definition.span
        ("definition `" ++ definition.name ++ "` is never used by `" ++ rootName ++ "`"))

end ResolvedProgram

/-! ## Progress -/

/-- What a pass has reported. -/
structure PassReport where
  pass : Pass
  diagnostics : List Diagnostic

/-- What a run has made so far. -/
structure Progress where
  registry : Option Registry
  resolved : Option ResolvedProgram
  root : Option Nat
  graph : Option PortGraph
  checked : Bool
  signature : Option Signature
  /-- The reports of the passes that have run, in order. -/
  reports : List PassReport
  /-- A pass whose turn came before there was what it works on. -/
  starved : Option Pass

namespace Progress

def start : Progress := ⟨none, none, none, none, false, none, [], none⟩

def report (progress : Progress) (pass : Pass) (diagnostics : List Diagnostic) : Progress :=
  { progress with reports := progress.reports ++ [⟨pass, diagnostics⟩] }

/-- A pass without anything to work on reports nothing. -/
def starve (progress : Progress) (pass : Pass) : Progress :=
  { progress with starved := some pass }

/-- All that has been reported, in order. -/
def diagnostics (progress : Progress) : List Diagnostic :=
  progress.reports.flatMap (·.diagnostics)

/-- The pass that reported an error, or had nothing to work on. -/
def failingPass? (progress : Progress) : Option Pass :=
  ((progress.reports.find? fun report => hasErrors report.diagnostics).map (·.pass)).or
    progress.starved

def hasError (progress : Progress) : Bool :=
  progress.failingPass?.isSome

/-! ## The passes -/

def register (program : Program) (progress : Progress) : Progress :=
  let (registry, errors) := Registry.ofProgram program
  { progress with registry := some registry }.report .register
    (errors.map (RegistryError.diagnostic program.span))

def resolve (program : Program) (progress : Progress) : Progress :=
  match progress.registry with
  | none => progress.starve .resolve
  | some registry =>
    let (resolved, errors) := program.resolve registry
    { progress with resolved := some resolved }.report .resolve
      (errors.map ResolutionError.diagnostic)

def expand (program : Program) (options : CompileOptions) (progress : Progress) : Progress :=
  match progress.resolved with
  | none => progress.starve .expand
  | some resolved =>
    match resolved.selectRoot options.root with
    | .error error => progress.report .expand [error.diagnostic program.span]
    | .ok root =>
      let progress := { progress with root := some root.val }
      let warnings := resolved.unusedWarnings root
      match resolved.expand root options.generators options.limits with
      | .error error =>
        progress.report .expand (warnings ++ [error.diagnostic (resolved.definition root).span])
      | .ok graph => { progress with graph := some graph }.report .expand warnings

def check (options : CompileOptions) (progress : Progress) : Progress :=
  match progress.graph with
  | none => progress.starve .check
  | some graph =>
    match graph.checkConnections options.checkExpired with
    | .ok () => { progress with checked := true }.report .check []
    | .error error => progress.report .check (error.diagnostics graph)

def infer (options : CompileOptions) (progress : Progress) : Progress :=
  match progress.graph with
  | none => progress.starve .infer
  | some graph =>
    match graph.infer options.inferExpired with
    | .ok signature => { progress with signature := some signature }.report .infer []
    | .error error => progress.report .infer (error.diagnostics graph)

/-! ## Running them -/

def runPass (program : Program) (options : CompileOptions) (progress : Progress) :
    Pass → Progress
  | .register => progress.register program
  | .resolve => progress.resolve program
  | .expand => progress.expand program options
  | .check => progress.check options
  | .infer => progress.infer options

/-- Run passes one after the other, up to the first that fails. -/
def runAll (program : Program) (options : CompileOptions) : Progress → List Pass → Progress
  | progress, [] => progress
  | progress, pass :: rest =>
    let progress := progress.runPass program options pass
    if progress.hasError then progress else progress.runAll program options rest

/-- Run the passes up to `terminal` on a program. -/
def run (program : Program) (options : CompileOptions) (terminal : Pass) : Progress :=
  start.runAll program options (Pass.required terminal)

end Progress

end FlowDiagram

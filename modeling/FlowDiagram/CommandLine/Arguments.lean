import FlowDiagram.Text.Numeral

/-!
# Arguments of the command line

An option is written by its long name, or by a letter if it has one; its value follows as the next
argument, or in the same one.  What is no option names the source.
-/

namespace FlowDiagram.CommandLine

/-- What a compilation can show of its result. -/
inductive Emission where
  | ast
  | graph
  | json
  | dot
  | typing
  deriving DecidableEq

def Emission.all : List Emission := [.ast, .graph, .json, .dot, .typing]

def Emission.name : Emission → String
  | .ast => "ast"
  | .graph => "graph"
  | .json => "json"
  | .dot => "dot"
  | .typing => "typing"

/-- A compilation that is asked for. -/
structure Job where
  /-- The path of the source. -/
  source : String
  depth : Nat
  root : Option String
  generators : List String
  typing : Bool
  emission : Emission
  /-- The path of the file to write, if it is not the standard output. -/
  output : Option String
  maxNodes : Nat
  verbose : Bool
  deriving DecidableEq

inductive Flag where
  | depth
  | root
  | generator
  | typing
  | emit
  | output
  | maxNodes
  | verbose
  deriving DecidableEq

namespace Flag

def all : List Flag := [.depth, .root, .generator, .typing, .emit, .output, .maxNodes, .verbose]

def name : Flag → String
  | .depth => "depth"
  | .root => "root"
  | .generator => "generator"
  | .typing => "typing"
  | .emit => "emit"
  | .output => "output"
  | .maxNodes => "max-nodes"
  | .verbose => "verbose"

def letter? : Flag → Option Char
  | .depth => some 'd'
  | .generator => some 'g'
  | .output => some 'o'
  | _ => none

/-- Whether a flag has no value. -/
def isSwitch : Flag → Bool
  | .typing => true
  | .verbose => true
  | _ => false

/-- Whether a flag may be given more than once. -/
def isRepeatable : Flag → Bool
  | .generator => true
  | _ => false

end Flag

/-- Why arguments ask for nothing that can be done. -/
inductive UsageError where
  | noSource
  | unexpectedArgument (argument : String)
  | noValue (flag : Flag)
  | unexpectedValue (flag : Flag)
  | badValue (flag : Flag) (value : String)
  | repeated (flag : Flag)
  deriving DecidableEq

def UsageError.message : UsageError → String
  | .noSource => "the source file is missing"
  | .unexpectedArgument argument => "unexpected argument '" ++ argument ++ "'"
  | .noValue flag => "a value is required for '--" ++ flag.name ++ "'"
  | .unexpectedValue flag => "no value is allowed for '--" ++ flag.name ++ "'"
  | .badValue flag value => "invalid value '" ++ value ++ "' for '--" ++ flag.name ++ "'"
  | .repeated flag => "the argument '--" ++ flag.name ++ "' cannot be used multiple times"

/-! ## Flags with their values -/

/-- An argument or two: a flag with its value, or something else. -/
inductive Argument where
  | flag (flag : Flag) (value : String)
  | plain (text : String)
  deriving DecidableEq

/-- Whether an argument can be a value: it must not look like an option. -/
def isValue (argument : String) : Bool :=
  argument = "-" || argument.toList.head? ≠ some '-'

/-- What an argument names: a flag, with its value if that is in the same argument. -/
def flagOf? (argument : String) : Option (Flag × Option String) :=
  match argument.toList with
  | '-' :: '-' :: name =>
    let value := name.dropWhile (· ≠ '=')
    (Flag.all.find? (·.name.toList = name.takeWhile (· ≠ '='))).map fun flag =>
      (flag, if value.isEmpty then none else some (String.ofList (value.drop 1)))
  | '-' :: letter :: value =>
    (Flag.all.find? (·.letter? = some letter)).map fun flag =>
      match value with
      | [] => (flag, none)
      | '=' :: value => (flag, some (String.ofList value))
      | value => (flag, some (String.ofList value))
  | _ => none

/-- Put flags and their values together. -/
def pairUp : List String → Except UsageError (List Argument)
  | [] => .ok []
  | argument :: rest =>
    if argument = "--" then .ok (rest.map .plain)
    else if isValue argument then (pairUp rest).map (.plain argument :: ·)
    else
      match flagOf? argument with
      | none => .error (.unexpectedArgument argument)
      | some (flag, some value) =>
        if flag.isSwitch then .error (.unexpectedValue flag)
        else (pairUp rest).map (.flag flag value :: ·)
      | some (flag, none) =>
        if flag.isSwitch then (pairUp rest).map (.flag flag "" :: ·)
        else
          match rest with
          | value :: rest =>
            if isValue value then (pairUp rest).map (.flag flag value :: ·)
            else .error (.noValue flag)
          | [] => .error (.noValue flag)

/-! ## Jobs -/

/-- A job of which only the source is known. -/
def Job.ofSource (path : String) : Job where
  source := path
  depth := 0
  root := none
  generators := []
  typing := false
  emission := .dot
  output := none
  maxNodes := 100000
  verbose := false

/-- Do what a flag says. -/
def Job.withFlag (job : Job) (flag : Flag) (value : String) : Except UsageError Job :=
  let size : Except UsageError Nat :=
    (Text.readNumeral Text.wordLimit value).mapError fun _ => .badValue flag value
  match flag with
  | .depth => size.map fun depth => { job with depth := depth }
  | .maxNodes => size.map fun nodes => { job with maxNodes := nodes }
  | .root => .ok { job with root := some value }
  | .generator => .ok { job with generators := job.generators ++ [value] }
  | .typing => .ok { job with typing := true }
  | .verbose => .ok { job with verbose := true }
  | .output =>
    if value.isEmpty then .error (.noValue flag) else .ok { job with output := some value }
  | .emit =>
    match Emission.all.find? (·.name = value) with
    | some emission => .ok { job with emission := emission }
    | none => .error (.badValue flag value)

/-- The flags among the arguments, with their values. -/
def flagsOf (arguments : List Argument) : List (Flag × String) :=
  arguments.filterMap fun
    | .flag flag value => some (flag, value)
    | .plain _ => none

/-- The arguments that are no flags. -/
def plainOf (arguments : List Argument) : List String :=
  arguments.filterMap fun
    | .flag .. => none
    | .plain text => some text

/-- A flag that is there more often than it may be. -/
def repeated? (flags : List Flag) : Option Flag :=
  flags.find? fun flag => !flag.isRepeatable && 1 < flags.count flag

/-- The job that arguments ask for. -/
def Job.ofArguments (arguments : List String) : Except UsageError Job := do
  let arguments ← pairUp arguments
  let flags := flagsOf arguments
  match repeated? (flags.map (·.1)), plainOf arguments with
  | some flag, _ => .error (.repeated flag)
  | none, [] => .error .noSource
  | none, [path] =>
    if path.isEmpty then .error .noSource
    else flags.foldlM (fun job (flag, value) => job.withFlag flag value) (Job.ofSource path)
  | none, _ :: extra :: _ => .error (.unexpectedArgument extra)

end FlowDiagram.CommandLine

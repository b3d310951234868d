import FlowDiagram.Compilation.Run
import FlowDiagram.Digest
import FlowDiagram.Dot
import FlowDiagram.Program.Diagnostics

/-!
# Compilations

A compilation takes a source all the way to a checked port graph, and to its signature if that is
asked for.  It is all or nothing: a source with errors yields its diagnostics alone.
-/

namespace FlowDiagram

/-! ## Fingerprints -/

/-- The version of the compiler. -/
def version : String := "0.3.0"

/-- The identity of what was compiled. -/
structure Fingerprint where
  /-- Digest of the source. -/
  source : String
  /-- Digest of the names and shapes of the definitions. -/
  registry : String
  version : String
  deriving DecidableEq

/-- The name and the shape of a definition as one text. -/
def RegistryEntry.shapeText (entry : RegistryEntry) : String :=
  entry.name ++ "<" ++ toString entry.universal ++ "|" ++ toString entry.existential ++ ">[" ++
    toString entry.inputs ++ "|" ++ toString entry.outputs ++ "]"

/-- The shapes of all definitions as one text. -/
def Registry.shapeText (registry : Registry) : String :=
  ";".intercalate (registry.entries.map RegistryEntry.shapeText)

def Fingerprint.of (source : String) (registry : Registry) : Fingerprint :=
  ⟨Digest.ofText source, Digest.ofText registry.shapeText, FlowDiagram.version⟩

/-! ## Results -/

/-- What a source without errors compiles to. -/
structure Compilation where
  program : Program
  /-- The name of the root. -/
  root : String
  graph : PortGraph
  /-- There if typing was asked for. -/
  signature : Option Signature
  fingerprint : Fingerprint
  warnings : List Diagnostic

def Compilation.dot (compilation : Compilation) : String :=
  compilation.graph.dot compilation.signature

/-- The text of the signature, empty if there is none. -/
def Compilation.typing (compilation : Compilation) : String :=
  (compilation.signature.map Signature.text).getD ""

/-- Why a source does not compile; without a failing pass it could not even be read. -/
structure CompileError where
  diagnostics : List Diagnostic
  failingPass : Option Pass

namespace CompileError

def errors (error : CompileError) : List Diagnostic :=
  error.diagnostics.filter Diagnostic.isError

/-- The first error. -/
def primary? (error : CompileError) : Option Diagnostic :=
  error.errors.head?

/-- The first error, and how many more there are. -/
def message (error : CompileError) : String :=
  match error.errors with
  | [] => "compilation failed"
  | [only] => only.message
  | first :: rest => first.message ++ " (and " ++ toString rest.length ++ " more error(s))"

/-- The category of the first error. -/
def category (error : CompileError) : Category :=
  (error.primary?.map (·.kind.category)).getD .semantic

end CompileError

/-! ## Compiling -/

/-- The pass whose result is asked for. -/
def CompileOptions.terminal (options : CompileOptions) : Pass :=
  if options.typing then .infer else .check

/-- The result of a run on a program, with every diagnostic located. -/
def Progress.finish (progress : Progress) (source : String) (program : Program)
    (terminal : Pass) : Except CompileError Compilation :=
  let diagnostics := progress.diagnostics.map (Diagnostic.locate source.toList)
  match progress.failingPass? with
  | some pass => .error ⟨diagnostics, some pass⟩
  | none =>
    match progress.registry, progress.root, progress.graph with
    | some registry, some _, some graph =>
      .ok
        { program := program
          root := graph.root
          graph := graph
          signature := progress.signature
          fingerprint := .of source registry
          warnings := diagnostics }
    | _, _, _ => .error ⟨diagnostics, some terminal⟩

/-- Compile a source; the progress is what the passes did, if any ran. -/
def compileWithProgress (source : String) (options : CompileOptions) :
    Except CompileError Compilation × Progress :=
  let reading := readSource source.toList
  let unread : CompileError := ⟨reading.diagnostics.map (Diagnostic.locate source.toList), none⟩
  match reading.program with
  | none => (.error unread, .start)
  | some program =>
    if hasErrors reading.diagnostics then (.error unread, .start)
    else
      let progress := Progress.run program options options.terminal
      (progress.finish source program options.terminal, progress)

/-- Compile a source. -/
def compile (source : String) (options : CompileOptions) : Except CompileError Compilation :=
  (compileWithProgress source options).1

end FlowDiagram

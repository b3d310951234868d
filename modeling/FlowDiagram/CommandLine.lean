import FlowDiagram.CommandLine.Arguments
import FlowDiagram.FileFault
import FlowDiagram.Json.Forms
import FlowDiagram.PortGraph.Print

/-!
# The command line

A job compiles the source in a file and shows one form of the result.  What it does to the world is
a report: an exit code, what goes to the standard output and to the standard error, and a file.
-/

namespace FlowDiagram.CommandLine

/-- What a finished job leaves behind. -/
structure Report where
  /-- Zero if all went well, one for errors in the source, two for anything else. -/
  code : Nat
  output : String
  errors : String
  /-- A file to write, with its path first. -/
  file : Option (String × String)
  deriving DecidableEq

def Emission.title : Emission → String
  | .ast => "Ast"
  | .graph => "Graph"
  | .json => "Json"
  | .dot => "Dot"
  | .typing => "Typing"

namespace Job

def options (job : Job) : CompileOptions where
  root := job.root
  generators := if job.generators.isEmpty then none else some job.generators
  typing := job.typing || job.emission = .typing
  limits := ⟨job.depth, job.maxNodes, false⟩
  checkExpired := false
  inferExpired := false

/-! ## What goes to the standard error -/

/-- A line of the program about itself. -/
def note (text : String) : String := "dflc: " ++ text

def faultNote (path : String) (fault : FileFault) : String :=
  note ("error: " ++ path ++ ": " ++ fault.message)

/-- What a verbose job says before it starts. -/
def opening (job : Job) : List String :=
  if job.verbose then
    [note ("source = " ++ job.source), note ("depth  = " ++ toString job.depth),
      note ("emit   = " ++ job.emission.title)]
  else []

/-- What a verbose job says about the passes. -/
def passNotes (job : Job) (progress : Progress) : List String :=
  if job.verbose then progress.reports.map fun report => note (report.pass.name ++ " complete")
  else []

/-- What a verbose job says about its result. -/
def summary (job : Job) (compilation : Compilation) : List String :=
  if job.verbose then
    [note ("root `" ++ compilation.root ++ "`: " ++ toString compilation.graph.nodes.size ++
      " nodes, " ++ toString compilation.graph.edges.size ++ " edges, " ++
      toString compilation.graph.truncatedCount ++ " truncated")]
  else []

def diagnosticNotes (job : Job) (diagnostics : List Diagnostic) : List String :=
  diagnostics.map fun diagnostic => job.source ++ ": " ++ diagnostic.text

/-! ## What is shown of a compilation -/

def documentJson (compilation : Compilation) : Json :=
  .record
    [("root", .string compilation.root),
      ("fingerprint", compilation.fingerprint.json),
      ("graph", compilation.graph.json),
      ("signature", .ofOption Signature.json compilation.signature),
      ("warnings", .array (compilation.warnings.map Diagnostic.json))]

/-- The form of a compilation that is asked for. -/
def shown (job : Job) (compilation : Compilation) : String :=
  match job.emission with
  | .ast => compilation.program.text
  | .graph => compilation.graph.text
  | .json => (documentJson compilation).pretty "" ++ "\n"
  | .dot => compilation.dot
  | .typing => compilation.typing ++ "\n"

/-! ## Running -/

/-- Run a job on its source, or on the reason why there is none. -/
def run (job : Job) : Except FileFault String → Report
  | .error fault => ⟨2, "", Text.lines (job.opening ++ [faultNote job.source fault]), none⟩
  | .ok source =>
    let (result, progress) := compileWithProgress source job.options
    let before := job.opening ++ job.passNotes progress
    match result with
    | .error error =>
      ⟨1, "", Text.lines (before ++ job.diagnosticNotes error.diagnostics), none⟩
    | .ok compilation =>
      let errors := Text.lines
        (before ++ job.diagnosticNotes compilation.warnings ++ job.summary compilation)
      let text := job.shown compilation
      match job.output with
      | none => ⟨0, text, errors, none⟩
      | some path => ⟨0, "", errors, some (path, text)⟩

end Job

/-- The report of a job whose file could not be written. -/
def Report.unwritten (report : Report) (path : String) (fault : FileFault) : Report :=
  ⟨2, report.output, report.errors ++ Text.lines [Job.faultNote path fault], none⟩

/-- The report about arguments that ask for nothing that can be done. -/
def UsageError.report (error : UsageError) : Report :=
  ⟨2, "", Text.lines ["error: " ++ error.message], none⟩

end FlowDiagram.CommandLine

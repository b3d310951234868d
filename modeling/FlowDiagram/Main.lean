import FlowDiagram.CommandLine

/-!
# The program

The outermost layer: it reads the source, runs the job, and does what the report says.
-/

namespace FlowDiagram.Main

/-- What the operating system says about a file, as a fault. -/
def faultOf : IO.Error → FileFault
  | .noFileOrDirectory .. => .missing
  | .permissionDenied .. => .denied
  | .inappropriateType _ _ reason =>
    if reason = "is a directory" then .isADirectory else .notADirectory
  | error => .other (toString error)

/-- Read a file as a text. -/
def readText (path : String) : IO (Except FileFault String) := do
  try
    let bytes ← IO.FS.readBinFile path
    match String.fromUTF8? bytes with
    | some text => return .ok text
    | none => return .error .notText
  catch error => return .error (faultOf error)

/-- Write the file of a report, if there is one. -/
def writeFile (report : CommandLine.Report) : IO CommandLine.Report := do
  match report.file with
  | none => return report
  | some (path, text) =>
    try
      IO.FS.writeFile path text
      return report
    catch error => return report.unwritten path (faultOf error)

/-- Carry out what the arguments ask for. -/
def carryOut (arguments : List String) : IO CommandLine.Report := do
  match CommandLine.Job.ofArguments arguments with
  | .error error => return error.report
  | .ok job => writeFile (job.run (← readText job.source))

end FlowDiagram.Main

def main (arguments : List String) : IO UInt32 := do
  let report ← match arguments with
    | "compile" :: rest => FlowDiagram.Main.carryOut rest
    | _ => pure ⟨2, "", "usage: dflc compile [options] <source>\n", none⟩
  IO.print report.output
  IO.eprint report.errors
  return report.code.toUInt32

/-!
# File faults

Why a file cannot be read, written or started as a program.
-/

namespace FlowDiagram

inductive FileFault where
  | missing
  | denied
  | notADirectory
  | isADirectory
  /-- The file holds no UTF-8 text. -/
  | notText
  | other (reason : String)
  deriving DecidableEq

def FileFault.message : FileFault → String
  | .missing => "No such file or directory (os error 2)"
  | .denied => "Permission denied (os error 13)"
  | .notADirectory => "Not a directory (os error 20)"
  | .isADirectory => "Is a directory (os error 21)"
  | .notText => "stream did not contain valid UTF-8"
  | .other reason => reason

end FlowDiagram

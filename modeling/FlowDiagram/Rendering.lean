import FlowDiagram.FileFault

/-!
# Rendering

A renderer turns the DOT text of a graph into something to look at, or says why it cannot.
-/

namespace FlowDiagram

/-- What a renderer makes. -/
structure Rendered where
  contentType : String
  body : String
  deriving DecidableEq

inductive RenderError where
  | notStarted (command : String) (fault : FileFault)
  | timedOut (milliseconds : Nat)
  deriving DecidableEq

def RenderError.message : RenderError → String
  | .notStarted command fault => "failed to start `" ++ command ++ "`: " ++ fault.message
  | .timedOut milliseconds =>
    "renderer did not finish within " ++ toString milliseconds ++ "ms"

/-- Make something of a DOT text. -/
abbrev Renderer := String → Except RenderError Rendered

/-- Hand the DOT text on as it is. -/
def Renderer.dot : Renderer :=
  fun text => .ok ⟨"text/vnd.graphviz", text⟩

/-- A program that does not exist. -/
def Renderer.missing (command : String) : Renderer :=
  fun _ => .error (.notStarted command .missing)

end FlowDiagram

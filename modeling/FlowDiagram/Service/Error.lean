import FlowDiagram.Json.Forms
import FlowDiagram.Rendering

/-!
# Service errors

Why a request is not served: the status that the caller gets, and a body that says what is wrong.
-/

namespace FlowDiagram

inductive ServiceError where
  | notCompiled (error : CompileError)
  | badRequest (reason : String)
  | tooLarge (reason : String)
  | notFound (reason : String)
  | timedOut (milliseconds : Nat)
  | notRendered (error : RenderError)
  | broken (reason : String)

/-- Malformed input is a bad request, input without a meaning cannot be processed, and too much is
too large. -/
def Category.status : Category → Nat
  | .malformed => 400
  | .semantic => 422
  | .resource => 413

namespace ServiceError

def status : ServiceError → Nat
  | .notCompiled error => error.category.status
  | .badRequest _ => 400
  | .tooLarge _ => 413
  | .timedOut _ => 413
  | .notFound _ => 404
  | .notRendered _ => 502
  | .broken _ => 500

def message : ServiceError → String
  | .notCompiled error => error.message
  | .badRequest reason => reason
  | .tooLarge reason => reason
  | .notFound reason => reason
  | .timedOut milliseconds =>
    "compilation did not finish within " ++ toString milliseconds ++ "ms"
  | .notRendered error => "rendering failed: " ++ error.message
  | .broken reason => "internal error: " ++ reason

def kindName : ServiceError → String
  | .notCompiled error => (error.primary?.map (·.kind.name)).getD "CompileError"
  | .badRequest _ => "BadRequest"
  | .tooLarge _ => "ResourceExceededError"
  | .timedOut _ => "ResourceExceededError"
  | .notFound _ => "NotFound"
  | .notRendered _ => "RenderError"
  | .broken _ => "InternalError"

/-- The code of an error: work beyond the limits has that of the diagnostic about it. -/
def code : ServiceError → Option String
  | .tooLarge _ => some DiagnosticKind.resourceExceeded.code
  | .timedOut _ => some DiagnosticKind.resourceExceeded.code
  | _ => none

/-- An error that has no place in a source. -/
def plainJson (error : ServiceError) : Json :=
  .record
    [("kind", .string error.kindName),
      ("code", .ofOption .string error.code),
      ("message", .string error.message),
      ("line", .null),
      ("column", .null)]

/-- The diagnostics behind an error. -/
def diagnostics : ServiceError → List Diagnostic
  | .notCompiled error => error.diagnostics
  | _ => []

/-- The error of a source is its first one. -/
def errorJson (error : ServiceError) : Json :=
  match error with
  | .notCompiled failure =>
    match failure.primary? with
    | some diagnostic => diagnostic.json
    | none => error.plainJson
  | _ => error.plainJson

/-- What the caller is told. -/
def body (error : ServiceError) : Json :=
  .record
    [("error", error.errorJson), ("diagnostics", .array (error.diagnostics.map Diagnostic.json))]

end ServiceError

end FlowDiagram

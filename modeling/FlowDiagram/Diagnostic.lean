import FlowDiagram.Text.LineIndex

/-!
# Diagnostics

A diagnostic says what is wrong with a source and where.  Its kind decides its code and its
category; its place is a span, to which a line and a column are added once the source is at hand.
-/

namespace FlowDiagram

/-- What a diagnostic is about. -/
inductive DiagnosticKind where
  | malformed
  | unknownDefinition
  | unknownPrimitive
  | duplicateDefinition
  | duplicateInstance
  | arityMismatch
  | portMismatch
  | illegalFanIn
  | unboundPort
  | contradiction
  | resourceExceeded
  | lint
  deriving DecidableEq

/-- Malformed input, input that means nothing, and work beyond the limits are told apart. -/
inductive Category where
  | malformed
  | semantic
  | resource
  deriving DecidableEq

inductive Severity where
  | error
  | warning
  deriving DecidableEq

/-- The code of a kind: names from 201, ports from 301, types 401, limits 501. -/
def DiagnosticKind.code : DiagnosticKind → String
  | .malformed => "E0101"
  | .unknownDefinition => "E0201"
  | .unknownPrimitive => "E0202"
  | .duplicateDefinition => "E0203"
  | .duplicateInstance => "E0204"
  | .arityMismatch => "E0301"
  | .portMismatch => "E0302"
  | .illegalFanIn => "E0303"
  | .unboundPort => "E0304"
  | .contradiction => "E0401"
  | .resourceExceeded => "E0501"
  | .lint => "W0201"

def DiagnosticKind.name : DiagnosticKind → String
  | .malformed => "SyntaxError"
  | .unknownDefinition => "UnknownDefinitionError"
  | .unknownPrimitive => "UnknownPrimitiveError"
  | .duplicateDefinition => "DuplicateDefinitionError"
  | .duplicateInstance => "DuplicateInstanceError"
  | .arityMismatch => "ArityMismatchError"
  | .portMismatch => "PortMismatchError"
  | .illegalFanIn => "IllegalFanInError"
  | .unboundPort => "UnboundPortError"
  | .contradiction => "TypeError"
  | .resourceExceeded => "ResourceExceededError"
  | .lint => "Warning"

def DiagnosticKind.category : DiagnosticKind → Category
  | .malformed => .malformed
  | .resourceExceeded => .resource
  | _ => .semantic

def Severity.name : Severity → String
  | .error => "error"
  | .warning => "warning"

/-- Another place that helps to understand a diagnostic. -/
structure RelatedPlace where
  span : Span
  label : String
  deriving DecidableEq

structure Diagnostic where
  kind : DiagnosticKind
  severity : Severity
  span : Span
  position : Option Position
  message : String
  hint : Option String
  related : List RelatedPlace
  deriving DecidableEq

/-- An error of some kind, without a hint and not located yet. -/
def Diagnostic.error (kind : DiagnosticKind) (span : Span) (message : String) : Diagnostic :=
  ⟨kind, .error, span, none, message, none, []⟩

/-- A warning, not located yet. -/
def Diagnostic.warning (span : Span) (message : String) : Diagnostic :=
  ⟨.lint, .warning, span, none, message, none, []⟩

def Diagnostic.withHint (diagnostic : Diagnostic) (hint : String) : Diagnostic :=
  { diagnostic with hint := some hint }

def Diagnostic.withRelated (diagnostic : Diagnostic) (span : Span) (label : String) :
    Diagnostic :=
  { diagnostic with related := diagnostic.related ++ [⟨span, label⟩] }

def Diagnostic.isError (diagnostic : Diagnostic) : Bool :=
  diagnostic.severity = .error

/-- Whether errors are among the diagnostics. -/
def hasErrors (diagnostics : List Diagnostic) : Bool :=
  diagnostics.any Diagnostic.isError

/-- Find the line and column of a diagnostic that has none yet. -/
def Diagnostic.locate (source : List Char) (diagnostic : Diagnostic) : Diagnostic :=
  match diagnostic.position with
  | some _ => diagnostic
  | none => { diagnostic with position := some (.ofOffset source diagnostic.span.start) }

/-- A diagnostic as it is shown: what, where if known, and the hint if there is one. -/
def Diagnostic.text (diagnostic : Diagnostic) : String :=
  let head :=
    diagnostic.severity.name ++ "[" ++ diagnostic.kind.code ++ "]: " ++ diagnostic.message
  let place :=
    match diagnostic.position with
    | some position => "\n  --> " ++ toString position.line ++ ":" ++ toString position.column
    | none => ""
  let hint :=
    match diagnostic.hint with
    | some hint => "\n  hint: " ++ hint
    | none => ""
  head ++ place ++ hint

end FlowDiagram

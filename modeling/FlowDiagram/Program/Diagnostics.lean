import FlowDiagram.Diagnostic
import FlowDiagram.Program.Read
import FlowDiagram.Text.Joined
import FlowDiagram.Text.Order

/-!
# What is wrong with the text of a program

Lexical faults are errors one by one; reading adds at most one error of its own, at the first token
that cannot stand where it does.
-/

namespace FlowDiagram

def LexicalFault.diagnostic (fault : LexicalFault) : Diagnostic :=
  .error .malformed fault.span fault.message

/-- The kinds that may come next, each named once, in the order of their names. -/
def expectedNames (expected : List Expectation) : List String :=
  Text.sortedDistinct (expected.map Expectation.describe)

def ReadError.message (error : ReadError) : String :=
  let found :=
    match error.found with
    | some lexeme => "`" ++ lexeme.token.describe ++ "`"
    | none => "end of input"
  "expected " ++ " or ".intercalate (expectedNames error.expected) ++ ", found " ++ found

/-- The diagnostic of a reading error in a source of `length` bytes. -/
def ReadError.diagnostic (length : Nat) (error : ReadError) : Diagnostic :=
  let span := (error.found.map (·.span)).getD ⟨length, length⟩
  .error .malformed span error.message

/-- A program as far as it can be read, and what is wrong with its text. -/
structure ReadResult where
  program : Option Program
  diagnostics : List Diagnostic

/-- Read a source; diagnostics come in the order of the places where they start. -/
def readSource (source : List Char) : ReadResult :=
  let faults := (lexicalFaults source).map LexicalFault.diagnostic
  match Program.read source with
  | .ok program => ⟨some program, faults⟩
  | .error error =>
    let diagnostics := faults ++ [error.diagnostic (byteLength source)]
    ⟨none, diagnostics.mergeSort fun a b => a.span.start ≤ b.span.start⟩

end FlowDiagram

import FlowDiagram.Compilation.Run
import FlowDiagram.Json.Record

/-!
# What requests ask for

A request for a compilation carries a record with the source.  The record may name the root and its
generators; in the longer form it also says how deep to unfold and whether the signature is wanted.
-/

namespace FlowDiagram

/-- A compilation that is asked for. -/
structure Order where
  code : String
  depth : Nat
  typing : Bool
  root : Option String
  generators : Option (List Symbol)
  deriving DecidableEq

/-- An order of which some fields are filled in; null is a value of the last two. -/
structure OrderDraft where
  code : Option String
  depth : Option Nat
  typing : Option Bool
  root : Option (Option String)
  generators : Option (Option (List Symbol))

namespace OrderDraft

open Json (RecordField RecordForm Fault readText readSize readFlag readTexts readNullable)

def empty : OrderDraft := ⟨none, none, none, none, none⟩

/-- The order of a draft; what has not been given takes its default. -/
def order (draft : OrderDraft) : Order where
  code := draft.code.getD ""
  depth := draft.depth.getD 0
  typing := draft.typing.getD false
  root := draft.root.getD none
  generators := draft.generators.getD none

/-! ## Fields -/

def codeField : RecordField OrderDraft where
  name := "code"
  mandatory := true
  given draft := draft.code.isSome
  read draft lexemes :=
    (readText lexemes).map fun (value, rest) => ({ draft with code := some value }, rest)

def depthField : RecordField OrderDraft where
  name := "depth"
  mandatory := false
  given draft := draft.depth.isSome
  read draft lexemes :=
    (readSize lexemes).map fun (value, rest) => ({ draft with depth := some value }, rest)

def typingField : RecordField OrderDraft where
  name := "typing"
  mandatory := false
  given draft := draft.typing.isSome
  read draft lexemes :=
    (readFlag lexemes).map fun (value, rest) => ({ draft with typing := some value }, rest)

def rootField : RecordField OrderDraft where
  name := "root"
  mandatory := false
  given draft := draft.root.isSome
  read draft lexemes :=
    (readNullable readText lexemes).map fun (value, rest) =>
      ({ draft with root := some value }, rest)

def generatorsField : RecordField OrderDraft where
  name := "generators"
  mandatory := false
  given draft := draft.generators.isSome
  read draft lexemes :=
    (readNullable readTexts lexemes).map fun (value, rest) =>
      ({ draft with generators := some value }, rest)

/-! ## Forms -/

/-- The record of a request for an image, which has the depth and the typing in its target. -/
def imageForm : RecordForm OrderDraft :=
  ⟨"GenerateRequest", [codeField, rootField, generatorsField]⟩

/-- The record of a request for everything at once. -/
def compileForm : RecordForm OrderDraft :=
  ⟨"CompileRequest", [codeField, depthField, typingField, rootField, generatorsField]⟩

end OrderDraft

end FlowDiagram

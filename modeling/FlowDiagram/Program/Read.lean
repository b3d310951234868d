import FlowDiagram.Program
import FlowDiagram.Token.Scan

/-!
# Reading a program

A program is read token by token.  What has been read so far is kept as a reader: the definitions
that are complete and the stage at which the one in progress stands.  At each stage it is plain
which tokens may come next, and that is all there is to an error: the first token that no program
could have at that place.

    program    := definition*
    definition := 'def' IDENT '=' generics? ports body
    generics   := '<>' | '<' idents? ('|' idents?)? '>'
    ports      := '[' idents? '|' idents? ']'
    idents     := IDENT (',' IDENT)*
    body       := (use | links)*
    use        := 'use' box ports 'as' IDENT
    box        := ('+' | '-' | '*') IDENT | IDENT '{' NUMBER '}' | '><' | '<>' | IDENT generics?
    links      := 'link' (link ','?)*
    link       := port '>->' port
    port       := IDENT ('.' IDENT)?
-/

namespace FlowDiagram

/-! ## What may come next -/

/-- A kind of token, or the end, as something that may come next. -/
inductive Expectation where
  | reserved (word : Reserved)
  | number
  | ident
  | endOfInput
  deriving DecidableEq

/-- How a message names what may come next. -/
def Expectation.describe : Expectation → String
  | .reserved word => "''" ++ word.text ++ "''"
  | .number => "something else"
  | .ident => "''<ident>''"
  | .endOfInput => "end of input"

/-- The kind of a token. -/
def Token.kind : Token → Expectation
  | .reserved word => .reserved word
  | .number _ => .number
  | .ident _ => .ident

/-! ## Stages -/

/-- The header of a definition, and as much of its body as has been read, latest first. -/
structure Draft where
  start : Nat
  name : Ident
  generics : Generics
  ports : Ports
  uses : List Use
  links : List Link
  deriving DecidableEq

/-- Where a list of identifiers stands: nothing read, an identifier read, or a comma read. -/
inductive ListPlace where
  | opened
  | afterIdent
  | afterComma
  deriving DecidableEq

/-- The signs before a symbol. -/
inductive Sign where
  | plus
  | minus
  | star
  deriving DecidableEq

def Sign.box (symbol : Ident) : Sign → BoxRef
  | .plus => .add symbol
  | .minus => .remove symbol
  | .star => .spawn symbol

/-- What the generic symbols in progress belong to: a definition, or a use of one. -/
inductive GenericsBearer where
  | definition (start : Nat) (name : Ident)
  | use (draft : Draft) (start : Nat) (name : Ident)
  deriving DecidableEq

/-- What the ports in progress belong to. -/
inductive PortsBearer where
  | definition (start : Nat) (name : Ident) (generics : Option Generics)
  | use (draft : Draft) (start : Nat) (box : BoxRef)
  deriving DecidableEq

/-- The stage at which a reader stands: what it is in the middle of. -/
inductive Stage where
  | outset
  | beforeName (start : Nat)
  | afterName (start : Nat) (name : Ident)
  | afterEquals (start : Nat) (name : Ident)
  | inUniversal (bearer : GenericsBearer) (opening : Nat) (idents : List Ident) (place : ListPlace)
  | inExistential (bearer : GenericsBearer) (opening : Nat) (universal idents : List Ident)
      (place : ListPlace)
  | beforePorts (bearer : PortsBearer)
  | inInputs (bearer : PortsBearer) (opening : Nat) (idents : List Ident) (place : ListPlace)
  | inOutputs (bearer : PortsBearer) (opening : Nat) (inputs idents : List Ident)
      (place : ListPlace)
  | inBody (draft : Draft)
  | beforeBox (draft : Draft) (start : Nat)
  | afterSign (draft : Draft) (start : Nat) (sign : Sign)
  | afterBoxName (draft : Draft) (start : Nat) (name : Ident)
  | beforeCount (draft : Draft) (start : Nat) (tag : Ident)
  | afterCount (draft : Draft) (start : Nat) (tag : Ident) (count : UInt32)
  | afterPorts (draft : Draft) (start : Nat) (box : BoxRef) (ports : Ports)
  | beforeUseName (draft : Draft) (start : Nat) (box : BoxRef) (ports : Ports)
  | inLinks (draft : Draft)
  | inSource (draft : Draft) (first : Ident)
  | beforeSourcePort (draft : Draft) (owner : Ident)
  | afterSource (draft : Draft) (source : PortRef)
  | beforeTarget (draft : Draft) (source : PortRef)
  | inTarget (draft : Draft) (source : PortRef) (first : Ident)
  | beforeTargetPort (draft : Draft) (source : PortRef) (owner : Ident)
  | afterLink (draft : Draft)
  deriving DecidableEq

/-! ## Parts put together -/

def PortRef.boundary (port : Ident) : PortRef :=
  ⟨none, port, port.span⟩

def PortRef.ofInstance (owner port : Ident) : PortRef :=
  ⟨some owner, port, owner.span.start, port.span.stop⟩

def Draft.addUse (draft : Draft) (start : Nat) (box : BoxRef) (ports : Ports) (name : Ident) :
    Draft :=
  { draft with uses := ⟨box, ports, name, start, name.span.stop⟩ :: draft.uses }

def Draft.addLink (draft : Draft) (source target : PortRef) : Draft :=
  { draft with links := ⟨source, target, source.span.start, target.span.stop⟩ :: draft.links }

/-- The definition of a draft that ends at the byte `stop`. -/
def Draft.close (draft : Draft) (stop : Nat) : Definition :=
  ⟨draft.name, draft.generics, draft.ports, draft.uses.reverse, draft.links.reverse,
    draft.start, stop⟩

/-- The generic symbols have been read, if there are any. -/
def GenericsBearer.bear (generics : Option Generics) : GenericsBearer → PortsBearer
  | .definition start name => .definition start name generics
  | .use draft start name => .use draft start (.definition name generics)

/-- A list of generic symbols, latest first, has run from `opening` to `stop`. -/
def GenericsBearer.close (bearer : GenericsBearer) (opening stop : Nat)
    (universal existential : List Ident) : PortsBearer :=
  bearer.bear (some ⟨universal.reverse, existential.reverse, opening, stop⟩)

/--
The ports have been read.  The generic symbols of a definition that writes none are the empty
ones, at the place where its ports start.
-/
def PortsBearer.bear (ports : Ports) : PortsBearer → Stage
  | .definition start name generics =>
    let generics := generics.getD (.empty ⟨ports.span.start, ports.span.start⟩)
    .inBody ⟨start, name, generics, ports, [], []⟩
  | .use draft start box => .afterPorts draft start box ports

/-! ## One token -/

/-- The next stage of a list of identifiers; `again` is the list's own stage. -/
def ListPlace.next (idents : List Ident) (again : List Ident → ListPlace → Stage) (token : Token)
    (span : Span) : ListPlace → Option Stage
  | .afterIdent =>
    match token with
    | .reserved .comma => some (again idents .afterComma)
    | _ => none
  | _ =>
    match token with
    | .ident name => some (again (⟨name, span⟩ :: idents) .afterIdent)
    | _ => none

/-- After a comma, the list of identifiers cannot end. -/
def ListPlace.mayEnd : ListPlace → Bool
  | .afterComma => false
  | _ => true

/-- A token that starts an item of a body. -/
def Draft.next (draft : Draft) (token : Token) (span : Span) : Option Stage :=
  match token with
  | .reserved .use => some (.beforeBox draft span.start)
  | .reserved .link => some (.inLinks draft)
  | _ => none

/-- A token that goes on with a block of links, or starts an item of the body. -/
def Draft.nextLink (draft : Draft) (token : Token) (span : Span) : Option Stage :=
  match token with
  | .ident name => some (.inSource draft ⟨name, span⟩)
  | _ => draft.next token span

/-- A token that goes on after the name of what may bear generic symbols. -/
def GenericsBearer.next (bearer : GenericsBearer) (token : Token) (span : Span) : Option Stage :=
  match token with
  | .reserved .openAngle => some (.inUniversal bearer span.start [] .opened)
  | .reserved .split => some (.beforePorts (bearer.bear (some (.empty span))))
  | .reserved .openBracket => some (.inInputs (bearer.bear none) span.start [] .opened)
  | _ => none

/--
The stage that a token leads to, if it can stand here.  A token that starts the next definition is
not seen to here.
-/
def Stage.next (stage : Stage) (token : Token) (span : Span) : Option Stage :=
  match stage with
  | .outset =>
    match token with
    | .reserved .define => some (.beforeName span.start)
    | _ => none
  | .beforeName start =>
    match token with
    | .ident name => some (.afterName start ⟨name, span⟩)
    | _ => none
  | .afterName start name =>
    match token with
    | .reserved .equals => some (.afterEquals start name)
    | _ => none
  | .afterEquals start name => (GenericsBearer.definition start name).next token span
  | .inUniversal bearer opening idents place =>
    match token with
    | .reserved .bar =>
      if place.mayEnd then some (.inExistential bearer opening idents [] .opened) else none
    | .reserved .closeAngle =>
      if place.mayEnd then some (.beforePorts (bearer.close opening span.stop idents []))
      else none
    | _ => place.next idents (.inUniversal bearer opening) token span
  | .inExistential bearer opening universal idents place =>
    match token with
    | .reserved .closeAngle =>
      if place.mayEnd then
        some (.beforePorts (bearer.close opening span.stop universal idents))
      else none
    | _ => place.next idents (.inExistential bearer opening universal) token span
  | .beforePorts bearer =>
    match token with
    | .reserved .openBracket => some (.inInputs bearer span.start [] .opened)
    | _ => none
  | .inInputs bearer opening idents place =>
    match token with
    | .reserved .bar =>
      if place.mayEnd then some (.inOutputs bearer opening idents [] .opened) else none
    | _ => place.next idents (.inInputs bearer opening) token span
  | .inOutputs bearer opening inputs idents place =>
    match token with
    | .reserved .closeBracket =>
      if place.mayEnd then
        some (bearer.bear ⟨inputs.reverse, idents.reverse, opening, span.stop⟩)
      else none
    | _ => place.next idents (.inOutputs bearer opening inputs) token span
  | .inBody draft => draft.next token span
  | .beforeBox draft start =>
    match token with
    | .reserved .plus => some (.afterSign draft start .plus)
    | .reserved .minus => some (.afterSign draft start .minus)
    | .reserved .star => some (.afterSign draft start .star)
    | .reserved .join => some (.beforePorts (.use draft start (.join span)))
    | .reserved .split => some (.beforePorts (.use draft start (.split span)))
    | .ident name => some (.afterBoxName draft start ⟨name, span⟩)
    | _ => none
  | .afterSign draft start sign =>
    match token with
    | .ident name => some (.beforePorts (.use draft start (sign.box ⟨name, span⟩)))
    | _ => none
  | .afterBoxName draft start name =>
    match token with
    | .reserved .openBrace => some (.beforeCount draft start name)
    | _ => (GenericsBearer.use draft start name).next token span
  | .beforeCount draft start tag =>
    match token with
    | .number count => some (.afterCount draft start tag count)
    | _ => none
  | .afterCount draft start tag count =>
    match token with
    | .reserved .closeBrace =>
      some (.beforePorts (.use draft start (.indexed tag count ⟨tag.span.start, span.stop⟩)))
    | _ => none
  | .afterPorts draft start box ports =>
    match token with
    | .reserved .as => some (.beforeUseName draft start box ports)
    | _ => none
  | .beforeUseName draft start box ports =>
    match token with
    | .ident name => some (.inBody (draft.addUse start box ports ⟨name, span⟩))
    | _ => none
  | .inLinks draft => draft.nextLink token span
  | .inSource draft first =>
    match token with
    | .reserved .dot => some (.beforeSourcePort draft first)
    | .reserved .arrow => some (.beforeTarget draft (.boundary first))
    | _ => none
  | .beforeSourcePort draft owner =>
    match token with
    | .ident name => some (.afterSource draft (.ofInstance owner ⟨name, span⟩))
    | _ => none
  | .afterSource draft source =>
    match token with
    | .reserved .arrow => some (.beforeTarget draft source)
    | _ => none
  | .beforeTarget draft source =>
    match token with
    | .ident name => some (.inTarget draft source ⟨name, span⟩)
    | _ => none
  | .inTarget draft source first =>
    match token with
    | .reserved .dot => some (.beforeTargetPort draft source first)
    | .reserved .comma => some (.inLinks (draft.addLink source (.boundary first)))
    | _ => (draft.addLink source (.boundary first)).nextLink token span
  | .beforeTargetPort draft source owner =>
    match token with
    | .ident name => some (.afterLink (draft.addLink source (.ofInstance owner ⟨name, span⟩)))
    | _ => none
  | .afterLink draft =>
    match token with
    | .reserved .comma => some (.inLinks draft)
    | _ => draft.nextLink token span

/-- The definition that may end at a stage. -/
def Stage.draft? : Stage → Option Draft
  | .inBody draft | .inLinks draft | .afterLink draft => some draft
  | .inTarget draft source first => some (draft.addLink source (.boundary first))
  | _ => none

/-! ## What may come next at a stage -/

/-- What may come next in a list of identifiers that `closing` ends. -/
def ListPlace.expected (closing : List Reserved) : ListPlace → List Expectation
  | .opened => .ident :: closing.map .reserved
  | .afterIdent => .reserved .comma :: closing.map .reserved
  | .afterComma => [.ident]

/-- What may come next after the name of what may bear generic symbols. -/
def genericsExpected : List Expectation :=
  [.reserved .openAngle, .reserved .split, .reserved .openBracket]

/-- What may come next where an item of a body has ended. -/
def bodyExpected : List Expectation :=
  [.reserved .use, .reserved .link, .reserved .define, .endOfInput]

/-- What may come next at a stage. -/
def Stage.expected : Stage → List Expectation
  | .outset => [.reserved .define, .endOfInput]
  | .beforeName _ | .afterSign .. | .beforeUseName .. | .beforeSourcePort .. | .beforeTarget ..
  | .beforeTargetPort .. =>
    [.ident]
  | .afterName .. => [.reserved .equals]
  | .afterEquals .. => genericsExpected
  | .inUniversal _ _ _ place => place.expected [.bar, .closeAngle]
  | .inExistential _ _ _ _ place => place.expected [.closeAngle]
  | .beforePorts _ => [.reserved .openBracket]
  | .inInputs _ _ _ place => place.expected [.bar]
  | .inOutputs _ _ _ _ place => place.expected [.closeBracket]
  | .inBody _ => bodyExpected
  | .beforeBox .. =>
    [.reserved .plus, .reserved .minus, .reserved .star, .reserved .join, .reserved .split, .ident]
  | .afterBoxName .. => .reserved .openBrace :: genericsExpected
  | .beforeCount .. => [.number]
  | .afterCount .. => [.reserved .closeBrace]
  | .afterPorts .. => [.reserved .as]
  | .inLinks _ => .ident :: bodyExpected
  | .inSource .. => [.reserved .dot, .reserved .arrow]
  | .afterSource .. => [.reserved .arrow]
  | .inTarget .. => .reserved .dot :: .reserved .comma :: .ident :: bodyExpected
  | .afterLink _ => .reserved .comma :: .ident :: bodyExpected

/-! ## All tokens -/

/-- What has been read: complete definitions, latest first, and the definition in progress. -/
structure Reader where
  definitions : List Definition
  stage : Stage
  /-- Where the last token read stops. -/
  stop : Nat
  deriving DecidableEq

def Reader.outset : Reader := ⟨[], .outset, 0⟩

/-- Take one token; the word `def` also completes the definition in progress. -/
def Reader.step (reader : Reader) (lexeme : Lexeme) : Option Reader :=
  let span := lexeme.span
  match reader.stage.next lexeme.token span with
  | some stage => some ⟨reader.definitions, stage, span.stop⟩
  | none =>
    match reader.stage.draft?, lexeme.token with
    | some draft, .reserved .define =>
      some ⟨draft.close reader.stop :: reader.definitions, .beforeName span.start, span.stop⟩
    | _, _ => none

/-- Where reading cannot go on: the offending token, none at the end, and what may come there. -/
structure ReadError where
  found : Option Lexeme
  expected : List Expectation
  deriving DecidableEq

/-- Take tokens until one cannot stand where it does. -/
def Reader.run (reader : Reader) : List Lexeme → Except ReadError Reader
  | [] => .ok reader
  | lexeme :: rest =>
    match reader.step lexeme with
    | some next => next.run rest
    | none => .error ⟨some lexeme, reader.stage.expected⟩

/-- The definitions of a reader that may stop where it stands. -/
def Reader.finish (reader : Reader) : Except ReadError (List Definition) :=
  match reader.stage, reader.stage.draft? with
  | .outset, _ => .ok []
  | _, some draft => .ok (draft.close reader.stop :: reader.definitions).reverse
  | stage, none => .error ⟨none, stage.expected⟩

/-- The span of the definitions read from a source of `length` bytes. -/
def Program.spanOf (length : Nat) (definitions : List Definition) : Span :=
  match definitions.head?, definitions.getLast? with
  | some first, some last => ⟨first.span.start, last.span.stop⟩
  | _, _ => ⟨length, length⟩

/-- The program that tokens from a source of `length` bytes make up. -/
def Program.ofLexemes (length : Nat) (lexemes : List Lexeme) : Except ReadError Program := do
  let reader ← Reader.outset.run lexemes
  let definitions ← reader.finish
  return ⟨definitions, Program.spanOf length definitions⟩

/-- The program that a source holds; lexical faults are passed over. -/
def Program.read (source : List Char) : Except ReadError Program :=
  Program.ofLexemes (byteLength source) (lexemes source)

end FlowDiagram

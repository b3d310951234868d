import FlowDiagram.Program.Read

/-!
# The grammar of programs

The grammar of the language as trees, one kind of tree for each rule:

    program    := definition*
    definition := 'def' IDENT '=' generics? ports body
    generics   := '<>' | '<' idents? ('|' idents?)? '>'
    ports      := '[' idents? '|' idents? ']'
    idents     := IDENT (',' IDENT)*
    body       := (use | links)*
    use        := 'use' box ports 'as' IDENT
    box        := ('+' | '-' | '*') IDENT | IDENT '{' NUMBER '}' | '><' | '<>' | IDENT generics?
    links      := 'link' (link ','?)*
    link       := port '>->' port
    port       := IDENT ('.' IDENT)?

The leaves of a tree are lexemes; of a lexeme whose token the rule fixes, the tree keeps the span
alone.  A tree spells its lexemes from left to right, and stands for a part of a program.  No two
trees spell the same lexemes: the grammar is unambiguous.
-/

namespace FlowDiagram

/-! ## Leaves -/

def Ident.lexeme (ident : Ident) : Lexeme := ⟨.ident ident.name, ident.span⟩

def Reserved.lexeme (word : Reserved) (span : Span) : Lexeme := ⟨.reserved word, span⟩

@[simp]
theorem Ident.lexeme_token (ident : Ident) : ident.lexeme.token = .ident ident.name := rfl

@[simp]
theorem Ident.lexeme_span (ident : Ident) : ident.lexeme.span = ident.span := rfl

@[simp]
theorem Reserved.lexeme_token (word : Reserved) (span : Span) :
    (word.lexeme span).token = .reserved word := rfl

@[simp]
theorem Reserved.lexeme_span (word : Reserved) (span : Span) : (word.lexeme span).span = span := rfl

@[simp]
theorem Ident.lexeme_inj {first second : Ident} :
    first.lexeme = second.lexeme ↔ first = second := by
  constructor
  · intro same
    cases first
    cases second
    cases same
    rfl
  · exact congrArg Ident.lexeme

@[simp]
theorem Reserved.lexeme_inj {first second : Reserved} {place other : Span} :
    first.lexeme place = second.lexeme other ↔ first = second ∧ place = other := by
  simp [Reserved.lexeme]

@[simp]
theorem Ident.lexeme_ne_reserved (ident : Ident) (word : Reserved) (place : Span) :
    ident.lexeme ≠ word.lexeme place := by
  simp [Ident.lexeme, Reserved.lexeme]

@[simp]
theorem Reserved.lexeme_ne_ident (word : Reserved) (place : Span) (ident : Ident) :
    word.lexeme place ≠ ident.lexeme :=
  (ident.lexeme_ne_reserved word place).symm

/-! ## Trees and the lexemes they spell -/

/-- The lexemes of a part that a rule leaves optional. -/
def optional {Tree : Type} (lexemes : Tree → List Lexeme) : Option Tree → List Lexeme
  | none => []
  | some tree => lexemes tree

/-- A list of identifiers: the first, and each further one behind its comma. -/
structure IdentsTree where
  first : Ident
  further : List (Span × Ident)

def furtherLexemes (further : Span × Ident) : List Lexeme :=
  [Reserved.comma.lexeme further.1, further.2.lexeme]

def IdentsTree.lexemes (tree : IdentsTree) : List Lexeme :=
  tree.first.lexeme :: tree.further.flatMap furtherLexemes

inductive GenericsTree where
  | empty (place : Span)
  | listed (opening : Span) (universal : Option IdentsTree)
      (existential : Option (Span × Option IdentsTree)) (closing : Span)

def existentialLexemes (existential : Span × Option IdentsTree) : List Lexeme :=
  Reserved.bar.lexeme existential.1 :: optional IdentsTree.lexemes existential.2

def GenericsTree.lexemes : GenericsTree → List Lexeme
  | .empty place => [Reserved.split.lexeme place]
  | .listed opening universal existential closing =>
    Reserved.openAngle.lexeme opening :: (optional IdentsTree.lexemes universal ++
      (optional existentialLexemes existential ++ [Reserved.closeAngle.lexeme closing]))

structure PortsTree where
  opening : Span
  inputs : Option IdentsTree
  bar : Span
  outputs : Option IdentsTree
  closing : Span

def PortsTree.lexemes (tree : PortsTree) : List Lexeme :=
  Reserved.openBracket.lexeme tree.opening :: (optional IdentsTree.lexemes tree.inputs ++
    Reserved.bar.lexeme tree.bar :: (optional IdentsTree.lexemes tree.outputs ++
      [Reserved.closeBracket.lexeme tree.closing]))

def Sign.word : Sign → Reserved
  | .plus => .plus
  | .minus => .minus
  | .star => .star

inductive BoxTree where
  | signed (sign : Sign) (place : Span) (symbol : Ident)
  | indexed (tag : Ident) (opening : Span) (count : UInt32) (place closing : Span)
  | join (place : Span)
  | split (place : Span)
  | definition (name : Ident) (arguments : Option GenericsTree)

def BoxTree.lexemes : BoxTree → List Lexeme
  | .signed sign place symbol => [sign.word.lexeme place, symbol.lexeme]
  | .indexed tag opening count place closing =>
    [tag.lexeme, Reserved.openBrace.lexeme opening, ⟨.number count, place⟩,
      Reserved.closeBrace.lexeme closing]
  | .join place => [Reserved.join.lexeme place]
  | .split place => [Reserved.split.lexeme place]
  | .definition name arguments => name.lexeme :: optional GenericsTree.lexemes arguments

structure UseTree where
  keyword : Span
  box : BoxTree
  ports : PortsTree
  naming : Span
  name : Ident

def UseTree.lexemes (tree : UseTree) : List Lexeme :=
  Reserved.use.lexeme tree.keyword :: (tree.box.lexemes ++ (tree.ports.lexemes ++
    [Reserved.as.lexeme tree.naming, tree.name.lexeme]))

/-- A port, written alone or behind the name of the instance that owns it. -/
structure PortRefTree where
  first : Ident
  second : Option (Span × Ident)

def secondLexemes (second : Span × Ident) : List Lexeme :=
  [Reserved.dot.lexeme second.1, second.2.lexeme]

def PortRefTree.lexemes (tree : PortRefTree) : List Lexeme :=
  tree.first.lexeme :: optional secondLexemes tree.second

structure LinkTree where
  source : PortRefTree
  arrow : Span
  target : PortRefTree

def LinkTree.lexemes (tree : LinkTree) : List Lexeme :=
  tree.source.lexemes ++ Reserved.arrow.lexeme tree.arrow :: tree.target.lexemes

def commaLexemes (place : Span) : List Lexeme := [Reserved.comma.lexeme place]

/-- A link and the comma that may follow it. -/
def closedLinkLexemes (closed : LinkTree × Option Span) : List Lexeme :=
  closed.1.lexemes ++ optional commaLexemes closed.2

inductive ItemTree where
  | use (tree : UseTree)
  | links (keyword : Span) (links : List (LinkTree × Option Span))

def ItemTree.lexemes : ItemTree → List Lexeme
  | .use tree => tree.lexemes
  | .links keyword closed => Reserved.link.lexeme keyword :: closed.flatMap closedLinkLexemes

structure DefinitionTree where
  keyword : Span
  name : Ident
  equals : Span
  generics : Option GenericsTree
  ports : PortsTree
  body : List ItemTree

def bodyLexemes (body : List ItemTree) : List Lexeme :=
  body.flatMap ItemTree.lexemes

def DefinitionTree.lexemes (tree : DefinitionTree) : List Lexeme :=
  Reserved.define.lexeme tree.keyword :: tree.name.lexeme :: Reserved.equals.lexeme tree.equals ::
    (optional GenericsTree.lexemes tree.generics ++ (tree.ports.lexemes ++ bodyLexemes tree.body))

structure ProgramTree where
  definitions : List DefinitionTree

def ProgramTree.lexemes (tree : ProgramTree) : List Lexeme :=
  tree.definitions.flatMap DefinitionTree.lexemes

/-! ## What a tree stands for -/

def IdentsTree.idents (tree : IdentsTree) : List Ident :=
  tree.first :: tree.further.map Prod.snd

def identsOf (tree : Option IdentsTree) : List Ident :=
  tree.elim [] IdentsTree.idents

def GenericsTree.generics : GenericsTree → Generics
  | .empty place => .empty place
  | .listed opening universal existential closing =>
    ⟨identsOf universal, existential.elim [] fun (_, idents) => identsOf idents,
      opening.start, closing.stop⟩

def PortsTree.ports (tree : PortsTree) : Ports :=
  ⟨identsOf tree.inputs, identsOf tree.outputs, tree.opening.start, tree.closing.stop⟩

def BoxTree.box : BoxTree → BoxRef
  | .signed sign _ symbol => sign.box symbol
  | .indexed tag _ count _ closing => .indexed tag count ⟨tag.span.start, closing.stop⟩
  | .join place => .join place
  | .split place => .split place
  | .definition name arguments => .definition name (arguments.map GenericsTree.generics)

def UseTree.use (tree : UseTree) : Use :=
  ⟨tree.box.box, tree.ports.ports, tree.name, tree.keyword.start, tree.name.span.stop⟩

def PortRefTree.ref (tree : PortRefTree) : PortRef :=
  match tree.second with
  | none => .boundary tree.first
  | some (_, port) => .ofInstance tree.first port

def LinkTree.link (tree : LinkTree) : Link :=
  ⟨tree.source.ref, tree.target.ref, tree.source.ref.span.start, tree.target.ref.span.stop⟩

/-- The uses of an item of a body. -/
def ItemTree.uses : ItemTree → List Use
  | .use tree => [tree.use]
  | .links .. => []

/-- The links of an item of a body. -/
def ItemTree.linked : ItemTree → List Link
  | .use _ => []
  | .links _ closed => closed.map fun (tree, _) => tree.link

/-- Where lexemes stop that are read on from the byte `stop`. -/
def stopAfter (stop : Nat) (lexemes : List Lexeme) : Nat :=
  lexemes.foldl (fun _ lexeme => lexeme.span.stop) stop

/--
The definition that a tree stands for.  Its uses and its links each come in the order of the
source, however they alternate there, and it stops with the last lexeme of its body.
-/
def DefinitionTree.definition (tree : DefinitionTree) : Definition where
  name := tree.name
  generics :=
    (tree.generics.map GenericsTree.generics).getD
      (.empty ⟨tree.ports.opening.start, tree.ports.opening.start⟩)
  ports := tree.ports.ports
  uses := tree.body.flatMap ItemTree.uses
  links := tree.body.flatMap ItemTree.linked
  span := ⟨tree.keyword.start, stopAfter tree.ports.closing.stop (bodyLexemes tree.body)⟩

/-- The program that a tree stands for in a source of `length` bytes. -/
def ProgramTree.program (length : Nat) (tree : ProgramTree) : Program :=
  let definitions := tree.definitions.map DefinitionTree.definition
  ⟨definitions, Program.spanOf length definitions⟩

/-! ## Heads of lexeme lists -/

/-- No lexeme of the given kinds comes first. -/
def Avoids (kinds : List Expectation) (lexemes : List Lexeme) : Prop :=
  ∀ lexeme ∈ lexemes.head?, lexeme.token.kind ∉ kinds

/-- Some lexeme of the given kinds comes first. -/
def Heads (kinds : List Expectation) (lexemes : List Lexeme) : Prop :=
  ∃ lexeme ∈ lexemes.head?, lexeme.token.kind ∈ kinds

@[simp]
theorem avoids_cons {kinds : List Expectation} {lexeme : Lexeme} {rest : List Lexeme} :
    Avoids kinds (lexeme :: rest) ↔ lexeme.token.kind ∉ kinds := by
  simp [Avoids]

@[simp]
theorem avoids_nil {kinds : List Expectation} : Avoids kinds [] := by
  simp [Avoids]

@[simp]
theorem heads_cons {kinds : List Expectation} {lexeme : Lexeme} {rest : List Lexeme} :
    Heads kinds (lexeme :: rest) ↔ lexeme.token.kind ∈ kinds := by
  simp [Heads]

theorem avoids_append {first second : List Expectation} {lexemes : List Lexeme} :
    Avoids (first ++ second) lexemes ↔ Avoids first lexemes ∧ Avoids second lexemes := by
  cases lexemes with
  | nil => simp
  | cons lexeme rest => simp

theorem Heads.append {kinds : List Expectation} {lexemes : List Lexeme}
    (heads : Heads kinds lexemes) (rest : List Lexeme) : Heads kinds (lexemes ++ rest) := by
  cases lexemes with
  | nil => simp [Heads] at heads
  | cons lexeme others => simpa using heads

theorem Heads.avoids {kinds others : List Expectation} {lexemes : List Lexeme}
    (heads : Heads kinds lexemes) (apart : ∀ kind ∈ kinds, kind ∉ others) :
    Avoids others lexemes := by
  cases lexemes with
  | nil => simp
  | cons lexeme rest =>
      rw [heads_cons] at heads
      rw [avoids_cons]
      exact apart _ heads

theorem Heads.not_avoids {kinds : List Expectation} {lexemes : List Lexeme}
    (heads : Heads kinds lexemes) : ¬ Avoids kinds lexemes := by
  obtain ⟨lexeme, first, member⟩ := heads
  exact fun avoids => avoids lexeme first member

/-! ## Unambiguous rules -/

/--
What a tree spells is not the beginning of what another tree spells, as long as no lexeme of the
kinds `barred` follows.
-/
def Unambiguous {Tree : Type} (lexemes : Tree → List Lexeme) (barred : List Expectation) : Prop :=
  ∀ ⦃first second rest others⦄, Avoids barred rest → Avoids barred others →
    lexemes first ++ rest = lexemes second ++ others → first = second ∧ rest = others

theorem Avoids.mono {kinds more : List Expectation} {lexemes : List Lexeme}
    (avoids : Avoids more lexemes) (within : ∀ kind ∈ kinds, kind ∈ more) :
    Avoids kinds lexemes :=
  fun lexeme head member => avoids lexeme head (within _ member)

theorem Unambiguous.mono {Tree : Type} {lexemes : Tree → List Lexeme}
    {barred more : List Expectation} (unambiguous : Unambiguous lexemes barred)
    (within : ∀ kind ∈ barred, kind ∈ more) : Unambiguous lexemes more := by
  intro first second rest others avoids avoidsOthers same
  exact unambiguous (avoids.mono within) (avoidsOthers.mono within) same

/-- A part may be left out when nothing that starts it can follow. -/
theorem Unambiguous.optional {Tree : Type} {lexemes : Tree → List Lexeme}
    {starts barred : List Expectation} (unambiguous : Unambiguous lexemes barred)
    (heads : ∀ tree, Heads starts (lexemes tree)) :
    Unambiguous (optional lexemes) (starts ++ barred) := by
  intro first second rest others avoids avoidsOthers same
  rw [avoids_append] at avoids avoidsOthers
  cases first with
  | none =>
      cases second with
      | none => exact ⟨rfl, same⟩
      | some tree =>
          have there : Heads starts rest := by
            rw [show rest = lexemes tree ++ others from same]
            exact (heads tree).append others
          exact (there.not_avoids avoids.1).elim
  | some tree =>
      cases second with
      | none =>
          have there : Heads starts others := by
            rw [← show lexemes tree ++ rest = others from same]
            exact (heads tree).append rest
          exact (there.not_avoids avoidsOthers.1).elim
      | some other =>
          obtain ⟨sameTree, sameRest⟩ := unambiguous avoids.2 avoidsOthers.2 same
          exact ⟨congrArg some sameTree, sameRest⟩

/-- A part may be repeated when what starts it can follow it, but not follow the last of them. -/
theorem Unambiguous.repeated {Tree : Type} {lexemes : Tree → List Lexeme}
    {starts barred : List Expectation} (unambiguous : Unambiguous lexemes barred)
    (heads : ∀ tree, Heads starts (lexemes tree)) (apart : ∀ kind ∈ starts, kind ∉ barred) :
    Unambiguous (fun trees : List Tree => trees.flatMap lexemes) (starts ++ barred) := by
  intro first second rest others avoids avoidsOthers same
  have follow {trees : List Tree} {rest : List Lexeme} (avoids : Avoids (starts ++ barred) rest) :
      Avoids barred (trees.flatMap lexemes ++ rest) := by
    cases trees with
    | nil => exact (avoids_append.mp avoids).2
    | cons tree later =>
        rw [List.flatMap_cons, List.append_assoc]
        exact ((heads tree).append _).avoids apart
  induction first generalizing second with
  | nil =>
      cases second with
      | nil => exact ⟨rfl, same⟩
      | cons tree later =>
          have there : Heads starts rest := by
            rw [show rest = (lexemes tree ++ later.flatMap lexemes) ++ others from same,
              List.append_assoc]
            exact (heads tree).append _
          exact (there.not_avoids (avoids_append.mp avoids).1).elim
  | cons tree later ih =>
      cases second with
      | nil =>
          have there : Heads starts others := by
            rw [← show (lexemes tree ++ later.flatMap lexemes) ++ rest = others from same,
              List.append_assoc]
            exact (heads tree).append _
          exact (there.not_avoids (avoids_append.mp avoidsOthers).1).elim
      | cons other more =>
          simp only [List.flatMap_cons, List.append_assoc] at same
          obtain ⟨sameTree, same⟩ := unambiguous (follow avoids) (follow avoidsOthers) same
          obtain ⟨sameTrees, sameRest⟩ := ih same
          exact ⟨by rw [sameTree, sameTrees], sameRest⟩

/-! ## The rules one by one -/

theorem unambiguous_further : Unambiguous furtherLexemes [] := by
  rintro ⟨comma, ident⟩ ⟨comma', ident'⟩ rest others - - same
  simp only [furtherLexemes, List.cons_append, List.nil_append, List.cons.injEq,
    Reserved.lexeme_inj, Ident.lexeme_inj, true_and] at same
  obtain ⟨rfl, rfl, sameRest⟩ := same
  exact ⟨rfl, sameRest⟩

theorem heads_further (further : Span × Ident) :
    Heads [.reserved .comma] (furtherLexemes further) := by
  simp [furtherLexemes, Token.kind]

theorem IdentsTree.unambiguous : Unambiguous IdentsTree.lexemes [.reserved .comma] := by
  rintro ⟨first, further⟩ ⟨first', further'⟩ rest others avoids avoidsOthers same
  simp only [IdentsTree.lexemes, List.cons_append, List.cons.injEq, Ident.lexeme_inj] at same
  obtain ⟨rfl, sameFurther⟩ := same
  have many := unambiguous_further.repeated heads_further (by simp)
  obtain ⟨rfl, sameRest⟩ := many avoids avoidsOthers sameFurther
  exact ⟨rfl, sameRest⟩

theorem IdentsTree.heads (tree : IdentsTree) : Heads [.ident] tree.lexemes := by
  simp [IdentsTree.lexemes, Token.kind]

theorem unambiguous_idents :
    Unambiguous (optional IdentsTree.lexemes) [.ident, .reserved .comma] :=
  IdentsTree.unambiguous.optional IdentsTree.heads

theorem unambiguous_existential :
    Unambiguous existentialLexemes [.ident, .reserved .comma] := by
  rintro ⟨bar, idents⟩ ⟨bar', idents'⟩ rest others avoids avoidsOthers same
  simp only [existentialLexemes, List.cons_append, List.cons.injEq, Reserved.lexeme_inj,
    true_and] at same
  obtain ⟨rfl, sameIdents⟩ := same
  obtain ⟨rfl, sameRest⟩ := unambiguous_idents avoids avoidsOthers sameIdents
  exact ⟨rfl, sameRest⟩

theorem heads_existential (existential : Span × Option IdentsTree) :
    Heads [.reserved .bar] (existentialLexemes existential) := by
  simp [existentialLexemes, Token.kind]

theorem avoids_optional_existential {existential : Option (Span × Option IdentsTree)}
    {closing : Span} {rest : List Lexeme} :
    Avoids [.ident, .reserved .comma] (optional existentialLexemes existential ++
      Reserved.closeAngle.lexeme closing :: rest) := by
  cases existential with
  | none => simp [optional, Token.kind]
  | some existential => simp [optional, existentialLexemes, Token.kind]

theorem GenericsTree.unambiguous : Unambiguous GenericsTree.lexemes [] := by
  intro first second rest others _ _ same
  cases first with
  | empty place =>
      cases second with
      | empty place' => simpa [GenericsTree.lexemes] using same
      | listed opening' universal' existential' closing' =>
          simp [GenericsTree.lexemes, Reserved.lexeme] at same
  | listed opening universal existential closing =>
      cases second with
      | empty place' => simp [GenericsTree.lexemes, Reserved.lexeme] at same
      | listed opening' universal' existential' closing' =>
          simp only [GenericsTree.lexemes, List.cons_append, List.append_assoc, List.nil_append,
            List.cons.injEq, Reserved.lexeme_inj, true_and] at same
          obtain ⟨rfl, sameIdents⟩ := same
          obtain ⟨rfl, sameLater⟩ := unambiguous_idents avoids_optional_existential
            avoids_optional_existential sameIdents
          obtain ⟨rfl, sameClosing⟩ := unambiguous_existential.optional heads_existential
            (by simp [Token.kind]) (by simp [Token.kind]) sameLater
          simp only [List.cons.injEq, Reserved.lexeme_inj, true_and] at sameClosing
          obtain ⟨rfl, sameRest⟩ := sameClosing
          exact ⟨rfl, sameRest⟩

theorem GenericsTree.heads (tree : GenericsTree) :
    Heads [.reserved .openAngle, .reserved .split] tree.lexemes := by
  cases tree with
  | empty place => simp [GenericsTree.lexemes, Token.kind]
  | listed opening universal existential closing => simp [GenericsTree.lexemes, Token.kind]

theorem PortsTree.unambiguous : Unambiguous PortsTree.lexemes [] := by
  rintro ⟨opening, inputs, bar, outputs, closing⟩ ⟨opening', inputs', bar', outputs', closing'⟩
    rest others - - same
  simp only [PortsTree.lexemes, List.cons_append, List.append_assoc, List.nil_append,
    List.cons.injEq, Reserved.lexeme_inj, true_and] at same
  obtain ⟨rfl, sameInputs⟩ := same
  obtain ⟨rfl, sameBar⟩ :=
    unambiguous_idents (by simp [Token.kind]) (by simp [Token.kind]) sameInputs
  simp only [List.cons.injEq, Reserved.lexeme_inj, true_and] at sameBar
  obtain ⟨rfl, sameOutputs⟩ := sameBar
  obtain ⟨rfl, sameClosing⟩ :=
    unambiguous_idents (by simp [Token.kind]) (by simp [Token.kind]) sameOutputs
  simp only [List.cons.injEq, Reserved.lexeme_inj, true_and] at sameClosing
  obtain ⟨rfl, sameRest⟩ := sameClosing
  exact ⟨rfl, sameRest⟩

theorem PortsTree.heads (tree : PortsTree) : Heads [.reserved .openBracket] tree.lexemes := by
  simp [PortsTree.lexemes, Token.kind]

@[simp]
theorem Sign.word_inj {first second : Sign} : first.word = second.word ↔ first = second := by
  cases first <;> cases second <;> simp [Sign.word]

@[simp]
theorem Sign.word_ne_join (sign : Sign) : sign.word ≠ .join := by
  cases sign <;> simp [Sign.word]

@[simp]
theorem Sign.join_ne_word (sign : Sign) : .join ≠ sign.word :=
  sign.word_ne_join.symm

@[simp]
theorem Sign.word_ne_split (sign : Sign) : sign.word ≠ .split := by
  cases sign <;> simp [Sign.word]

@[simp]
theorem Sign.split_ne_word (sign : Sign) : .split ≠ sign.word :=
  sign.word_ne_split.symm

theorem optional_generics_ne_brace {generics : Option GenericsTree} {rest later : List Lexeme}
    {opening : Span} (avoids : Avoids [.reserved .openBrace] rest) :
    optional GenericsTree.lexemes generics ++ rest ≠
      Reserved.openBrace.lexeme opening :: later := by
  intro same
  cases generics with
  | none =>
      rw [show rest = _ from same] at avoids
      simp [Token.kind] at avoids
  | some generics => cases generics <;> simp [optional, GenericsTree.lexemes] at same

/-- An identifier with a count is told from the name of a definition by its brace. -/
theorem BoxTree.unambiguous : Unambiguous BoxTree.lexemes
    [.reserved .openAngle, .reserved .split, .reserved .openBrace] := by
  intro first second rest others avoids avoidsOthers same
  have unbraced : Unambiguous GenericsTree.lexemes [.reserved .openBrace] :=
    GenericsTree.unambiguous.mono (by simp)
  have arguments := unbraced.optional GenericsTree.heads
  cases first <;> cases second
  case definition.definition name generics name' generics' =>
    simp only [BoxTree.lexemes, List.cons_append, List.cons.injEq, Ident.lexeme_inj] at same
    obtain ⟨rfl, sameArguments⟩ := same
    obtain ⟨rfl, sameRest⟩ := arguments avoids avoidsOthers sameArguments
    exact ⟨rfl, sameRest⟩
  case definition.indexed name generics tag opening count place closing =>
    simp only [BoxTree.lexemes, List.cons_append, List.nil_append, List.cons.injEq] at same
    exact (optional_generics_ne_brace (avoids.mono (by simp)) same.2).elim
  case indexed.definition tag opening count place closing name generics =>
    simp only [BoxTree.lexemes, List.cons_append, List.nil_append, List.cons.injEq] at same
    exact (optional_generics_ne_brace (avoidsOthers.mono (by simp)) same.2.symm).elim
  case signed.signed => simpa [BoxTree.lexemes, and_assoc] using same
  case indexed.indexed => simpa [BoxTree.lexemes, and_assoc] using same
  case join.join => simpa [BoxTree.lexemes] using same
  case split.split => simpa [BoxTree.lexemes] using same
  all_goals simp [BoxTree.lexemes] at same

theorem UseTree.unambiguous : Unambiguous UseTree.lexemes [] := by
  rintro ⟨keyword, box, ports, naming, name⟩ ⟨keyword', box', ports', naming', name'⟩
    rest others - - same
  simp only [UseTree.lexemes, List.cons_append, List.append_assoc, List.nil_append,
    List.cons.injEq, Reserved.lexeme_inj, true_and] at same
  obtain ⟨rfl, sameBox⟩ := same
  have follow (ports : PortsTree) (rest : List Lexeme) : Avoids
      [.reserved .openAngle, .reserved .split, .reserved .openBrace] (ports.lexemes ++ rest) :=
    (ports.heads.append rest).avoids (by simp)
  obtain ⟨rfl, samePorts⟩ := BoxTree.unambiguous (follow _ _) (follow _ _) sameBox
  obtain ⟨rfl, sameNaming⟩ :=
    PortsTree.unambiguous (by simp [Avoids]) (by simp [Avoids]) samePorts
  simp only [List.cons.injEq, Reserved.lexeme_inj, Ident.lexeme_inj, true_and] at sameNaming
  obtain ⟨rfl, rfl, sameRest⟩ := sameNaming
  exact ⟨rfl, sameRest⟩

theorem unambiguous_second : Unambiguous secondLexemes [] := by
  rintro ⟨dot, port⟩ ⟨dot', port'⟩ rest others - - same
  simp only [secondLexemes, List.cons_append, List.nil_append, List.cons.injEq,
    Reserved.lexeme_inj, Ident.lexeme_inj, true_and] at same
  obtain ⟨rfl, rfl, sameRest⟩ := same
  exact ⟨rfl, sameRest⟩

theorem heads_second (second : Span × Ident) :
    Heads [.reserved .dot] (secondLexemes second) := by
  simp [secondLexemes, Token.kind]

theorem PortRefTree.unambiguous : Unambiguous PortRefTree.lexemes [.reserved .dot] := by
  rintro ⟨port, second⟩ ⟨port', second'⟩ rest others avoids avoidsOthers same
  simp only [PortRefTree.lexemes, List.cons_append, List.cons.injEq, Ident.lexeme_inj] at same
  obtain ⟨rfl, sameSecond⟩ := same
  have behind := unambiguous_second.optional heads_second
  obtain ⟨rfl, sameRest⟩ := behind avoids avoidsOthers sameSecond
  exact ⟨rfl, sameRest⟩

theorem LinkTree.unambiguous : Unambiguous LinkTree.lexemes [.reserved .dot] := by
  rintro ⟨source, arrow, target⟩ ⟨source', arrow', target'⟩ rest others avoids avoidsOthers same
  simp only [LinkTree.lexemes, List.cons_append, List.append_assoc] at same
  obtain ⟨rfl, sameArrow⟩ :=
    PortRefTree.unambiguous (by simp [Token.kind]) (by simp [Token.kind]) same
  simp only [List.cons.injEq, Reserved.lexeme_inj, true_and] at sameArrow
  obtain ⟨rfl, sameTarget⟩ := sameArrow
  obtain ⟨rfl, sameRest⟩ := PortRefTree.unambiguous avoids avoidsOthers sameTarget
  exact ⟨rfl, sameRest⟩

theorem unambiguous_comma : Unambiguous commaLexemes [.reserved .dot] := by
  intro place other rest others _ _ same
  simpa [commaLexemes] using same

theorem heads_comma (place : Span) : Heads [.reserved .comma] (commaLexemes place) := by
  simp [commaLexemes, Token.kind]

theorem unambiguous_closedLink :
    Unambiguous closedLinkLexemes [.reserved .comma, .reserved .dot] := by
  rintro ⟨link, comma⟩ ⟨link', comma'⟩ rest others avoids avoidsOthers same
  simp only [closedLinkLexemes, List.append_assoc] at same
  have follow {comma : Option Span} {rest : List Lexeme}
      (avoids : Avoids [.reserved .comma, .reserved .dot] rest) :
      Avoids [.reserved .dot] (optional commaLexemes comma ++ rest) := by
    cases comma with
    | none => exact avoids.mono (by simp)
    | some place => simp [optional, commaLexemes, Token.kind]
  have closing := unambiguous_comma.optional heads_comma
  obtain ⟨rfl, sameComma⟩ := LinkTree.unambiguous (follow avoids) (follow avoidsOthers) same
  obtain ⟨rfl, sameRest⟩ := closing avoids avoidsOthers sameComma
  exact ⟨rfl, sameRest⟩

theorem heads_closedLink (closed : LinkTree × Option Span) :
    Heads [.ident] (closedLinkLexemes closed) := by
  simp [closedLinkLexemes, LinkTree.lexemes, PortRefTree.lexemes, Token.kind]

theorem ItemTree.unambiguous :
    Unambiguous ItemTree.lexemes [.ident, .reserved .comma, .reserved .dot] := by
  intro first second rest others avoids avoidsOthers same
  cases first with
  | use tree =>
      cases second with
      | use tree' =>
          obtain ⟨rfl, sameRest⟩ :=
            UseTree.unambiguous (by simp [Avoids]) (by simp [Avoids]) same
          exact ⟨rfl, sameRest⟩
      | links keyword' closed' => simp [ItemTree.lexemes, UseTree.lexemes] at same
  | links keyword closed =>
      cases second with
      | use tree' => simp [ItemTree.lexemes, UseTree.lexemes] at same
      | links keyword' closed' =>
          simp only [ItemTree.lexemes, List.cons_append, List.cons.injEq, Reserved.lexeme_inj,
            true_and] at same
          obtain ⟨rfl, sameLinks⟩ := same
          have many := unambiguous_closedLink.repeated heads_closedLink (by simp)
          obtain ⟨rfl, sameRest⟩ := many avoids avoidsOthers sameLinks
          exact ⟨rfl, sameRest⟩

theorem ItemTree.heads (tree : ItemTree) :
    Heads [.reserved .use, .reserved .link] tree.lexemes := by
  cases tree with
  | use tree => simp [ItemTree.lexemes, UseTree.lexemes, Token.kind]
  | links keyword closed => simp [ItemTree.lexemes, Token.kind]

theorem DefinitionTree.unambiguous : Unambiguous DefinitionTree.lexemes
    [.reserved .use, .reserved .link, .ident, .reserved .comma, .reserved .dot] := by
  rintro ⟨keyword, name, equals, generics, ports, body⟩
    ⟨keyword', name', equals', generics', ports', body'⟩ rest others avoids avoidsOthers same
  simp only [DefinitionTree.lexemes, List.cons_append, List.append_assoc, List.cons.injEq,
    Reserved.lexeme_inj, Ident.lexeme_inj, true_and] at same
  obtain ⟨rfl, rfl, rfl, sameGenerics⟩ := same
  have follow (ports : PortsTree) (rest : List Lexeme) :
      Avoids [.reserved .openAngle, .reserved .split] (ports.lexemes ++ rest) :=
    (ports.heads.append rest).avoids (by simp)
  obtain ⟨rfl, samePorts⟩ :=
    GenericsTree.unambiguous.optional GenericsTree.heads (follow _ _) (follow _ _) sameGenerics
  obtain ⟨rfl, sameBody⟩ :=
    PortsTree.unambiguous (by simp [Avoids]) (by simp [Avoids]) samePorts
  have items := ItemTree.unambiguous.repeated ItemTree.heads (by simp)
  obtain ⟨rfl, sameRest⟩ := items avoids avoidsOthers sameBody
  exact ⟨rfl, sameRest⟩

theorem DefinitionTree.heads (tree : DefinitionTree) :
    Heads [.reserved .define] tree.lexemes := by
  simp [DefinitionTree.lexemes, Token.kind]

/--
No two trees spell the same lexemes.  As the lexemes may all have one span, this also holds of
tokens alone.
-/
theorem ProgramTree.eq_of_lexemes {first second : ProgramTree}
    (same : first.lexemes = second.lexemes) : first = second := by
  have definitions := DefinitionTree.unambiguous.repeated DefinitionTree.heads (by simp)
  obtain ⟨trees⟩ := first
  obtain ⟨others⟩ := second
  obtain ⟨rfl, -⟩ := definitions (avoids_nil) (avoids_nil) (congrArg (· ++ []) same)
  rfl

end FlowDiagram

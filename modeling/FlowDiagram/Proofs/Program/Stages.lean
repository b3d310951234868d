import FlowDiagram.Proofs.Program.Grammar

/-!
# Stages follow the rules of the grammar

A reader that stands at a stage gets through exactly those lexemes that a tree of the rule in
progress spells, and then goes on from the stage behind that rule with what the tree stands for.
Here the rules within a use are followed: lists of identifiers, generic symbols, ports, boxes.
-/

namespace FlowDiagram

/-! ## Steps of a reader -/

/-- The reader takes all lexemes and may stop behind them, with these definitions. -/
def Reader.Reads (reader : Reader) (lexemes : List Lexeme) (definitions : List Definition) :
    Prop :=
  ∃ last, reader.run lexemes = .ok last ∧ last.finish = .ok definitions

/-- A stage in the middle of a definition, before the body of which nothing may end. -/
def Stage.IsInside (stage : Stage) : Prop :=
  stage.draft? = none ∧ stage ≠ .outset

section Readers

variable {read definitions : List Definition} {stop : Nat} {lexemes : List Lexeme}

theorem Reader.reads_nil {reader : Reader} :
    reader.Reads [] definitions ↔ reader.finish = .ok definitions := by
  simp [Reader.Reads, Reader.run]

theorem Reader.reads_cons {reader : Reader} {lexeme : Lexeme} :
    reader.Reads (lexeme :: lexemes) definitions ↔
      ∃ next, reader.step lexeme = some next ∧ next.Reads lexemes definitions := by
  unfold Reader.Reads
  rw [Reader.run]
  cases reader.step lexeme with
  | none => simp
  | some next => simp

theorem reads_inside {stage : Stage} (inside : stage.IsInside) :
    (⟨read, stage, stop⟩ : Reader).Reads lexemes definitions ↔
      ∃ lexeme rest next, lexemes = lexeme :: rest ∧
        stage.next lexeme.token lexeme.span = some next ∧
        (⟨read, next, lexeme.span.stop⟩ : Reader).Reads rest definitions := by
  cases lexemes with
  | nil =>
      have unfinished : (⟨read, stage, stop⟩ : Reader).finish ≠ .ok definitions := by
        unfold Reader.finish
        rw [inside.1]
        split
        · exact absurd ‹_› inside.2
        · simp_all
        · simp
      simp [Reader.reads_nil, unfinished]
  | cons lexeme rest =>
      rw [Reader.reads_cons]
      have steps : (⟨read, stage, stop⟩ : Reader).step lexeme =
          (stage.next lexeme.token lexeme.span).map fun next => ⟨read, next, lexeme.span.stop⟩ := by
        simp only [Reader.step, inside.1]
        cases stage.next lexeme.token lexeme.span with
        | none => simp
        | some next => simp
      rw [steps]
      constructor
      · rintro ⟨reader, moves, reads⟩
        obtain ⟨next, goes, rfl⟩ := Option.map_eq_some_iff.mp moves
        exact ⟨lexeme, rest, next, rfl, goes, reads⟩
      · rintro ⟨lexeme', rest', next, same, goes, reads⟩
        cases same
        exact ⟨_, Option.map_eq_some_iff.mpr ⟨next, goes, rfl⟩, reads⟩

/-- In the middle of a definition it does not matter where the last lexeme stopped. -/
theorem reads_stop {stage : Stage} (inside : stage.IsInside) {other : Nat} :
    (⟨read, stage, stop⟩ : Reader).Reads lexemes definitions ↔
      (⟨read, stage, other⟩ : Reader).Reads lexemes definitions := by
  rw [reads_inside inside, reads_inside inside]

theorem Token.kind_eq_reserved {token : Token} {word : Reserved} :
    token.kind = .reserved word ↔ token = .reserved word := by
  cases token <;> simp [Token.kind]

theorem Token.kind_eq_ident {token : Token} :
    token.kind = .ident ↔ ∃ name, token = .ident name := by
  cases token <;> simp [Token.kind]

/-- A stage at which only an identifier can come next. -/
theorem reads_ident {stage : Stage} (onward : Ident → Stage) (inside : stage.IsInside)
    (takes : ∀ name span, stage.next (.ident name) span = some (onward ⟨name, span⟩))
    (refuses : ∀ token span, token.kind ≠ .ident → stage.next token span = none) :
    (⟨read, stage, stop⟩ : Reader).Reads lexemes definitions ↔
      ∃ ident rest, lexemes = ident.lexeme :: rest ∧
        (⟨read, onward ident, ident.span.stop⟩ : Reader).Reads rest definitions := by
  rw [reads_inside inside]
  constructor
  · rintro ⟨⟨token, span⟩, rest, next, rfl, goes, reads⟩
    cases token with
    | ident name =>
        obtain rfl := Option.some.inj ((takes name span).symm.trans goes)
        exact ⟨⟨name, span⟩, rest, rfl, reads⟩
    | _ => cases (refuses _ span Expectation.noConfusion).symm.trans goes
  · rintro ⟨ident, rest, rfl, reads⟩
    exact ⟨_, rest, _, rfl, takes _ _, reads⟩

/-- A stage at which only one word can come next. -/
theorem reads_word {stage : Stage} (word : Reserved) (onward : Span → Stage)
    (inside : stage.IsInside)
    (takes : ∀ span, stage.next (.reserved word) span = some (onward span))
    (refuses : ∀ token span, token ≠ .reserved word → stage.next token span = none) :
    (⟨read, stage, stop⟩ : Reader).Reads lexemes definitions ↔
      ∃ span rest, lexemes = word.lexeme span :: rest ∧
        (⟨read, onward span, span.stop⟩ : Reader).Reads rest definitions := by
  rw [reads_inside inside]
  constructor
  · rintro ⟨⟨token, span⟩, rest, next, rfl, goes, reads⟩
    by_cases isWord : token = .reserved word
    · subst isWord
      obtain rfl := Option.some.inj ((takes span).symm.trans goes)
      exact ⟨span, rest, rfl, reads⟩
    · cases (refuses token span isWord).symm.trans goes
  · rintro ⟨span, rest, rfl, reads⟩
    exact ⟨_, rest, _, rfl, takes _, reads⟩

/-! ## Lists of identifiers -/

/--
The stages `list` of a list of identifiers, latest first.  A word that may close the list, and a
comma may not, leads to the stage that `close` gives.
-/
structure IsList (list : List Ident → ListPlace → Stage)
    (close : Reserved → List Ident → Span → Option Stage) : Prop where
  inside : ∀ idents place, (list idents place).IsInside
  comma : ∀ idents span, close .comma idents span = none
  closes : ∀ idents place word span next, close word idents span = some next →
    (list idents place).next (.reserved word) span = if place.mayEnd then some next else none
  others : ∀ idents place token span,
    (∀ word, token = .reserved word → close word idents span = none) →
      (list idents place).next token span = place.next idents list token span

/-- What follows a list of identifiers closes it. -/
def Closes (close : Reserved → List Ident → Span → Option Stage) (read : List Definition)
    (definitions : List Definition) (idents : List Ident) (lexemes : List Lexeme) : Prop :=
  ∃ word span rest next, lexemes = word.lexeme span :: rest ∧
    close word idents span = some next ∧
    (⟨read, next, span.stop⟩ : Reader).Reads rest definitions

/--
A part that is read again and again from place to place, until something else follows, is read as
a list of trees.
-/
theorem repeated_iff {Tree Place : Type} (spell : Tree → List Lexeme)
    (onward : Place → Tree → Place) (reads stops : Place → List Lexeme → Prop)
    (nonempty : ∀ tree, spell tree ≠ [])
    (step : ∀ place lexemes, reads place lexemes ↔
      (∃ tree rest, lexemes = spell tree ++ rest ∧ reads (onward place tree) rest) ∨
        stops place lexemes) (place : Place) (lexemes : List Lexeme) :
    reads place lexemes ↔
      ∃ (trees : List Tree) (rest : List Lexeme), lexemes = trees.flatMap spell ++ rest ∧
        stops (trees.foldl onward place) rest := by
  constructor
  · induction size : lexemes.length using Nat.strongRecOn generalizing place lexemes with
    | ind length ih =>
        intro readsAll
        rcases (step place lexemes).mp readsAll with ⟨tree, rest, rfl, later⟩ | ends
        · have shorter : rest.length < length := by
            have := List.length_pos_iff.mpr (nonempty tree)
            rw [List.length_append] at size
            omega
          obtain ⟨trees, last, rfl, ends⟩ := ih _ shorter _ rest rfl later
          exact ⟨tree :: trees, last, by simp, ends⟩
        · exact ⟨[], lexemes, rfl, ends⟩
  · rintro ⟨trees, rest, rfl, ends⟩
    induction trees generalizing place with
    | nil => exact (step _ _).mpr (.inr ends)
    | cons tree later ih =>
        refine (step _ _).mpr (.inl ⟨tree, later.flatMap spell ++ rest, ?_, ih _ ends⟩)
        simp

section Idents

variable {list : List Ident → ListPlace → Stage}
  {close : Reserved → List Ident → Span → Option Stage}

theorem IsList.next_iff (isList : IsList list close) {idents : List Ident} {place : ListPlace}
    {token : Token} {span : Span} {stage : Stage} :
    (list idents place).next token span = some stage ↔
      place.next idents list token span = some stage ∨
        place.mayEnd ∧ ∃ word, token = .reserved word ∧ close word idents span = some stage := by
  have unclosed (goesOn : place.next idents list token span = some stage) :
      ∀ word, token = .reserved word → close word idents span = none := by
    rintro word rfl
    have isComma : word = .comma := by
      cases place with
      | afterIdent => cases word <;> first | rfl | cases goesOn
      | _ => cases goesOn
    rw [isComma]
    exact isList.comma idents span
  constructor
  · intro goes
    by_cases closing : ∃ word next, token = .reserved word ∧ close word idents span = some next
    · obtain ⟨word, next, rfl, closed⟩ := closing
      rw [isList.closes idents place word span next closed] at goes
      split at goes
      · rename_i mayEnd
        exact .inr ⟨mayEnd, word, rfl, closed.trans goes⟩
      · cases goes
    · have open' (word : Reserved) (isWord : token = .reserved word) :
          close word idents span = none :=
        Option.eq_none_iff_forall_ne_some.mpr fun next closed =>
          closing ⟨word, next, isWord, closed⟩
      exact .inl ((isList.others idents place token span open').symm.trans goes)
  · rintro (goesOn | ⟨mayEnd, word, rfl, closed⟩)
    · exact (isList.others idents place token span (unclosed goesOn)).trans goesOn
    · rw [isList.closes idents place word span stage closed, if_pos mayEnd]

theorem IsList.reads_afterComma (isList : IsList list close) {idents : List Ident} :
    (⟨read, list idents .afterComma, stop⟩ : Reader).Reads lexemes definitions ↔
      ∃ ident rest, lexemes = ident.lexeme :: rest ∧
        (⟨read, list (ident :: idents) .afterIdent, ident.span.stop⟩ : Reader).Reads rest
          definitions := by
  refine reads_ident (fun ident => list (ident :: idents) .afterIdent) (isList.inside _ _)
    (fun name span => isList.next_iff.mpr (.inl rfl)) ?_
  intro token span other
  refine Option.eq_none_iff_forall_ne_some.mpr fun stage goes => ?_
  rcases isList.next_iff.mp goes with goesOn | ⟨mayEnd, -⟩
  · cases token with
    | ident name => exact other rfl
    | _ => cases goesOn
  · cases mayEnd

theorem IsList.reads_afterIdent (isList : IsList list close) {idents : List Ident} :
    (⟨read, list idents .afterIdent, stop⟩ : Reader).Reads lexemes definitions ↔
      (∃ further rest, lexemes = furtherLexemes further ++ rest ∧
        (⟨read, list (further.2 :: idents) .afterIdent, stop⟩ : Reader).Reads rest
          definitions) ∨ Closes close read definitions idents lexemes := by
  rw [reads_inside (isList.inside _ _)]
  constructor
  · rintro ⟨⟨token, span⟩, rest, next, rfl, goes, reads⟩
    rcases isList.next_iff.mp goes with goes | ⟨-, word, rfl, closes⟩
    · simp only [ListPlace.next] at goes
      split at goes
      · cases goes
        obtain ⟨ident, rest, rfl, later⟩ := isList.reads_afterComma.mp reads
        exact .inl ⟨(span, ident), rest, rfl, (reads_stop (isList.inside _ _)).mp later⟩
      · cases goes
    · exact .inr ⟨word, span, rest, next, rfl, closes, reads⟩
  · rintro (⟨⟨comma, ident⟩, rest, rfl, reads⟩ | ⟨word, span, rest, next, rfl, closes, reads⟩)
    · refine ⟨_, _, _, rfl, isList.next_iff.mpr (.inl rfl), ?_⟩
      exact isList.reads_afterComma.mpr
        ⟨ident, rest, rfl, (reads_stop (isList.inside _ _)).mp reads⟩
    · exact ⟨_, rest, next, rfl,
        isList.next_iff.mpr (.inr ⟨rfl, word, rfl, closes⟩), reads⟩

theorem foldl_further (further : List (Span × Ident)) (idents : List Ident) :
    further.foldl (fun idents later => later.2 :: idents) idents =
      (further.map Prod.snd).reverse ++ idents := by
  induction further generalizing idents with
  | nil => rfl
  | cons later rest ih => simp [ih]

/-- A list of identifiers, which may be empty, up to what closes it. -/
theorem IsList.reads_opened (isList : IsList list close) :
    (⟨read, list [] .opened, stop⟩ : Reader).Reads lexemes definitions ↔
      ∃ tree rest, lexemes = optional IdentsTree.lexemes tree ++ rest ∧
        Closes close read definitions (identsOf tree).reverse rest := by
  have further (ident : Ident) (rest : List Lexeme) := repeated_iff furtherLexemes
    (fun idents later => later.2 :: idents)
    (fun idents lexemes =>
      (⟨read, list idents .afterIdent, ident.span.stop⟩ : Reader).Reads lexemes definitions)
    (Closes close read definitions) (by simp [furtherLexemes])
    (fun idents lexemes => isList.reads_afterIdent) [ident] rest
  rw [reads_inside (isList.inside _ _)]
  constructor
  · rintro ⟨⟨token, span⟩, rest, next, rfl, goes, reads⟩
    rcases isList.next_iff.mp goes with goes | ⟨-, word, rfl, closes⟩
    · cases token with
      | ident name =>
          cases goes
          obtain ⟨trees, last, rfl, closes⟩ := (further ⟨name, span⟩ rest).mp reads
          refine ⟨some ⟨⟨name, span⟩, trees⟩, last, rfl, ?_⟩
          rw [foldl_further] at closes
          simpa [identsOf, IdentsTree.idents] using closes
      | _ => cases goes
    · exact ⟨none, _, rfl, word, span, rest, next, rfl, closes, reads⟩
  · rintro ⟨tree, rest, rfl, closes⟩
    cases tree with
    | none =>
        obtain ⟨word, span, rest, next, rfl, closes, reads⟩ := closes
        exact ⟨_, rest, next, rfl,
          isList.next_iff.mpr (.inr ⟨rfl, word, rfl, closes⟩), reads⟩
    | some tree =>
        obtain ⟨first, trees⟩ := tree
        refine ⟨_, _, _, rfl, isList.next_iff.mpr (.inl rfl), ?_⟩
        refine (further first _).mpr ⟨trees, rest, rfl, ?_⟩
        rw [foldl_further]
        simpa [identsOf, IdentsTree.idents] using closes

end Idents

/-! ## Generic symbols and ports -/

section Bearers

/-- Where the words lead that close the universal symbols of a bearer. -/
def GenericsBearer.closeUniversal (bearer : GenericsBearer) (opening : Nat) (word : Reserved)
    (idents : List Ident) (span : Span) : Option Stage :=
  match word with
  | .bar => some (.inExistential bearer opening idents [] .opened)
  | .closeAngle => some (.beforePorts (bearer.close opening span.stop idents []))
  | _ => none

def GenericsBearer.closeExistential (bearer : GenericsBearer) (opening : Nat)
    (universal : List Ident) (word : Reserved) (idents : List Ident) (span : Span) :
    Option Stage :=
  match word with
  | .closeAngle => some (.beforePorts (bearer.close opening span.stop universal idents))
  | _ => none

def PortsBearer.closeInputs (bearer : PortsBearer) (opening : Nat) (word : Reserved)
    (idents : List Ident) (_ : Span) : Option Stage :=
  match word with
  | .bar => some (.inOutputs bearer opening idents [] .opened)
  | _ => none

def PortsBearer.closeOutputs (bearer : PortsBearer) (opening : Nat) (inputs : List Ident)
    (word : Reserved) (idents : List Ident) (span : Span) : Option Stage :=
  match word with
  | .closeBracket => some (bearer.bear ⟨inputs.reverse, idents.reverse, opening, span.stop⟩)
  | _ => none

theorem isList_universal (bearer : GenericsBearer) (opening : Nat) :
    IsList (.inUniversal bearer opening) (bearer.closeUniversal opening) where
  inside _ _ := ⟨rfl, Stage.noConfusion⟩
  comma _ _ := rfl
  closes idents place word span next closed := by
    cases word
    case bar | closeAngle => rw [← closed]; rfl
    all_goals cases closed
  others idents place token span closing := by
    cases token with
    | reserved word => cases word <;> first | rfl | cases closing _ rfl
    | _ => rfl

theorem isList_existential (bearer : GenericsBearer) (opening : Nat) (universal : List Ident) :
    IsList (.inExistential bearer opening universal)
      (bearer.closeExistential opening universal) where
  inside _ _ := ⟨rfl, Stage.noConfusion⟩
  comma _ _ := rfl
  closes idents place word span next closed := by
    cases word
    case closeAngle => rw [← closed]; rfl
    all_goals cases closed
  others idents place token span closing := by
    cases token with
    | reserved word => cases word <;> first | rfl | cases closing _ rfl
    | _ => rfl

theorem isList_inputs (bearer : PortsBearer) (opening : Nat) :
    IsList (.inInputs bearer opening) (bearer.closeInputs opening) where
  inside _ _ := ⟨rfl, Stage.noConfusion⟩
  comma _ _ := rfl
  closes idents place word span next closed := by
    cases word
    case bar => rw [← closed]; rfl
    all_goals cases closed
  others idents place token span closing := by
    cases token with
    | reserved word => cases word <;> first | rfl | cases closing _ rfl
    | _ => rfl

theorem isList_outputs (bearer : PortsBearer) (opening : Nat) (inputs : List Ident) :
    IsList (.inOutputs bearer opening inputs) (bearer.closeOutputs opening inputs) where
  inside _ _ := ⟨rfl, Stage.noConfusion⟩
  comma _ _ := rfl
  closes idents place word span next closed := by
    cases word
    case closeBracket => rw [← closed]; rfl
    all_goals cases closed
  others idents place token span closing := by
    cases token with
    | reserved word => cases word <;> first | rfl | cases closing _ rfl
    | _ => rfl

theorem PortsBearer.inside (bearer : PortsBearer) : (Stage.beforePorts bearer).IsInside :=
  ⟨rfl, Stage.noConfusion⟩

/-- The universal symbols have been read; the existential ones follow, if there are any. -/
theorem closes_universal {bearer : GenericsBearer} {opening : Nat} {idents : List Ident} :
    Closes (bearer.closeUniversal opening) read definitions idents lexemes ↔
      ∃ existential closing rest, lexemes = optional existentialLexemes existential ++
        Reserved.closeAngle.lexeme closing :: rest ∧
        (⟨read, .beforePorts (bearer.close opening closing.stop idents
          (existential.elim [] fun (_, tree) => identsOf tree).reverse), closing.stop⟩ :
          Reader).Reads rest definitions := by
  have further := isList_existential bearer opening idents
  constructor
  · rintro ⟨word, span, rest, next, rfl, goes, reads⟩
    unfold GenericsBearer.closeUniversal at goes
    split at goes
    · cases goes
      obtain ⟨tree, later, rfl, word, closing, rest, next, rfl, goes, reads⟩ :=
        further.reads_opened.mp reads
      unfold GenericsBearer.closeExistential at goes
      split at goes
      · cases goes
        exact ⟨some (span, tree), closing, rest, by simp [optional, existentialLexemes], reads⟩
      · cases goes
    · cases goes
      exact ⟨none, span, rest, rfl, reads⟩
    · cases goes
  · rintro ⟨existential, closing, rest, rfl, reads⟩
    cases existential with
    | none => exact ⟨.closeAngle, closing, rest, _, rfl, rfl, reads⟩
    | some existential =>
        obtain ⟨bar, tree⟩ := existential
        exact ⟨.bar, bar, _, _, rfl, rfl, further.reads_opened.mpr
          ⟨tree, _, rfl, .closeAngle, closing, rest, _, rfl, rfl, reads⟩⟩

/-- A lexeme comes that goes on after the name of what may bear generic symbols. -/
def GenericsBearer.GoesOn (bearer : GenericsBearer) (read definitions : List Definition)
    (lexemes : List Lexeme) : Prop :=
  ∃ lexeme rest next, lexemes = lexeme :: rest ∧
    bearer.next lexeme.token lexeme.span = some next ∧
    (⟨read, next, lexeme.span.stop⟩ : Reader).Reads rest definitions

/-- Generic symbols, if there are any, and then the ports. -/
theorem GenericsBearer.goesOn_iff (bearer : GenericsBearer) (stop : Nat) :
    bearer.GoesOn read definitions lexemes ↔
      ∃ generics rest, lexemes = optional GenericsTree.lexemes generics ++ rest ∧
        (⟨read, .beforePorts (bearer.bear (generics.map GenericsTree.generics)), stop⟩ :
          Reader).Reads rest definitions := by
  constructor
  · rintro ⟨⟨token, span⟩, rest, next, rfl, goes, reads⟩
    dsimp only [GenericsBearer.next] at goes
    split at goes
    · cases goes
      obtain ⟨universal, later, rfl, closes⟩ :=
        (isList_universal bearer span.start).reads_opened.mp reads
      obtain ⟨existential, closing, rest, rfl, ported⟩ := closes_universal.mp closes
      refine ⟨some (.listed span universal existential closing), rest, ?_, ?_⟩
      · simp [optional, GenericsTree.lexemes, Reserved.lexeme]
      · simpa [GenericsBearer.close, GenericsTree.generics] using
          (reads_stop (PortsBearer.inside _)).mp ported
    · cases goes
      exact ⟨some (.empty span), rest, rfl, (reads_stop (PortsBearer.inside _)).mp reads⟩
    · cases goes
      refine ⟨none, _, rfl, ?_⟩
      rw [reads_inside (PortsBearer.inside _)]
      exact ⟨_, rest, _, rfl, rfl, reads⟩
    · cases goes
  · rintro ⟨generics, rest, rfl, reads⟩
    cases generics with
    | none =>
        obtain ⟨⟨token, span⟩, later, next, rfl, goes, reads⟩ :=
          (reads_inside (PortsBearer.inside _)).mp reads
        cases token with
        | reserved word =>
            cases word
            case openBracket =>
              cases goes
              exact ⟨_, later, _, rfl, rfl, reads⟩
            all_goals cases goes
        | _ => cases goes
    | some generics =>
        cases generics with
        | empty place =>
            exact ⟨_, rest, _, rfl, rfl, (reads_stop (PortsBearer.inside _)).mp reads⟩
        | listed opening universal existential closing =>
            have closes : Closes (bearer.closeUniversal opening.start) read definitions
                (identsOf universal).reverse (optional existentialLexemes existential ++
                  Reserved.closeAngle.lexeme closing :: rest) := by
              refine closes_universal.mpr ⟨existential, closing, rest, rfl, ?_⟩
              simpa [GenericsBearer.close, GenericsTree.generics] using
                (reads_stop (PortsBearer.inside _)).mp reads
            refine ⟨_, _, _, rfl, rfl, ?_⟩
            exact (isList_universal bearer opening.start).reads_opened.mpr
              ⟨universal, _, by simp, closes⟩

theorem reads_beforePorts {bearer : PortsBearer} :
    (⟨read, .beforePorts bearer, stop⟩ : Reader).Reads lexemes definitions ↔
      ∃ opening rest, lexemes = Reserved.openBracket.lexeme opening :: rest ∧
        (⟨read, .inInputs bearer opening.start [] .opened, opening.stop⟩ : Reader).Reads rest
          definitions := by
  refine reads_word _ (fun opening => .inInputs bearer opening.start [] .opened)
    bearer.inside (fun _ => rfl) ?_
  intro token span other
  cases token with
  | reserved word => cases word <;> first | rfl | exact absurd rfl other
  | _ => rfl

/-- Ports, and what they then belong to. -/
theorem reads_ports (bearer : PortsBearer) (stop : Nat) :
    (⟨read, .beforePorts bearer, stop⟩ : Reader).Reads lexemes definitions ↔
      ∃ ports rest, lexemes = PortsTree.lexemes ports ++ rest ∧
        (⟨read, bearer.bear ports.ports, ports.closing.stop⟩ : Reader).Reads rest definitions := by
  rw [reads_beforePorts]
  constructor
  · rintro ⟨opening, _, rfl, reads⟩
    obtain ⟨inputs, _, rfl, word, bar, _, next, rfl, goes, reads⟩ :=
      (isList_inputs bearer opening.start).reads_opened.mp reads
    unfold PortsBearer.closeInputs at goes
    split at goes
    · cases goes
      obtain ⟨outputs, _, rfl, word, closing, rest, next, rfl, goes, reads⟩ :=
        (isList_outputs bearer opening.start _).reads_opened.mp reads
      unfold PortsBearer.closeOutputs at goes
      split at goes
      · cases goes
        refine ⟨⟨opening, inputs, bar, outputs, closing⟩, rest, by simp [PortsTree.lexemes], ?_⟩
        simpa [PortsTree.ports] using reads
      · cases goes
    · cases goes
  · rintro ⟨⟨opening, inputs, bar, outputs, closing⟩, rest, rfl, reads⟩
    have readsOutputs : (⟨read, .inOutputs bearer opening.start (identsOf inputs).reverse []
        .opened, bar.stop⟩ : Reader).Reads (optional IdentsTree.lexemes outputs ++
          Reserved.closeBracket.lexeme closing :: rest) definitions := by
      refine (isList_outputs bearer opening.start _).reads_opened.mpr
        ⟨outputs, _, rfl, .closeBracket, closing, rest, _, rfl, rfl, ?_⟩
      simpa [PortsTree.ports] using reads
    refine ⟨opening, _, ?_, (isList_inputs bearer opening.start).reads_opened.mpr
      ⟨inputs, _, rfl, .bar, bar, _, _, rfl, rfl, readsOutputs⟩⟩
    simp [PortsTree.lexemes]

end Bearers

/-! ## Uses -/

section Uses

variable {draft : Draft} {start : Nat}

theorem reads_afterSign {sign : Sign} :
    (⟨read, .afterSign draft start sign, stop⟩ : Reader).Reads lexemes definitions ↔
      ∃ symbol rest, lexemes = symbol.lexeme :: rest ∧
        (⟨read, .beforePorts (.use draft start (sign.box symbol)), symbol.span.stop⟩ :
          Reader).Reads rest definitions := by
  refine reads_ident (fun symbol => .beforePorts (.use draft start (sign.box symbol)))
    ⟨rfl, Stage.noConfusion⟩ (fun _ _ => rfl) ?_
  intro token span other
  cases token with
  | ident name => exact absurd rfl other
  | _ => rfl

/-- The count of an indexed box, in its braces. -/
theorem reads_beforeCount {tag : Ident} :
    (⟨read, .beforeCount draft start tag, stop⟩ : Reader).Reads lexemes definitions ↔
      ∃ count place closing rest,
        lexemes = ⟨.number count, place⟩ :: Reserved.closeBrace.lexeme closing :: rest ∧
        (⟨read, .beforePorts (.use draft start
          (.indexed tag count ⟨tag.span.start, closing.stop⟩)), closing.stop⟩ : Reader).Reads rest
            definitions := by
  have closing (count : UInt32) (stop : Nat) (lexemes : List Lexeme) :
      (⟨read, .afterCount draft start tag count, stop⟩ : Reader).Reads lexemes definitions ↔
        ∃ closing rest, lexemes = Reserved.closeBrace.lexeme closing :: rest ∧
          (⟨read, .beforePorts (.use draft start
            (.indexed tag count ⟨tag.span.start, closing.stop⟩)), closing.stop⟩ : Reader).Reads
              rest definitions := by
    refine reads_word _ (fun closing => .beforePorts (.use draft start
      (.indexed tag count ⟨tag.span.start, closing.stop⟩))) ⟨rfl, Stage.noConfusion⟩
      (fun _ => rfl) ?_
    intro token span other
    cases token with
    | reserved word => cases word <;> first | rfl | exact absurd rfl other
    | _ => rfl
  rw [reads_inside ⟨rfl, Stage.noConfusion⟩]
  constructor
  · rintro ⟨⟨token, place⟩, _, next, rfl, goes, reads⟩
    cases token with
    | number count =>
        cases goes
        obtain ⟨closing, rest, rfl, reads⟩ := (closing count _ _).mp reads
        exact ⟨count, place, closing, rest, rfl, reads⟩
    | _ => cases goes
  · rintro ⟨count, place, closes, rest, rfl, reads⟩
    exact ⟨_, _, _, rfl, rfl, (closing count _ _).mpr ⟨closes, rest, rfl, reads⟩⟩

/-- What follows a name that stands for a box. -/
theorem reads_afterBoxName {name : Ident} :
    (⟨read, .afterBoxName draft start name, stop⟩ : Reader).Reads lexemes definitions ↔
      (∃ opening rest, lexemes = Reserved.openBrace.lexeme opening :: rest ∧
        (⟨read, .beforeCount draft start name, opening.stop⟩ : Reader).Reads rest definitions) ∨
      (GenericsBearer.use draft start name).GoesOn read definitions lexemes := by
  have elsewhere (token : Token) (span : Span) (notBrace : token ≠ .reserved .openBrace) :
      (Stage.afterBoxName draft start name).next token span =
        (GenericsBearer.use draft start name).next token span := by
    cases token with
    | reserved word => cases word <;> first | rfl | exact absurd rfl notBrace
    | _ => rfl
  rw [reads_inside ⟨rfl, Stage.noConfusion⟩]
  constructor
  · rintro ⟨⟨token, span⟩, rest, next, rfl, goes, reads⟩
    by_cases isBrace : token = .reserved .openBrace
    · subst isBrace
      cases goes
      exact .inl ⟨span, rest, rfl, reads⟩
    · exact .inr ⟨_, rest, next, rfl, (elsewhere token span isBrace).symm.trans goes, reads⟩
  · rintro (⟨opening, rest, rfl, reads⟩ | ⟨⟨token, span⟩, rest, next, rfl, goes, reads⟩)
    · exact ⟨_, rest, _, rfl, rfl, reads⟩
    · have notBrace : token ≠ .reserved .openBrace := by
        rintro rfl
        cases goes
      exact ⟨_, rest, next, rfl, (elsewhere token span notBrace).trans goes, reads⟩

theorem next_beforeBox_sign {sign : Sign} {span : Span} :
    (Stage.beforeBox draft start).next (.reserved sign.word) span =
      some (.afterSign draft start sign) := by
  cases sign <;> rfl

/-- A box, in any of its forms. -/
theorem reads_box :
    (⟨read, .beforeBox draft start, stop⟩ : Reader).Reads lexemes definitions ↔
      ∃ box rest, lexemes = BoxTree.lexemes box ++ rest ∧
        (⟨read, .beforePorts (.use draft start box.box), stop⟩ : Reader).Reads rest
          definitions := by
  rw [reads_inside ⟨rfl, Stage.noConfusion⟩]
  constructor
  · rintro ⟨⟨token, span⟩, rest, next, rfl, goes, reads⟩
    have signed (sign : Sign) (reads : (⟨read, .afterSign draft start sign, span.stop⟩ :
        Reader).Reads rest definitions) : ∃ box later,
          (⟨.reserved sign.word, span⟩ : Lexeme) :: rest = BoxTree.lexemes box ++ later ∧
          (⟨read, .beforePorts (.use draft start box.box), stop⟩ : Reader).Reads later
            definitions := by
      obtain ⟨symbol, later, rfl, reads⟩ := reads_afterSign.mp reads
      exact ⟨.signed sign span symbol, later, rfl, (reads_stop (PortsBearer.inside _)).mp reads⟩
    cases token with
    | reserved word =>
        cases word
        case plus =>
          cases goes
          exact signed .plus reads
        case minus =>
          cases goes
          exact signed .minus reads
        case star =>
          cases goes
          exact signed .star reads
        case join =>
          cases goes
          exact ⟨.join span, rest, rfl, (reads_stop (PortsBearer.inside _)).mp reads⟩
        case split =>
          cases goes
          exact ⟨.split span, rest, rfl, (reads_stop (PortsBearer.inside _)).mp reads⟩
        all_goals cases goes
    | number count => cases goes
    | ident name =>
        cases goes
        rcases reads_afterBoxName.mp reads with ⟨opening, _, rfl, reads⟩ | goesOn
        · obtain ⟨count, place, closing, later, rfl, reads⟩ := reads_beforeCount.mp reads
          exact ⟨.indexed ⟨name, span⟩ opening count place closing, later, rfl,
            (reads_stop (PortsBearer.inside _)).mp reads⟩
        · obtain ⟨generics, later, rfl, bears⟩ := (GenericsBearer.goesOn_iff _ stop).mp goesOn
          exact ⟨.definition ⟨name, span⟩ generics, later, rfl, bears⟩
  · rintro ⟨box, rest, rfl, reads⟩
    have later (stop : Nat) : (⟨read, .beforePorts (.use draft start box.box), stop⟩ :
        Reader).Reads rest definitions :=
      (reads_stop (PortsBearer.inside _)).mp reads
    cases box with
    | signed sign place symbol =>
        exact ⟨_, _, _, rfl, next_beforeBox_sign,
          reads_afterSign.mpr ⟨symbol, rest, rfl, later _⟩⟩
    | indexed tag opening count place closing =>
        exact ⟨_, _, _, rfl, rfl, reads_afterBoxName.mpr (.inl ⟨opening, _, rfl,
          reads_beforeCount.mpr ⟨count, place, closing, rest, rfl, later _⟩⟩)⟩
    | join place => exact ⟨_, rest, _, rfl, rfl, later _⟩
    | split place => exact ⟨_, rest, _, rfl, rfl, later _⟩
    | definition name generics =>
        have goesOn := (GenericsBearer.goesOn_iff (.use draft start name) stop).mpr
          ⟨generics, rest, rfl, reads⟩
        exact ⟨_, _, _, rfl, rfl, reads_afterBoxName.mpr (.inr goesOn)⟩

theorem reads_afterPorts {box : BoxRef} {ports : Ports} :
    (⟨read, .afterPorts draft start box ports, stop⟩ : Reader).Reads lexemes definitions ↔
      ∃ naming name rest, lexemes = Reserved.as.lexeme naming :: name.lexeme :: rest ∧
        (⟨read, .inBody (draft.addUse start box ports name), name.span.stop⟩ : Reader).Reads rest
          definitions := by
  have named (stop : Nat) (lexemes : List Lexeme) :
      (⟨read, .beforeUseName draft start box ports, stop⟩ : Reader).Reads lexemes definitions ↔
        ∃ name rest, lexemes = name.lexeme :: rest ∧
          (⟨read, .inBody (draft.addUse start box ports name), name.span.stop⟩ : Reader).Reads
            rest definitions := by
    refine reads_ident (fun name => .inBody (draft.addUse start box ports name))
      ⟨rfl, Stage.noConfusion⟩ (fun _ _ => rfl) ?_
    intro token span other
    cases token with
    | ident name => exact absurd rfl other
    | _ => rfl
  have naming (token : Token) (span : Span) (other : token ≠ .reserved .as) :
      (Stage.afterPorts draft start box ports).next token span = none := by
    cases token with
    | reserved word => cases word <;> first | rfl | exact absurd rfl other
    | _ => rfl
  rw [reads_word .as (fun _ => .beforeUseName draft start box ports)
    ⟨rfl, Stage.noConfusion⟩ (fun _ => rfl) naming]
  constructor
  · rintro ⟨naming, _, rfl, reads⟩
    obtain ⟨name, rest, rfl, reads⟩ := (named _ _).mp reads
    exact ⟨naming, name, rest, rfl, reads⟩
  · rintro ⟨naming, name, rest, rfl, reads⟩
    exact ⟨naming, _, rfl, (named _ _).mpr ⟨name, rest, rfl, reads⟩⟩

/-- A use statement behind its keyword. -/
theorem reads_use :
    (⟨read, .beforeBox draft start, stop⟩ : Reader).Reads lexemes definitions ↔
      ∃ box ports naming name rest, lexemes = BoxTree.lexemes box ++ (PortsTree.lexemes ports ++
        Reserved.as.lexeme naming :: name.lexeme :: rest) ∧
        (⟨read, .inBody (draft.addUse start box.box ports.ports name), name.span.stop⟩ :
          Reader).Reads rest definitions := by
  rw [reads_box]
  constructor
  · rintro ⟨box, _, rfl, readsPorts⟩
    obtain ⟨ports, _, rfl, named⟩ := (reads_ports _ _).mp readsPorts
    obtain ⟨naming, name, rest, rfl, reads⟩ := reads_afterPorts.mp named
    exact ⟨box, ports, naming, name, rest, rfl, reads⟩
  · rintro ⟨box, ports, naming, name, rest, rfl, reads⟩
    refine ⟨box, _, rfl, (reads_ports _ _).mpr ⟨ports, _, rfl, ?_⟩⟩
    exact reads_afterPorts.mpr ⟨naming, name, rest, rfl, reads⟩

end Uses

end Readers

end FlowDiagram

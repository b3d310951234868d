import FlowDiagram.Program.Diagnostics
import FlowDiagram.Proofs.Program.Stages

/-!
# Reading follows the grammar

Links, bodies and definitions are read as the grammar has them, and so are programs: a source is
accepted exactly when its lexemes are those of a tree, and read as the program the tree stands for.
-/

namespace FlowDiagram

section Readers

variable {read definitions : List Definition} {stop : Nat} {lexemes : List Lexeme}

/-! ## Links -/

section Links

variable {draft : Draft}

/--
A stage at which a definition may end, and which differs from another stage only in the lexemes of
one kind that it takes.
-/
theorem reads_either {stage : Stage} (base : Stage) (kind : Expectation) {final : Draft}
    (ends : stage.draft? = some final) (endsBase : base.draft? = some final)
    (elsewhere : ∀ token span, token.kind ≠ kind → stage.next token span = base.next token span)
    (stuck : ∀ token span, token.kind = kind → base.next token span = none)
    (goesOn : kind ≠ .reserved .define) :
    (⟨read, stage, stop⟩ : Reader).Reads lexemes definitions ↔
      (∃ lexeme rest next, lexemes = lexeme :: rest ∧ lexeme.token.kind = kind ∧
        stage.next lexeme.token lexeme.span = some next ∧
        (⟨read, next, lexeme.span.stop⟩ : Reader).Reads rest definitions) ∨
      (⟨read, base, stop⟩ : Reader).Reads lexemes definitions := by
  have finish {stage : Stage} (ends : stage.draft? = some final) :
      (⟨read, stage, stop⟩ : Reader).finish = .ok (final.close stop :: read).reverse := by
    unfold Reader.finish
    rw [ends]
    split
    · simp_all [Stage.draft?]
    · simp_all
    · simp_all
  cases lexemes with
  | nil => simp [Reader.reads_nil, finish ends, finish endsBase]
  | cons lexeme rest =>
      by_cases isKind : lexeme.token.kind = kind
      · have noDefine : lexeme.token ≠ .reserved .define := by
          rintro isDefine
          rw [isDefine] at isKind
          exact goesOn isKind.symm
        have step {stage : Stage} : (⟨read, stage, stop⟩ : Reader).step lexeme =
            (stage.next lexeme.token lexeme.span).map
              fun next => ⟨read, next, lexeme.span.stop⟩ := by
          unfold Reader.step
          dsimp only
          split
          · simp_all
          · split
            · simp_all
            · simp_all
        rw [Reader.reads_cons, Reader.reads_cons, step, step, stuck _ _ isKind]
        simp only [Option.map_none, reduceCtorEq, false_and, exists_false, or_false]
        constructor
        · rintro ⟨reader, moves, reads⟩
          obtain ⟨next, goes, rfl⟩ := Option.map_eq_some_iff.mp moves
          exact ⟨lexeme, rest, next, rfl, isKind, goes, reads⟩
        · rintro ⟨_, _, next, same, -, goes, reads⟩
          cases same
          exact ⟨_, Option.map_eq_some_iff.mpr ⟨next, goes, rfl⟩, reads⟩
      · have step : (⟨read, stage, stop⟩ : Reader).step lexeme =
            (⟨read, base, stop⟩ : Reader).step lexeme := by
          unfold Reader.step
          dsimp only
          rw [elsewhere _ _ isKind, ends, endsBase]
        rw [Reader.reads_cons, Reader.reads_cons, step]
        constructor
        · exact .inr
        · rintro (⟨_, _, next, same, kind, -⟩ | reads)
          · cases same
            exact absurd kind isKind
          · exact reads

/-- The rest of the source of a link, and its arrow. -/
theorem reads_inSource {first : Ident} :
    (⟨read, .inSource draft first, stop⟩ : Reader).Reads lexemes definitions ↔
      ∃ second arrow rest,
        lexemes = optional secondLexemes second ++ Reserved.arrow.lexeme arrow :: rest ∧
        (⟨read, .beforeTarget draft (PortRefTree.mk first second).ref, arrow.stop⟩ :
          Reader).Reads rest definitions := by
  have afterDot (stop : Nat) (lexemes : List Lexeme) :
      (⟨read, .beforeSourcePort draft first, stop⟩ : Reader).Reads lexemes definitions ↔
        ∃ port rest, lexemes = port.lexeme :: rest ∧
          (⟨read, .afterSource draft (.ofInstance first port), port.span.stop⟩ : Reader).Reads
            rest definitions := by
    refine reads_ident (fun port => .afterSource draft (.ofInstance first port))
      ⟨rfl, Stage.noConfusion⟩ (fun _ _ => rfl) ?_
    intro token span other
    cases token with
    | ident name => exact absurd rfl other
    | _ => rfl
  have arrow (source : PortRef) (stop : Nat) (lexemes : List Lexeme) :
      (⟨read, .afterSource draft source, stop⟩ : Reader).Reads lexemes definitions ↔
        ∃ arrow rest, lexemes = Reserved.arrow.lexeme arrow :: rest ∧
          (⟨read, .beforeTarget draft source, arrow.stop⟩ : Reader).Reads rest definitions := by
    refine reads_word _ (fun _ => .beforeTarget draft source) ⟨rfl, Stage.noConfusion⟩
      (fun _ => rfl) ?_
    intro token span other
    cases token with
    | reserved word => cases word <;> first | rfl | exact absurd rfl other
    | _ => rfl
  rw [reads_inside ⟨rfl, Stage.noConfusion⟩]
  constructor
  · rintro ⟨⟨token, span⟩, _, next, rfl, goes, reads⟩
    cases token with
    | reserved word =>
        cases word
        case dot =>
          cases goes
          obtain ⟨port, _, rfl, readsArrow⟩ := (afterDot _ _).mp reads
          obtain ⟨arrow, rest, rfl, readsTarget⟩ := (arrow _ _ _).mp readsArrow
          exact ⟨some (span, port), arrow, rest, rfl, readsTarget⟩
        case arrow =>
          cases goes
          exact ⟨none, span, _, rfl, reads⟩
        all_goals cases goes
    | _ => cases goes
  · rintro ⟨second, place, rest, rfl, reads⟩
    cases second with
    | none => exact ⟨_, rest, _, rfl, rfl, reads⟩
    | some second =>
        obtain ⟨dot, port⟩ := second
        have readsArrow := (arrow (.ofInstance first port) port.span.stop _).mpr
          ⟨place, rest, rfl, reads⟩
        exact ⟨_, _, _, rfl, rfl, (afterDot dot.stop _).mpr ⟨port, _, rfl, readsArrow⟩⟩

/-- The rest of the target of a link. -/
theorem reads_inTarget {source : PortRef} {first : Ident} :
    (⟨read, .inTarget draft source first, stop⟩ : Reader).Reads lexemes definitions ↔
      ∃ second rest, lexemes = optional secondLexemes second ++ rest ∧
        (⟨read, .afterLink (draft.addLink source (PortRefTree.mk first second).ref),
          stopAfter stop (optional secondLexemes second)⟩ : Reader).Reads rest definitions := by
  have afterDot (stop : Nat) (lexemes : List Lexeme) :
      (⟨read, .beforeTargetPort draft source first, stop⟩ : Reader).Reads lexemes definitions ↔
        ∃ port rest, lexemes = port.lexeme :: rest ∧
          (⟨read, .afterLink (draft.addLink source (.ofInstance first port)), port.span.stop⟩ :
            Reader).Reads rest definitions := by
    refine reads_ident
      (fun port => .afterLink (draft.addLink source (.ofInstance first port)))
      ⟨rfl, Stage.noConfusion⟩ (fun _ _ => rfl) ?_
    intro token span other
    cases token with
    | ident name => exact absurd rfl other
    | _ => rfl
  rw [reads_either (.afterLink (draft.addLink source (.boundary first))) (.reserved .dot) rfl rfl]
  · constructor
    · rintro (⟨⟨token, span⟩, _, next, rfl, isDot, goes, reads⟩ | reads)
      · rw [Token.kind_eq_reserved] at isDot
        cases isDot
        cases goes
        obtain ⟨port, rest, rfl, readsPort⟩ := (afterDot _ _).mp reads
        exact ⟨some (span, port), rest, rfl, readsPort⟩
      · exact ⟨none, lexemes, rfl, reads⟩
    · rintro ⟨second, rest, rfl, reads⟩
      cases second with
      | none => exact .inr reads
      | some second =>
          obtain ⟨dot, port⟩ := second
          have readsPort := (afterDot dot.stop _).mpr ⟨port, rest, rfl, reads⟩
          exact .inl ⟨_, _, _, rfl, rfl, rfl, readsPort⟩
  · intro token span notDot
    cases token with
    | reserved word => cases word <;> first | rfl | exact absurd rfl notDot
    | _ => rfl
  · intro token span isDot
    rw [Token.kind_eq_reserved] at isDot
    rw [isDot]
    rfl
  · simp

/-- The comma that may follow a link. -/
theorem reads_afterLink :
    (⟨read, .afterLink draft, stop⟩ : Reader).Reads lexemes definitions ↔
      ∃ comma rest, lexemes = optional commaLexemes comma ++ rest ∧
        (⟨read, .inLinks draft, stopAfter stop (optional commaLexemes comma)⟩ : Reader).Reads rest
          definitions := by
  rw [reads_either (.inLinks draft) (.reserved .comma) rfl rfl]
  · constructor
    · rintro (⟨⟨token, span⟩, rest, next, rfl, isComma, goes, reads⟩ | reads)
      · rw [Token.kind_eq_reserved] at isComma
        cases isComma
        cases goes
        exact ⟨some span, rest, rfl, reads⟩
      · exact ⟨none, lexemes, rfl, reads⟩
    · rintro ⟨comma, rest, rfl, reads⟩
      cases comma with
      | none => exact .inr reads
      | some place => exact .inl ⟨_, rest, _, rfl, rfl, rfl, reads⟩
  · intro token span notComma
    cases token with
    | reserved word => cases word <;> first | rfl | exact absurd rfl notComma
    | _ => rfl
  · intro token span isComma
    rw [Token.kind_eq_reserved] at isComma
    rw [isComma]
    rfl
  · simp

theorem stopAfter_append (stop : Nat) (first second : List Lexeme) :
    stopAfter stop (first ++ second) = stopAfter (stopAfter stop first) second :=
  List.foldl_append

/-- Where a block of links stands: its draft, and the byte where the last lexeme stopped. -/
def closedLinkRead (place : Draft × Nat) (closed : LinkTree × Option Span) : Draft × Nat :=
  (place.1.addLink closed.1.source.ref closed.1.target.ref,
    stopAfter place.2 (closedLinkLexemes closed))

/-- One link and its comma. -/
theorem reads_closedLink (first : Ident) (stop : Nat) :
    (⟨read, .inSource draft first, stop⟩ : Reader).Reads lexemes definitions ↔
      ∃ second arrow target comma rest, lexemes = optional secondLexemes second ++
        Reserved.arrow.lexeme arrow :: (PortRefTree.lexemes target ++
          (optional commaLexemes comma ++ rest)) ∧
        (⟨read, .inLinks (draft.addLink (PortRefTree.mk first second).ref target.ref),
          stopAfter stop (target.lexemes ++ optional commaLexemes comma)⟩ : Reader).Reads rest
            definitions := by
  have beforeTarget (source : PortRef) (stop : Nat) (lexemes : List Lexeme) :
      (⟨read, .beforeTarget draft source, stop⟩ : Reader).Reads lexemes definitions ↔
        ∃ first rest, lexemes = first.lexeme :: rest ∧
          (⟨read, .inTarget draft source first, first.span.stop⟩ : Reader).Reads rest
            definitions := by
    refine reads_ident (fun first => .inTarget draft source first)
      ⟨rfl, Stage.noConfusion⟩ (fun _ _ => rfl) ?_
    intro token span other
    cases token with
    | ident name => exact absurd rfl other
    | _ => rfl
  rw [reads_inSource]
  constructor
  · rintro ⟨second, arrow, _, rfl, readsTarget⟩
    obtain ⟨port, _, rfl, readsPort⟩ := (beforeTarget _ _ _).mp readsTarget
    obtain ⟨behind, _, rfl, readsComma⟩ := reads_inTarget.mp readsPort
    obtain ⟨comma, rest, rfl, reads⟩ := reads_afterLink.mp readsComma
    refine ⟨second, arrow, ⟨port, behind⟩, comma, rest, rfl, ?_⟩
    rw [stopAfter_append]
    exact reads
  · rintro ⟨second, arrow, ⟨port, behind⟩, comma, rest, rfl, reads⟩
    refine ⟨second, arrow, _, rfl, (beforeTarget _ _ _).mpr ⟨port, _, rfl, ?_⟩⟩
    refine reads_inTarget.mpr ⟨behind, _, rfl, reads_afterLink.mpr ⟨comma, rest, rfl, ?_⟩⟩
    rw [stopAfter_append] at reads
    exact reads

theorem closedLinkRead_stop (place : Draft × Nat) (closed : LinkTree × Option Span) (stop : Nat) :
    (closedLinkRead place closed).2 =
      stopAfter stop (closed.1.target.lexemes ++ optional commaLexemes closed.2) := by
  simp [closedLinkRead, closedLinkLexemes, LinkTree.lexemes, PortRefTree.lexemes, stopAfter]

/-- A block of links goes on with a link, or is over. -/
theorem reads_inLinks :
    (⟨read, .inLinks draft, stop⟩ : Reader).Reads lexemes definitions ↔
      (∃ closed rest, lexemes = closedLinkLexemes closed ++ rest ∧
        (⟨read, .inLinks (closedLinkRead (draft, stop) closed).1,
          (closedLinkRead (draft, stop) closed).2⟩ : Reader).Reads rest definitions) ∨
      (⟨read, .inBody draft, stop⟩ : Reader).Reads lexemes definitions := by
  rw [reads_either (.inBody draft) .ident rfl rfl]
  · refine or_congr_left ?_
    constructor
    · rintro ⟨⟨token, span⟩, _, next, rfl, isIdent, goes, readsSource⟩
      obtain ⟨name, named⟩ := Token.kind_eq_ident.mp isIdent
      cases named
      cases goes
      obtain ⟨second, arrow, target, comma, rest, rfl, reads⟩ :=
        (reads_closedLink _ _).mp readsSource
      refine ⟨(⟨⟨⟨name, span⟩, second⟩, arrow, target⟩, comma), rest, ?_, ?_⟩
      · simp [closedLinkLexemes, LinkTree.lexemes, PortRefTree.lexemes, Ident.lexeme]
      · rw [closedLinkRead_stop (draft, stop) _ span.stop]
        exact reads
    · rintro ⟨⟨⟨⟨first, second⟩, arrow, target⟩, comma⟩, rest, rfl, reads⟩
      rw [closedLinkRead_stop (draft, stop) _ first.span.stop] at reads
      have readsSource := (reads_closedLink first first.span.stop).mpr
        ⟨second, arrow, target, comma, rest, rfl, reads⟩
      refine ⟨first.lexeme, _, _, ?_, rfl, rfl, readsSource⟩
      simp [closedLinkLexemes, LinkTree.lexemes, PortRefTree.lexemes]
  · intro token span notIdent
    cases token with
    | ident name => exact absurd rfl notIdent
    | _ => rfl
  · intro token span isIdent
    obtain ⟨name, rfl⟩ := Token.kind_eq_ident.mp isIdent
    rfl
  · simp

theorem foldl_closedLinkRead (closed : List (LinkTree × Option Span)) (place : Draft × Nat) :
    closed.foldl closedLinkRead place =
      ({ place.1 with links := (closed.map fun (tree, _) => tree.link).reverse ++ place.1.links },
        stopAfter place.2 (closed.flatMap closedLinkLexemes)) := by
  induction closed generalizing place with
  | nil => rfl
  | cons first rest ih =>
      rw [List.foldl_cons, ih, List.flatMap_cons, stopAfter_append]
      simp [closedLinkRead, Draft.addLink, LinkTree.link]

end Links

/-! ## Bodies -/

section Bodies

variable {draft : Draft}

/-- Between definitions: either another one starts, or the source is over. -/
def Between (read definitions : List Definition) (lexemes : List Lexeme) : Prop :=
  (∃ keyword rest, lexemes = Reserved.define.lexeme keyword :: rest ∧
    (⟨read, .beforeName keyword.start, keyword.stop⟩ : Reader).Reads rest definitions) ∨
  (lexemes = [] ∧ read.reverse = definitions)

/-- What an item adds to a draft, in the order in which a draft keeps it. -/
def Draft.add (draft : Draft) (item : ItemTree) : Draft :=
  { draft with
    uses := item.uses.reverse ++ draft.uses
    links := item.linked.reverse ++ draft.links }

def itemRead (place : Draft × Nat) (item : ItemTree) : Draft × Nat :=
  (place.1.add item, stopAfter place.2 item.lexemes)

theorem foldl_itemRead (body : List ItemTree) (place : Draft × Nat) :
    body.foldl itemRead place =
      ({ place.1 with
          uses := (body.flatMap ItemTree.uses).reverse ++ place.1.uses
          links := (body.flatMap ItemTree.linked).reverse ++ place.1.links },
        stopAfter place.2 (bodyLexemes body)) := by
  induction body generalizing place with
  | nil => rfl
  | cons item rest ih =>
      rw [List.foldl_cons, ih]
      simp [itemRead, Draft.add, bodyLexemes, stopAfter_append]

/-- The lexemes that can follow an item of a body. -/
theorem reads_inBody :
    (⟨read, .inBody draft, stop⟩ : Reader).Reads lexemes definitions ↔
      ((∃ keyword rest, lexemes = Reserved.use.lexeme keyword :: rest ∧
        (⟨read, .beforeBox draft keyword.start, keyword.stop⟩ : Reader).Reads rest definitions) ∨
      (∃ keyword rest, lexemes = Reserved.link.lexeme keyword :: rest ∧
        (⟨read, .inLinks draft, keyword.stop⟩ : Reader).Reads rest definitions)) ∨
      Between (draft.close stop :: read) definitions lexemes := by
  constructor
  · intro readsAll
    cases lexemes with
    | nil => exact .inr (.inr ⟨rfl, Except.ok.inj (Reader.reads_nil.mp readsAll)⟩)
    | cons lexeme rest =>
        obtain ⟨token, span⟩ := lexeme
        obtain ⟨next, moves, reads⟩ := Reader.reads_cons.mp readsAll
        cases token with
        | reserved word =>
            cases word
            case use =>
              cases moves
              exact .inl (.inl ⟨span, rest, rfl, reads⟩)
            case link =>
              cases moves
              exact .inl (.inr ⟨span, rest, rfl, reads⟩)
            case define =>
              cases moves
              exact .inr (.inl ⟨span, rest, rfl, reads⟩)
            all_goals cases moves
        | _ => cases moves
  · rintro ((⟨keyword, rest, rfl, reads⟩ | ⟨keyword, rest, rfl, reads⟩) |
      ⟨keyword, rest, rfl, reads⟩ | ⟨rfl, rfl⟩)
    · exact Reader.reads_cons.mpr ⟨_, rfl, reads⟩
    · exact Reader.reads_cons.mpr ⟨_, rfl, reads⟩
    · exact Reader.reads_cons.mpr ⟨_, rfl, reads⟩
    · exact Reader.reads_nil.mpr rfl

/-- A body goes on with an item, or is over. -/
theorem reads_item :
    (⟨read, .inBody draft, stop⟩ : Reader).Reads lexemes definitions ↔
      (∃ item rest, lexemes = ItemTree.lexemes item ++ rest ∧
        (⟨read, .inBody (itemRead (draft, stop) item).1, (itemRead (draft, stop) item).2⟩ :
          Reader).Reads rest definitions) ∨
      Between (draft.close stop :: read) definitions lexemes := by
  have links (keyword : Span) (rest : List Lexeme) := repeated_iff closedLinkLexemes closedLinkRead
    (fun place lexemes =>
      (⟨read, .inLinks place.1, place.2⟩ : Reader).Reads lexemes definitions)
    (fun place lexemes =>
      (⟨read, .inBody place.1, place.2⟩ : Reader).Reads lexemes definitions)
    (by simp [closedLinkLexemes, LinkTree.lexemes, PortRefTree.lexemes])
    (fun place lexemes => reads_inLinks) (draft, keyword.stop) rest
  rw [reads_inBody]
  refine or_congr_left ?_
  constructor
  · rintro (⟨keyword, _, rfl, readsUse⟩ | ⟨keyword, _, rfl, readsLinks⟩)
    · obtain ⟨box, ports, naming, name, rest, rfl, reads⟩ := reads_use.mp readsUse
      refine ⟨.use ⟨keyword, box, ports, naming, name⟩, rest, ?_, ?_⟩
      · simp [ItemTree.lexemes, UseTree.lexemes]
      · simpa [itemRead, Draft.add, ItemTree.uses, ItemTree.linked, UseTree.use, Draft.addUse,
          ItemTree.lexemes, UseTree.lexemes, stopAfter] using reads
    · obtain ⟨closed, rest, rfl, reads⟩ := (links keyword _).mp readsLinks
      refine ⟨.links keyword closed, rest, rfl, ?_⟩
      rw [foldl_closedLinkRead] at reads
      exact reads
  · rintro ⟨item, rest, rfl, reads⟩
    cases item with
    | use tree =>
        obtain ⟨keyword, box, ports, naming, name⟩ := tree
        refine .inl ⟨keyword, _, by simp [ItemTree.lexemes, UseTree.lexemes]; rfl, ?_⟩
        refine reads_use.mpr ⟨box, ports, naming, name, rest, rfl, ?_⟩
        simpa [itemRead, Draft.add, ItemTree.uses, ItemTree.linked, UseTree.use, Draft.addUse,
          ItemTree.lexemes, UseTree.lexemes, stopAfter] using reads
    | links keyword closed =>
        refine .inr ⟨keyword, _, rfl, (links keyword _).mpr ⟨closed, rest, rfl, ?_⟩⟩
        rw [foldl_closedLinkRead]
        exact reads

end Bodies

/-! ## Definitions and programs -/

/-- Where a definition may start, either one does or nothing follows. -/
theorem between_iff :
    Between read definitions lexemes ↔
      (∃ tree rest, lexemes = DefinitionTree.lexemes tree ++ rest ∧
        Between (tree.definition :: read) definitions rest) ∨
      (lexemes = [] ∧ read.reverse = definitions) := by
  have beforeName (start stop : Nat) (lexemes : List Lexeme) :
      (⟨read, .beforeName start, stop⟩ : Reader).Reads lexemes definitions ↔
        ∃ name rest, lexemes = name.lexeme :: rest ∧
          (⟨read, .afterName start name, name.span.stop⟩ : Reader).Reads rest definitions := by
    refine reads_ident (fun name => .afterName start name) ⟨rfl, Stage.noConfusion⟩
      (fun _ _ => rfl) ?_
    intro token span other
    cases token with
    | ident name => exact absurd rfl other
    | _ => rfl
  have afterName (start stop : Nat) (name : Ident) (lexemes : List Lexeme) :
      (⟨read, .afterName start name, stop⟩ : Reader).Reads lexemes definitions ↔
        ∃ equals rest, lexemes = Reserved.equals.lexeme equals :: rest ∧
          (⟨read, .afterEquals start name, equals.stop⟩ : Reader).Reads rest definitions := by
    refine reads_word _ (fun _ => .afterEquals start name) ⟨rfl, Stage.noConfusion⟩
      (fun _ => rfl) ?_
    intro token span other
    cases token with
    | reserved word => cases word <;> first | rfl | exact absurd rfl other
    | _ => rfl
  have afterEquals (start stop : Nat) (name : Ident) (lexemes : List Lexeme) :
      (⟨read, .afterEquals start name, stop⟩ : Reader).Reads lexemes definitions ↔
        (GenericsBearer.definition start name).GoesOn read definitions lexemes :=
    reads_inside ⟨rfl, Stage.noConfusion⟩
  have items (place : Draft × Nat) (rest : List Lexeme) := repeated_iff
    ItemTree.lexemes itemRead
    (fun place lexemes =>
      (⟨read, .inBody place.1, place.2⟩ : Reader).Reads lexemes definitions)
    (fun place lexemes => Between (place.1.close place.2 :: read) definitions lexemes)
    (by intro tree; cases tree <;> simp [ItemTree.lexemes, UseTree.lexemes])
    (fun place lexemes => reads_item) place rest
  refine or_congr_left ?_
  constructor
  · rintro ⟨keyword, _, rfl, readsName⟩
    obtain ⟨name, _, rfl, readsEquals⟩ := (beforeName _ _ _).mp readsName
    obtain ⟨equals, _, rfl, readsGenerics⟩ := (afterName _ _ _ _).mp readsEquals
    obtain ⟨generics, _, rfl, readsPorts⟩ :=
      (GenericsBearer.goesOn_iff _ 0).mp ((afterEquals _ _ _ _).mp readsGenerics)
    obtain ⟨ports, _, rfl, readsBody⟩ := (reads_ports _ _).mp readsPorts
    obtain ⟨body, rest, rfl, between⟩ := (items (_, _) _).mp readsBody
    refine ⟨⟨keyword, name, equals, generics, ports, body⟩, rest, ?_, ?_⟩
    · simp [DefinitionTree.lexemes, bodyLexemes]
    · rw [foldl_itemRead] at between
      simpa [Draft.close, DefinitionTree.definition, PortsTree.ports] using between
  · rintro ⟨⟨keyword, name, equals, generics, ports, body⟩, rest, rfl, between⟩
    have readsBody := (items (⟨keyword.start, name, (generics.map GenericsTree.generics).getD
      (.empty ⟨ports.ports.span.start, ports.ports.span.start⟩), ports.ports, [], []⟩,
      ports.closing.stop) _).mpr ⟨body, rest, rfl, by
        rw [foldl_itemRead]
        simpa [Draft.close, DefinitionTree.definition, PortsTree.ports] using between⟩
    have readsPorts := (reads_ports (.definition keyword.start name
      (generics.map GenericsTree.generics)) 0).mpr ⟨ports, _, rfl, readsBody⟩
    have goesOn := (GenericsBearer.goesOn_iff (.definition keyword.start name) 0).mpr
      ⟨generics, _, rfl, readsPorts⟩
    have readsEquals := (afterName keyword.start name.span.stop name _).mpr
      ⟨equals, _, rfl, (afterEquals _ _ _ _).mpr goesOn⟩
    have readsName := (beforeName keyword.start keyword.stop _).mpr ⟨name, _, rfl, readsEquals⟩
    exact ⟨keyword, _, by simp [DefinitionTree.lexemes, bodyLexemes], readsName⟩

theorem foldl_definitions (trees : List DefinitionTree) (read : List Definition) :
    trees.foldl (fun read tree => tree.definition :: read) read =
      (trees.map DefinitionTree.definition).reverse ++ read := by
  induction trees generalizing read with
  | nil => rfl
  | cons tree rest ih => simp [ih]

/-- From the outset a reader reads what the trees of programs spell. -/
theorem reads_outset :
    Reader.outset.Reads lexemes definitions ↔
      ∃ tree : ProgramTree, lexemes = tree.lexemes ∧
        definitions = tree.definitions.map DefinitionTree.definition := by
  have opens : Reader.outset.Reads lexemes definitions ↔ Between [] definitions lexemes := by
    constructor
    · intro readsAll
      cases lexemes with
      | nil => exact .inr ⟨rfl, Except.ok.inj (Reader.reads_nil.mp readsAll)⟩
      | cons lexeme rest =>
          obtain ⟨token, span⟩ := lexeme
          obtain ⟨next, moves, reads⟩ := Reader.reads_cons.mp readsAll
          cases token with
          | reserved word =>
              cases word
              case define =>
                cases moves
                exact .inl ⟨span, rest, rfl, reads⟩
              all_goals cases moves
          | _ => cases moves
    · rintro (⟨keyword, rest, rfl, reads⟩ | ⟨rfl, rfl⟩)
      · exact Reader.reads_cons.mpr ⟨_, rfl, reads⟩
      · exact Reader.reads_nil.mpr rfl
  rw [opens, repeated_iff DefinitionTree.lexemes
    (fun read tree => tree.definition :: read)
    (fun read lexemes => Between read definitions lexemes)
    (fun read lexemes => lexemes = [] ∧ read.reverse = definitions)
    (by simp [DefinitionTree.lexemes]) (fun read lexemes => between_iff)]
  constructor
  · rintro ⟨trees, rest, rfl, rfl, reversed⟩
    refine ⟨⟨trees⟩, by simp [ProgramTree.lexemes], ?_⟩
    rw [foldl_definitions] at reversed
    simpa using reversed.symm
  · rintro ⟨⟨trees⟩, rfl, rfl⟩
    exact ⟨trees, [], by simp [ProgramTree.lexemes], rfl, by rw [foldl_definitions]; simp⟩

end Readers

theorem Program.ofLexemes_eq_ok_iff {length : Nat} {lexemes : List Lexeme} {program : Program} :
    Program.ofLexemes length lexemes = .ok program ↔
      ∃ definitions, Reader.outset.Reads lexemes definitions ∧
        ⟨definitions, Program.spanOf length definitions⟩ = program := by
  unfold Program.ofLexemes Reader.Reads
  cases Reader.outset.run lexemes with
  | error error => simp [bind, Except.bind]
  | ok last =>
      cases finishes : last.finish with
      | error error => simp [bind, Except.bind, finishes]
      | ok definitions => simp [bind, Except.bind, pure, Except.pure, finishes]

/-- A source is read as a program exactly when a tree spells its lexemes and stands for it. -/
theorem Program.read_eq_ok_iff {source : List Char} {program : Program} :
    Program.read source = .ok program ↔
      ∃ tree : ProgramTree, tree.lexemes = lexemes source ∧
        tree.program (byteLength source) = program := by
  unfold Program.read
  rw [Program.ofLexemes_eq_ok_iff]
  constructor
  · rintro ⟨definitions, reads, rfl⟩
    obtain ⟨tree, spelled, rfl⟩ := reads_outset.mp reads
    exact ⟨tree, spelled.symm, rfl⟩
  · rintro ⟨tree, spelled, rfl⟩
    exact ⟨_, reads_outset.mpr ⟨tree, spelled.symm, rfl⟩, rfl⟩

/-! ## Sources -/

theorem readSource_of_ok {source : List Char} {program : Program}
    (reads : Program.read source = .ok program) :
    readSource source = ⟨some program, (lexicalFaults source).map LexicalFault.diagnostic⟩ := by
  rw [readSource, reads]

/-- Where reading stops, what stopped it stands among the lexical faults. -/
theorem readSource_of_error {source : List Char} {error : ReadError}
    (stuck : Program.read source = .error error) :
    (readSource source).program = none ∧
      (readSource source).diagnostics.Perm
        ((lexicalFaults source).map LexicalFault.diagnostic ++
          [error.diagnostic (byteLength source)]) := by
  rw [readSource, stuck]
  exact ⟨rfl, List.mergeSort_perm _ _⟩

theorem readSource_program_eq_some {source : List Char} {program : Program} :
    (readSource source).program = some program ↔ Program.read source = .ok program := by
  cases reads : Program.read source with
  | ok found => simp [readSource_of_ok reads]
  | error error => simp [(readSource_of_error reads).1]

/--
Reading accepts exactly the grammar: a source yields a program if and only if its tokens, lexical
faults left out, are those of a tree; there is then only one such tree, and the program is the one
that the tree stands for.  A source that yields a program has its lexical faults as its only
diagnostics, and any other source has one more, which says where reading stopped.
-/
theorem readSource_grammar (source : List Char) :
    ((readSource source).program.isSome ↔
      ∃ tree : ProgramTree, tree.lexemes = lexemes source) ∧
    (∀ tree other : ProgramTree, tree.lexemes = other.lexemes → tree = other) ∧
    (∀ tree : ProgramTree, tree.lexemes = lexemes source →
      (readSource source).program = some (tree.program (byteLength source))) ∧
    ((readSource source).program.isSome →
      (readSource source).diagnostics =
        (lexicalFaults source).map LexicalFault.diagnostic) ∧
    ((readSource source).program = none →
      ∃ error, Program.read source = .error error ∧
        (readSource source).diagnostics.Perm
          ((lexicalFaults source).map LexicalFault.diagnostic ++
            [error.diagnostic (byteLength source)])) := by
  refine ⟨?_, fun _ _ => ProgramTree.eq_of_lexemes, ?_, ?_, ?_⟩
  · simp only [Option.isSome_iff_exists, readSource_program_eq_some, Program.read_eq_ok_iff]
    constructor
    · rintro ⟨program, tree, spelled, -⟩
      exact ⟨tree, spelled⟩
    · rintro ⟨tree, spelled⟩
      exact ⟨_, tree, spelled, rfl⟩
  · intro tree spelled
    exact readSource_program_eq_some.mpr (Program.read_eq_ok_iff.mpr ⟨tree, spelled, rfl⟩)
  · intro accepted
    obtain ⟨program, yields⟩ := Option.isSome_iff_exists.mp accepted
    rw [readSource_of_ok (readSource_program_eq_some.mp yields)]
  · intro refused
    cases reads : Program.read source with
    | ok program =>
        rw [readSource_of_ok reads] at refused
        cases refused
    | error error => exact ⟨error, rfl, (readSource_of_error reads).2⟩

end FlowDiagram

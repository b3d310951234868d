import FlowDiagram.Proofs.Program.RoundTrip

/-!
# Layout

Layout and comments decide where the tokens of a source stand, and nothing else.  Trees are made of
tokens: lexemes that have the tokens of a tree, wherever they stand, are spelled by a tree that
stands for the same, up to spans.
-/

namespace FlowDiagram

/-- Lexemes with the tokens of a tree are spelled by a tree that stands for the same. -/
def Relocates {Tree Shape : Type} (spell : Tree → List Lexeme) (stands : Tree → Shape) : Prop :=
  ∀ (tree : Tree) (lexemes : List Lexeme),
    lexemes.map (·.token) = (spell tree).map (·.token) →
      ∃ moved, spell moved = lexemes ∧ stands moved = stands tree

theorem exists_of_append {lexemes first second : List Lexeme}
    (carry : lexemes.map (·.token) = (first ++ second).map (·.token)) :
    ∃ one other, one ++ other = lexemes ∧ one.map (·.token) = first.map (·.token) ∧
      other.map (·.token) = second.map (·.token) := by
  obtain ⟨one, other, rfl, here, there⟩ :=
    List.map_eq_append_iff.mp (carry.trans List.map_append)
  exact ⟨one, other, rfl, here, there⟩

namespace Relocates

variable {Tree Shape : Type} {spell : Tree → List Lexeme} {stands : Tree → Shape}

theorem optional (relocates : Relocates spell stands) :
    Relocates (FlowDiagram.optional spell) (Option.map stands) := by
  intro tree lexemes carry
  cases tree with
  | none =>
      obtain rfl := List.map_eq_nil_iff.mp carry
      exact ⟨none, rfl, rfl⟩
  | some tree =>
      obtain ⟨moved, rfl, same⟩ := relocates tree lexemes carry
      exact ⟨some moved, rfl, congrArg some same⟩

theorem repeated (relocates : Relocates spell stands) :
    Relocates (List.flatMap spell) (List.map stands) := by
  intro trees
  induction trees with
  | nil =>
      intro lexemes carry
      obtain rfl := List.map_eq_nil_iff.mp carry
      exact ⟨[], rfl, rfl⟩
  | cons tree rest ih =>
      intro lexemes carry
      rw [List.flatMap_cons] at carry
      obtain ⟨_, _, rfl, carryFirst, carryRest⟩ := exists_of_append carry
      obtain ⟨moved, rfl, same⟩ := relocates tree _ carryFirst
      obtain ⟨others, rfl, sameRest⟩ := ih _ carryRest
      exact ⟨moved :: others, by simp, by simp [same, sameRest]⟩

end Relocates

/-! ## The trees of the grammar -/

/-- A word or sign and an identifier behind it. -/
theorem relocates_marked (word : Reserved) :
    Relocates (fun marked : Span × Ident => [word.lexeme marked.1, marked.2.lexeme])
      (·.2.withoutSpan) := by
  intro marked lexemes carry
  obtain ⟨place, _, rfl, carryIdent⟩ := exists_of_reserved carry
  obtain ⟨ident, _, rfl, named, carryRest⟩ := exists_of_ident carryIdent
  obtain rfl := List.map_eq_nil_iff.mp carryRest
  exact ⟨(place, ident), rfl, Ident.withoutSpan_eq named⟩

theorem relocates_idents : Relocates IdentsTree.lexemes (·.idents.map Ident.withoutSpan) := by
  intro tree lexemes carry
  obtain ⟨first, _, rfl, named, carryFurther⟩ := exists_of_ident carry
  obtain ⟨further, rfl, same⟩ := (relocates_marked .comma).repeated tree.further _ carryFurther
  refine ⟨⟨first, further⟩, rfl, ?_⟩
  have others : (further.map Prod.snd).map Ident.withoutSpan =
      (tree.further.map Prod.snd).map Ident.withoutSpan := by
    simpa [Function.comp_def] using same
  simp only [IdentsTree.idents, List.map_cons, Ident.withoutSpan_eq named, others]

theorem relocates_identsOf :
    Relocates (optional IdentsTree.lexemes) fun tree => (identsOf tree).map Ident.withoutSpan := by
  intro tree lexemes carry
  obtain ⟨moved, rfl, same⟩ := relocates_idents.optional tree lexemes carry
  refine ⟨moved, rfl, ?_⟩
  cases tree <;> cases moved <;> simp_all [identsOf]

theorem relocates_existential :
    Relocates (optional existentialLexemes) fun existential =>
      (existential.elim [] fun (_, idents) => identsOf idents).map Ident.withoutSpan := by
  have barred : Relocates existentialLexemes fun barred =>
      (identsOf barred.2).map Ident.withoutSpan := by
    intro existential lexemes carry
    obtain ⟨bar, _, rfl, carryIdents⟩ := exists_of_reserved carry
    obtain ⟨idents, rfl, same⟩ := relocates_identsOf existential.2 _ carryIdents
    exact ⟨(bar, idents), rfl, same⟩
  intro existential lexemes carry
  obtain ⟨moved, rfl, same⟩ := barred.optional existential lexemes carry
  refine ⟨moved, rfl, ?_⟩
  cases existential <;> cases moved <;> simp_all

theorem relocates_generics : Relocates GenericsTree.lexemes (·.generics.withoutSpans) := by
  intro tree lexemes carry
  cases tree with
  | empty place =>
      obtain ⟨place, _, rfl, carryRest⟩ := exists_of_reserved carry
      obtain rfl := List.map_eq_nil_iff.mp carryRest
      exact ⟨.empty place, rfl, rfl⟩
  | listed opening universal existential closing =>
      obtain ⟨opening, _, rfl, carryUniversal⟩ := exists_of_reserved carry
      obtain ⟨_, _, rfl, carryFirst, carryExistential⟩ := exists_of_append carryUniversal
      obtain ⟨_, _, rfl, carrySecond, carryClosing⟩ := exists_of_append carryExistential
      obtain ⟨closing, _, rfl, carryRest⟩ := exists_of_reserved carryClosing
      obtain rfl := List.map_eq_nil_iff.mp carryRest
      obtain ⟨first, rfl, sameFirst⟩ := relocates_identsOf universal _ carryFirst
      obtain ⟨second, rfl, sameSecond⟩ := relocates_existential existential _ carrySecond
      refine ⟨.listed opening first second closing, rfl, ?_⟩
      simp only [GenericsTree.generics, Generics.withoutSpans, sameFirst, sameSecond]

theorem relocates_ports : Relocates PortsTree.lexemes (·.ports.withoutSpans) := by
  intro tree lexemes carry
  obtain ⟨opening, _, rfl, carryInputs⟩ := exists_of_reserved carry
  obtain ⟨_, _, rfl, carryFirst, carryBar⟩ := exists_of_append carryInputs
  obtain ⟨bar, _, rfl, carryOutputs⟩ := exists_of_reserved carryBar
  obtain ⟨_, _, rfl, carrySecond, carryClosing⟩ := exists_of_append carryOutputs
  obtain ⟨closing, _, rfl, carryRest⟩ := exists_of_reserved carryClosing
  obtain rfl := List.map_eq_nil_iff.mp carryRest
  obtain ⟨inputs, rfl, sameInputs⟩ := relocates_identsOf tree.inputs _ carryFirst
  obtain ⟨outputs, rfl, sameOutputs⟩ := relocates_identsOf tree.outputs _ carrySecond
  refine ⟨⟨opening, inputs, bar, outputs, closing⟩, rfl, ?_⟩
  simp only [PortsTree.ports, Ports.withoutSpans, sameInputs, sameOutputs]

theorem relocates_box : Relocates BoxTree.lexemes (·.box.withoutSpans) := by
  intro tree lexemes carry
  cases tree with
  | signed sign place symbol =>
      obtain ⟨⟨place, ident⟩, rfl, same⟩ := relocates_marked sign.word (place, symbol) _ carry
      refine ⟨.signed sign place ident, rfl, ?_⟩
      cases sign <;> simp only [BoxTree.box, Sign.box, BoxRef.withoutSpans, same]
  | indexed tag opening count place closing =>
      obtain ⟨tag, _, rfl, named, carryOpening⟩ := exists_of_ident carry
      obtain ⟨opening, _, rfl, carryCount⟩ := exists_of_reserved carryOpening
      obtain ⟨⟨token, place⟩, _, rfl, rfl, carryClosing⟩ := List.map_eq_cons_iff.mp carryCount
      obtain ⟨closing, _, rfl, carryRest⟩ := exists_of_reserved carryClosing
      obtain rfl := List.map_eq_nil_iff.mp carryRest
      refine ⟨.indexed tag opening count place closing, rfl, ?_⟩
      simp only [BoxTree.box, BoxRef.withoutSpans, Ident.withoutSpan_eq named]
  | join place =>
      obtain ⟨place, _, rfl, carryRest⟩ := exists_of_reserved carry
      obtain rfl := List.map_eq_nil_iff.mp carryRest
      exact ⟨.join place, rfl, rfl⟩
  | split place =>
      obtain ⟨place, _, rfl, carryRest⟩ := exists_of_reserved carry
      obtain rfl := List.map_eq_nil_iff.mp carryRest
      exact ⟨.split place, rfl, rfl⟩
  | definition name arguments =>
      obtain ⟨name, _, rfl, named, carryArguments⟩ := exists_of_ident carry
      obtain ⟨arguments, rfl, same⟩ := relocates_generics.optional arguments _ carryArguments
      refine ⟨.definition name arguments, rfl, ?_⟩
      simp only [BoxTree.box, BoxRef.withoutSpans, Ident.withoutSpan_eq named, Option.map_map]
      exact congrArg _ same

theorem relocates_use : Relocates UseTree.lexemes (·.use.withoutSpans) := by
  intro tree lexemes carry
  obtain ⟨keyword, _, rfl, carryBox⟩ := exists_of_reserved carry
  obtain ⟨_, _, rfl, carryThis, carryPorts⟩ := exists_of_append carryBox
  obtain ⟨_, _, rfl, carryThese, carryNaming⟩ := exists_of_append carryPorts
  obtain ⟨naming, _, rfl, carryName⟩ := exists_of_reserved carryNaming
  obtain ⟨name, _, rfl, named, carryRest⟩ := exists_of_ident carryName
  obtain rfl := List.map_eq_nil_iff.mp carryRest
  obtain ⟨box, rfl, sameBox⟩ := relocates_box tree.box _ carryThis
  obtain ⟨ports, rfl, samePorts⟩ := relocates_ports tree.ports _ carryThese
  refine ⟨⟨keyword, box, ports, naming, name⟩, rfl, ?_⟩
  simp only [UseTree.use, Use.withoutSpans, sameBox, samePorts, Ident.withoutSpan_eq named]

theorem relocates_ref : Relocates PortRefTree.lexemes (·.ref.withoutSpans) := by
  intro tree lexemes carry
  obtain ⟨first, second⟩ := tree
  obtain ⟨moved, _, rfl, named, carrySecond⟩ := exists_of_ident carry
  obtain ⟨other, rfl, same⟩ := (relocates_marked .dot).optional second _ carrySecond
  refine ⟨⟨moved, other⟩, rfl, ?_⟩
  cases second <;> cases other <;>
    simp_all [PortRefTree.ref, PortRef.boundary, PortRef.ofInstance, PortRef.withoutSpans,
      Ident.withoutSpan_eq named]

theorem relocates_link : Relocates LinkTree.lexemes (·.link.withoutSpans) := by
  intro tree lexemes carry
  obtain ⟨_, _, rfl, carrySource, carryArrow⟩ := exists_of_append carry
  obtain ⟨arrow, _, rfl, carryTarget⟩ := exists_of_reserved carryArrow
  obtain ⟨source, rfl, sameSource⟩ := relocates_ref tree.source _ carrySource
  obtain ⟨target, rfl, sameTarget⟩ := relocates_ref tree.target _ carryTarget
  refine ⟨⟨source, arrow, target⟩, rfl, ?_⟩
  simp only [LinkTree.link, Link.withoutSpans, sameSource, sameTarget]

/-- A comma behind a link means nothing. -/
theorem relocates_closedLink : Relocates closedLinkLexemes (·.1.link.withoutSpans) := by
  have comma : Relocates commaLexemes fun _ => () := by
    intro place lexemes carry
    obtain ⟨place, _, rfl, carryRest⟩ := exists_of_reserved carry
    obtain rfl := List.map_eq_nil_iff.mp carryRest
    exact ⟨place, rfl, rfl⟩
  intro closed lexemes carry
  obtain ⟨_, _, rfl, carryLink, carryComma⟩ := exists_of_append carry
  obtain ⟨link, rfl, same⟩ := relocates_link closed.1 _ carryLink
  obtain ⟨place, rfl, -⟩ := comma.optional closed.2 _ carryComma
  exact ⟨(link, place), rfl, same⟩

theorem relocates_item :
    Relocates ItemTree.lexemes fun item =>
      (item.uses.map Use.withoutSpans, item.linked.map Link.withoutSpans) := by
  intro tree lexemes carry
  cases tree with
  | use tree =>
      obtain ⟨moved, rfl, same⟩ := relocates_use tree lexemes carry
      exact ⟨.use moved, rfl, congrArg (fun use => ([use], [])) same⟩
  | links keyword closed =>
      obtain ⟨keyword, _, rfl, carryLinks⟩ := exists_of_reserved carry
      obtain ⟨moved, rfl, same⟩ := relocates_closedLink.repeated closed _ carryLinks
      refine ⟨.links keyword moved, rfl, ?_⟩
      simpa [ItemTree.uses, ItemTree.linked, Function.comp_def] using same

theorem relocates_definition :
    Relocates DefinitionTree.lexemes (·.definition.withoutSpans) := by
  intro tree lexemes carry
  obtain ⟨keyword, _, rfl, carryName⟩ := exists_of_reserved carry
  obtain ⟨name, _, rfl, named, carryEquals⟩ := exists_of_ident carryName
  obtain ⟨equals, _, rfl, carryGenerics⟩ := exists_of_reserved carryEquals
  obtain ⟨_, _, rfl, carryThese, carryPorts⟩ := exists_of_append carryGenerics
  obtain ⟨_, _, rfl, carryThesePorts, carryBody⟩ := exists_of_append carryPorts
  obtain ⟨generics, rfl, sameGenerics⟩ :=
    relocates_generics.optional tree.generics _ carryThese
  obtain ⟨ports, rfl, samePorts⟩ := relocates_ports tree.ports _ carryThesePorts
  obtain ⟨body, rfl, sameBody⟩ := relocates_item.repeated tree.body _ carryBody
  refine ⟨⟨keyword, name, equals, generics, ports, body⟩, rfl, ?_⟩
  have generic : ∀ (optional : Option GenericsTree) (span : Span),
      ((optional.map GenericsTree.generics).getD (.empty span)).withoutSpans =
        (optional.map (·.generics.withoutSpans)).getD ⟨[], [], .nowhere⟩ := by
    intro optional span
    cases optional <;> rfl
  have uses := congrArg (List.flatMap Prod.fst) sameBody
  have links := congrArg (List.flatMap Prod.snd) sameBody
  rw [List.flatMap_map, List.flatMap_map] at uses links
  simp only [DefinitionTree.definition, Definition.withoutSpans, generic, sameGenerics, samePorts,
    List.map_flatMap, uses, links, Ident.withoutSpan_eq named]

theorem relocates_program (length : Nat) :
    Relocates ProgramTree.lexemes fun tree => (tree.program length).withoutSpans := by
  intro tree lexemes carry
  obtain ⟨definitions, rfl, same⟩ :=
    relocates_definition.repeated tree.definitions lexemes carry
  refine ⟨⟨definitions⟩, rfl, ?_⟩
  simpa [ProgramTree.program, Program.withoutSpans, Function.comp_def] using same

/-! ## Sources -/

/--
A source with the tokens of a source that reads as a program reads as the same program, up to
spans, however the two are laid out.
-/
theorem Program.exists_read_of_tokens {source other : List Char} {program : Program}
    (reads : Program.read source = .ok program)
    (same : (lexemes other).map (·.token) = (lexemes source).map (·.token)) :
    ∃ again, Program.read other = .ok again ∧ again.withoutSpans = program.withoutSpans := by
  obtain ⟨tree, spelled, rfl⟩ := Program.read_eq_ok_iff.mp reads
  rw [← spelled] at same
  obtain ⟨moved, spelledOther, stands⟩ := relocates_program (byteLength other) tree _ same
  exact ⟨_, Program.read_eq_ok_iff.mpr ⟨moved, spelledOther, rfl⟩, stands⟩

end FlowDiagram

import FlowDiagram.Proofs.Program.Named
import FlowDiagram.Proofs.Program.Printing

/-!
# Printing and reading

Lexemes that carry the tokens of a program, whatever their spans, are spelled by a tree that stands
for the program up to spans.  So the canonical text of a program reads as that program, and what is
read from any source can be printed and read again.
-/

namespace FlowDiagram

/-! ## Lexemes of given tokens -/

section Lexemes

variable {lexemes : List Lexeme} {rest : List Token}

theorem exists_of_reserved {word : Reserved}
    (carry : lexemes.map (·.token) = .reserved word :: rest) :
    ∃ span later, word.lexeme span :: later = lexemes ∧ later.map (·.token) = rest := by
  obtain ⟨⟨token, span⟩, later, rfl, rfl, carryLater⟩ := List.map_eq_cons_iff.mp carry
  exact ⟨span, later, rfl, carryLater⟩

theorem exists_of_ident {name : String} (carry : lexemes.map (·.token) = .ident name :: rest) :
    ∃ (ident : Ident) (later : List Lexeme), ident.lexeme :: later = lexemes ∧
      ident.name = name ∧ later.map (·.token) = rest := by
  obtain ⟨⟨token, span⟩, later, rfl, rfl, carryLater⟩ := List.map_eq_cons_iff.mp carry
  exact ⟨⟨name, span⟩, later, rfl, rfl, carryLater⟩

end Lexemes

theorem Ident.withoutSpan_eq {first second : Ident} (same : first.name = second.name) :
    first.withoutSpan = second.withoutSpan := by
  unfold Ident.withoutSpan
  rw [same]

/-- Parts that are carried one after the other. -/
theorem exists_repeated {Part Tree Shape : Type} {tokens : Part → List Token}
    (spell : Tree → List Lexeme) (stands : Tree → Shape) (shape : Part → Shape)
    {parts : List Part} {lexemes : List Lexeme}
    (each : ∀ part ∈ parts, ∀ lexemes : List Lexeme, lexemes.map (·.token) = tokens part →
      ∃ tree, spell tree = lexemes ∧ stands tree = shape part)
    (carry : lexemes.map (·.token) = parts.flatMap tokens) :
    ∃ trees : List Tree, trees.flatMap spell = lexemes ∧ trees.map stands = parts.map shape := by
  induction parts generalizing lexemes with
  | nil =>
      obtain rfl : lexemes = [] := by simpa using carry
      exact ⟨[], rfl, rfl⟩
  | cons part later ih =>
      obtain ⟨first, others, rfl, carryFirst, carryOthers⟩ := List.map_eq_append_iff.mp carry
      obtain ⟨tree, rfl, same⟩ := each part (by simp) first carryFirst
      obtain ⟨trees, rfl, sameOthers⟩ :=
        ih (fun part member => each part (by simp [member])) carryOthers
      exact ⟨tree :: trees, rfl, by simp [same, sameOthers]⟩

/-! ## Trees of given tokens -/

section Trees

variable {lexemes : List Lexeme}

theorem exists_idents {idents : List Ident}
    (carry : lexemes.map (·.token) = identTokens idents) :
    ∃ tree, optional IdentsTree.lexemes tree = lexemes ∧
      (identsOf tree).map Ident.withoutSpan = idents.map Ident.withoutSpan := by
  cases idents with
  | nil =>
      obtain rfl : lexemes = [] := by simpa [identTokens] using carry
      exact ⟨none, rfl, rfl⟩
  | cons first further =>
      obtain ⟨ident, later, rfl, named, carryFurther⟩ := exists_of_ident carry
      obtain ⟨trees, rfl, same⟩ := exists_repeated furtherLexemes
        (fun later => later.2.withoutSpan) Ident.withoutSpan
        (fun next _ lexemes carry => by
          obtain ⟨comma, _, rfl, carryIdent⟩ := exists_of_reserved carry
          obtain ⟨other, _, rfl, otherNamed, rest⟩ := exists_of_ident carryIdent
          obtain rfl := List.map_eq_nil_iff.mp rest
          exact ⟨(comma, other), rfl, Ident.withoutSpan_eq otherNamed⟩)
        carryFurther
      refine ⟨some ⟨ident, trees⟩, rfl, ?_⟩
      simpa [identsOf, IdentsTree.idents, Ident.withoutSpan_eq named, Function.comp_def] using same

theorem exists_generics {generics : Generics}
    (carry : lexemes.map (·.token) = generics.tokens) :
    ∃ tree : GenericsTree, tree.lexemes = lexemes ∧
      tree.generics.withoutSpans = generics.withoutSpans := by
  obtain ⟨opening, _, rfl, carryUniversal⟩ := exists_of_reserved carry
  obtain ⟨first, _, rfl, carryFirst, carryBar⟩ := List.map_eq_append_iff.mp carryUniversal
  obtain ⟨bar, _, rfl, carryExistential⟩ := exists_of_reserved carryBar
  obtain ⟨second, _, rfl, carrySecond, carryClosing⟩ := List.map_eq_append_iff.mp carryExistential
  obtain ⟨closing, last, rfl, carryRest⟩ := exists_of_reserved carryClosing
  obtain rfl := List.map_eq_nil_iff.mp carryRest
  obtain ⟨universal, rfl, sameUniversal⟩ := exists_idents carryFirst
  obtain ⟨existential, rfl, sameExistential⟩ := exists_idents carrySecond
  refine ⟨.listed opening universal (some (bar, existential)) closing, ?_, ?_⟩
  · simp [GenericsTree.lexemes, optional, existentialLexemes]
  · simp [GenericsTree.generics, Generics.withoutSpans, sameUniversal, sameExistential]

theorem exists_ports {ports : Ports} (carry : lexemes.map (·.token) = ports.tokens) :
    ∃ tree : PortsTree, tree.lexemes = lexemes ∧ tree.ports.withoutSpans = ports.withoutSpans := by
  obtain ⟨opening, _, rfl, carryInputs⟩ := exists_of_reserved carry
  obtain ⟨first, _, rfl, carryFirst, carryBar⟩ := List.map_eq_append_iff.mp carryInputs
  obtain ⟨bar, _, rfl, carryOutputs⟩ := exists_of_reserved carryBar
  obtain ⟨second, _, rfl, carrySecond, carryClosing⟩ := List.map_eq_append_iff.mp carryOutputs
  obtain ⟨closing, last, rfl, carryRest⟩ := exists_of_reserved carryClosing
  obtain rfl := List.map_eq_nil_iff.mp carryRest
  obtain ⟨inputs, rfl, sameInputs⟩ := exists_idents carryFirst
  obtain ⟨outputs, rfl, sameOutputs⟩ := exists_idents carrySecond
  refine ⟨⟨opening, inputs, bar, outputs, closing⟩, rfl, ?_⟩
  simp [PortsTree.ports, Ports.withoutSpans, sameInputs, sameOutputs]

theorem exists_signed (sign : Sign) {symbol : Ident}
    (carry : lexemes.map (·.token) = [.reserved sign.word, .ident symbol.name]) :
    ∃ tree : BoxTree, tree.lexemes = lexemes ∧
      tree.box.withoutSpans = (sign.box symbol).withoutSpans := by
  obtain ⟨place, _, rfl, carrySymbol⟩ := exists_of_reserved carry
  obtain ⟨other, _, rfl, named, carryRest⟩ := exists_of_ident carrySymbol
  obtain rfl := List.map_eq_nil_iff.mp carryRest
  refine ⟨.signed sign place other, rfl, ?_⟩
  cases sign <;> simp [BoxTree.box, Sign.box, BoxRef.withoutSpans, Ident.withoutSpan_eq named]

theorem exists_box {box : BoxRef} (carry : lexemes.map (·.token) = box.tokens) :
    ∃ tree : BoxTree, tree.lexemes = lexemes ∧ tree.box.withoutSpans = box.withoutSpans := by
  cases box with
  | add symbol => exact exists_signed .plus carry
  | remove symbol => exact exists_signed .minus carry
  | spawn symbol => exact exists_signed .star carry
  | indexed tag count span =>
      obtain ⟨other, _, rfl, named, carryOpening⟩ := exists_of_ident carry
      obtain ⟨opening, _, rfl, carryCount⟩ := exists_of_reserved carryOpening
      obtain ⟨⟨token, place⟩, _, rfl, rfl, carryClosing⟩ := List.map_eq_cons_iff.mp carryCount
      obtain ⟨closing, _, rfl, carryRest⟩ := exists_of_reserved carryClosing
      obtain rfl := List.map_eq_nil_iff.mp carryRest
      refine ⟨.indexed other opening count place closing, rfl, ?_⟩
      simp [BoxTree.box, BoxRef.withoutSpans, Ident.withoutSpan_eq named]
  | join span =>
      obtain ⟨place, _, rfl, carryRest⟩ := exists_of_reserved carry
      obtain rfl := List.map_eq_nil_iff.mp carryRest
      exact ⟨.join place, rfl, rfl⟩
  | split span =>
      obtain ⟨place, _, rfl, carryRest⟩ := exists_of_reserved carry
      obtain rfl := List.map_eq_nil_iff.mp carryRest
      exact ⟨.split place, rfl, rfl⟩
  | definition name arguments =>
      obtain ⟨other, _, rfl, named, carryArguments⟩ := exists_of_ident carry
      cases arguments with
      | none =>
          obtain rfl := List.map_eq_nil_iff.mp carryArguments
          refine ⟨.definition other none, rfl, ?_⟩
          simp [BoxTree.box, BoxRef.withoutSpans, Ident.withoutSpan_eq named]
      | some arguments =>
          obtain ⟨tree, rfl, same⟩ := exists_generics carryArguments
          refine ⟨.definition other (some tree), rfl, ?_⟩
          simp [BoxTree.box, BoxRef.withoutSpans, Ident.withoutSpan_eq named, same]

theorem exists_use {use : Use} (carry : lexemes.map (·.token) = use.tokens) :
    ∃ tree : UseTree, tree.lexemes = lexemes ∧ tree.use.withoutSpans = use.withoutSpans := by
  obtain ⟨keyword, _, rfl, carryBox⟩ := exists_of_reserved carry
  obtain ⟨_, _, rfl, carryThis, carryPorts⟩ := List.map_eq_append_iff.mp carryBox
  obtain ⟨box, rfl, sameBox⟩ := exists_box carryThis
  obtain ⟨_, _, rfl, carryThese, carryNaming⟩ := List.map_eq_append_iff.mp carryPorts
  obtain ⟨ports, rfl, samePorts⟩ := exists_ports carryThese
  obtain ⟨naming, _, rfl, carryName⟩ := exists_of_reserved carryNaming
  obtain ⟨name, _, rfl, named, carryRest⟩ := exists_of_ident carryName
  obtain rfl := List.map_eq_nil_iff.mp carryRest
  refine ⟨⟨keyword, box, ports, naming, name⟩, rfl, ?_⟩
  simp [UseTree.use, Use.withoutSpans, sameBox, samePorts, Ident.withoutSpan_eq named]

theorem exists_portRef {ref : PortRef} (carry : lexemes.map (·.token) = ref.tokens) :
    ∃ tree : PortRefTree, tree.lexemes = lexemes ∧ tree.ref.withoutSpans = ref.withoutSpans := by
  obtain ⟨owner, port, span⟩ := ref
  cases owner with
  | none =>
      obtain ⟨first, _, rfl, named, carryRest⟩ := exists_of_ident carry
      obtain rfl := List.map_eq_nil_iff.mp carryRest
      refine ⟨⟨first, none⟩, rfl, ?_⟩
      simp [PortRefTree.ref, PortRef.boundary, PortRef.withoutSpans, Ident.withoutSpan_eq named]
  | some owner =>
      obtain ⟨first, _, rfl, named, carryDot⟩ := exists_of_ident carry
      obtain ⟨dot, _, rfl, carryPort⟩ := exists_of_reserved carryDot
      obtain ⟨second, _, rfl, portNamed, carryRest⟩ := exists_of_ident carryPort
      obtain rfl := List.map_eq_nil_iff.mp carryRest
      refine ⟨⟨first, some (dot, second)⟩, rfl, ?_⟩
      simp [PortRefTree.ref, PortRef.ofInstance, PortRef.withoutSpans,
        Ident.withoutSpan_eq named, Ident.withoutSpan_eq portNamed]

theorem exists_link {link : Link} (carry : lexemes.map (·.token) = link.tokens) :
    ∃ tree : LinkTree, tree.lexemes = lexemes ∧ tree.link.withoutSpans = link.withoutSpans := by
  obtain ⟨_, _, rfl, carrySource, carryArrow⟩ := List.map_eq_append_iff.mp carry
  obtain ⟨source, rfl, sameSource⟩ := exists_portRef carrySource
  obtain ⟨arrow, _, rfl, carryTarget⟩ := exists_of_reserved carryArrow
  obtain ⟨target, rfl, sameTarget⟩ := exists_portRef carryTarget
  refine ⟨⟨source, arrow, target⟩, rfl, ?_⟩
  simp [LinkTree.link, Link.withoutSpans, sameSource, sameTarget]

/-- A block of links, if there are any. -/
theorem exists_links {links : List Link} (carry : lexemes.map (·.token) = linksTokens links) :
    ∃ body : List ItemTree, bodyLexemes body = lexemes ∧ body.flatMap ItemTree.uses = [] ∧
      (body.flatMap ItemTree.linked).map Link.withoutSpans = links.map Link.withoutSpans := by
  unfold linksTokens at carry
  split at carry
  · rename_i isEmpty
    obtain rfl := List.map_eq_nil_iff.mp carry
    exact ⟨[], rfl, rfl, by rw [List.isEmpty_iff.mp isEmpty]; rfl⟩
  · obtain ⟨keyword, _, rfl, carryLinks⟩ := exists_of_reserved carry
    obtain ⟨closed, rfl, same⟩ := exists_repeated closedLinkLexemes
      (fun closed => closed.1.link.withoutSpans) Link.withoutSpans
      (fun link _ lexemes carry => by
        obtain ⟨tree, rfl, same⟩ := exists_link carry
        exact ⟨(tree, none), by simp [closedLinkLexemes, optional], same⟩)
      carryLinks
    refine ⟨[.links keyword closed], ?_, rfl, ?_⟩
    · simp [bodyLexemes, ItemTree.lexemes]
    · simpa [ItemTree.linked, Function.comp_def] using same

theorem exists_body {uses : List Use} {links : List Link}
    (carry : lexemes.map (·.token) = uses.flatMap Use.tokens ++ linksTokens links) :
    ∃ body : List ItemTree, bodyLexemes body = lexemes ∧
      (body.flatMap ItemTree.uses).map Use.withoutSpans = uses.map Use.withoutSpans ∧
      (body.flatMap ItemTree.linked).map Link.withoutSpans = links.map Link.withoutSpans := by
  obtain ⟨_, _, rfl, carryUses, carryLinks⟩ := List.map_eq_append_iff.mp carry
  obtain ⟨trees, rfl, sameUses⟩ := exists_repeated UseTree.lexemes
    (fun tree => tree.use.withoutSpans) Use.withoutSpans
    (fun use _ lexemes carry => exists_use carry) carryUses
  obtain ⟨block, rfl, noUses, sameLinks⟩ := exists_links carryLinks
  refine ⟨trees.map .use ++ block, ?_, ?_, ?_⟩
  · simp [bodyLexemes, List.flatMap_map, ItemTree.lexemes]
  · simp only [List.flatMap_append, noUses, List.append_nil]
    simpa [List.flatMap_map, ItemTree.uses, ← List.map_eq_flatMap, Function.comp_def]
      using sameUses
  · simp only [List.flatMap_append, List.map_append, sameLinks]
    simp [List.flatMap_map, ItemTree.linked]

theorem exists_definition {definition : Definition}
    (carry : lexemes.map (·.token) = definition.tokens) :
    ∃ tree : DefinitionTree, tree.lexemes = lexemes ∧
      tree.definition.withoutSpans = definition.withoutSpans := by
  obtain ⟨keyword, _, rfl, carryName⟩ := exists_of_reserved carry
  obtain ⟨name, _, rfl, named, carryEquals⟩ := exists_of_ident carryName
  obtain ⟨equals, _, rfl, carryGenerics⟩ := exists_of_reserved carryEquals
  obtain ⟨these, _, rfl, carryThese, carryPorts⟩ := List.map_eq_append_iff.mp carryGenerics
  have genericsTree : ∃ tree, optional GenericsTree.lexemes tree = these ∧ ∀ span,
      ((tree.map GenericsTree.generics).getD (.empty span)).withoutSpans =
        definition.generics.withoutSpans := by
    split at carryThese
    · rename_i isEmpty
      obtain rfl := List.map_eq_nil_iff.mp carryThese
      refine ⟨none, rfl, fun span => ?_⟩
      simp_all [Generics.isEmpty, Generics.withoutSpans, Generics.empty]
    · obtain ⟨tree, rfl, same⟩ := exists_generics carryThese
      exact ⟨some tree, rfl, fun _ => same⟩
  obtain ⟨generics, rfl, sameGenerics⟩ := genericsTree
  obtain ⟨_, _, rfl, carryThesePorts, carryBody⟩ := List.map_eq_append_iff.mp carryPorts
  obtain ⟨ports, rfl, samePorts⟩ := exists_ports carryThesePorts
  obtain ⟨body, rfl, sameUses, sameLinks⟩ := exists_body carryBody
  refine ⟨⟨keyword, name, equals, generics, ports, body⟩, rfl, ?_⟩
  simp [DefinitionTree.definition, Definition.withoutSpans, sameGenerics, samePorts, sameUses,
    sameLinks, Ident.withoutSpan_eq named]

/-- Lexemes that carry the tokens of a program are those of a tree that stands for it. -/
theorem exists_program {program : Program} (carry : lexemes.map (·.token) = program.tokens) :
    ∃ tree : ProgramTree, tree.lexemes = lexemes ∧
      ∀ length, (tree.program length).withoutSpans = program.withoutSpans := by
  obtain ⟨trees, rfl, same⟩ := exists_repeated DefinitionTree.lexemes
    (fun tree => tree.definition.withoutSpans) Definition.withoutSpans
    (fun definition _ lexemes carry => exists_definition carry) carry
  refine ⟨⟨trees⟩, rfl, fun length => ?_⟩
  simpa [ProgramTree.program, Program.withoutSpans, Function.comp_def] using same

end Trees

/-! ## Canonical texts -/

/-- The canonical text of a program reads as that program, up to spans, without diagnostics. -/
theorem exists_readSource_text {program : Program} (named : AllNamed program.idents) :
    ∃ again, readSource program.text.toList = ⟨some again, []⟩ ∧
      again.withoutSpans = program.withoutSpans ∧ again.text = program.text := by
  obtain ⟨carry, faultless⟩ := tokens_of_marks (marks_text named)
  obtain ⟨tree, spelled, same⟩ := exists_program carry
  have reads : Program.read program.text.toList =
      .ok (tree.program (byteLength program.text.toList)) :=
    Program.read_eq_ok_iff.mpr ⟨tree, spelled, rfl⟩
  refine ⟨tree.program (byteLength program.text.toList), ?_, same _, ?_⟩
  · rw [readSource_of_ok reads, faultless]
    rfl
  · rw [← Program.text_withoutSpans, same, Program.text_withoutSpans]

/--
Printing and reading are inverse up to spans.  A program whose identifiers have the form of
identifiers reads from its canonical text without diagnostics, and as itself.  So does every program
that a source yields, and it prints the same again.
-/
theorem readSource_text :
    (∀ program : Program, AllNamed program.idents →
      ∃ again, readSource program.text.toList = ⟨some again, []⟩ ∧
        again.withoutSpans = program.withoutSpans) ∧
    (∀ source program, (readSource source).program = some program →
      ∃ again, readSource program.text.toList = ⟨some again, []⟩ ∧
        again.withoutSpans = program.withoutSpans ∧ again.text = program.text) := by
  refine ⟨?_, ?_⟩
  · intro program named
    obtain ⟨again, reads, same, -⟩ := exists_readSource_text named
    exact ⟨again, reads, same⟩
  · intro source program yields
    have reads := readSource_program_eq_some.mp yields
    exact exists_readSource_text (Program.allNamed_of_read reads)

end FlowDiagram

import FlowDiagram.Proofs.Program.Parts
import FlowDiagram.Proofs.Program.Reading
import FlowDiagram.Proofs.Token.Windows

/-!
# Programs at other places

A part of a program knows the bytes that it was read from.  Where these are counted from elsewhere,
all spans of the part shift, and nothing else changes.  The same can be done to a tree and to the
lexemes it spells: a shifted tree spells the shifted lexemes and stands for the shifted part.
-/

namespace FlowDiagram

/-! ## Shifted parts -/

section Parts

variable (shift : Nat → Nat)

def Ident.shifted (ident : Ident) : Ident := ⟨ident.name, ident.span.shifted shift⟩

def Generics.shifted (generics : Generics) : Generics :=
  ⟨generics.universal.map (Ident.shifted shift), generics.existential.map (Ident.shifted shift),
    generics.span.shifted shift⟩

def Ports.shifted (ports : Ports) : Ports :=
  ⟨ports.inputs.map (Ident.shifted shift), ports.outputs.map (Ident.shifted shift),
    ports.span.shifted shift⟩

def BoxRef.shifted : BoxRef → BoxRef
  | .add symbol => .add (symbol.shifted shift)
  | .remove symbol => .remove (symbol.shifted shift)
  | .spawn symbol => .spawn (symbol.shifted shift)
  | .indexed tag count span => .indexed (tag.shifted shift) count (span.shifted shift)
  | .join span => .join (span.shifted shift)
  | .split span => .split (span.shifted shift)
  | .definition name arguments =>
    .definition (name.shifted shift) (arguments.map (Generics.shifted shift))

def Use.shifted (use : Use) : Use :=
  ⟨use.box.shifted shift, use.ports.shifted shift, use.name.shifted shift, use.span.shifted shift⟩

def PortRef.shifted (ref : PortRef) : PortRef :=
  ⟨ref.owner.map (Ident.shifted shift), ref.port.shifted shift, ref.span.shifted shift⟩

def Link.shifted (link : Link) : Link :=
  ⟨link.source.shifted shift, link.target.shifted shift, link.span.shifted shift⟩

def Definition.shifted (definition : Definition) : Definition :=
  ⟨definition.name.shifted shift, definition.generics.shifted shift,
    definition.ports.shifted shift, definition.uses.map (Use.shifted shift),
    definition.links.map (Link.shifted shift), definition.span.shifted shift⟩

/-! ## Shifted trees -/

def IdentsTree.shifted (tree : IdentsTree) : IdentsTree :=
  ⟨tree.first.shifted shift, tree.further.map (Prod.map (Span.shifted shift) (Ident.shifted shift))⟩

def GenericsTree.shifted : GenericsTree → GenericsTree
  | .empty place => .empty (place.shifted shift)
  | .listed opening universal existential closing =>
    .listed (opening.shifted shift) (universal.map (IdentsTree.shifted shift))
      (existential.map (Prod.map (Span.shifted shift) (Option.map (IdentsTree.shifted shift))))
      (closing.shifted shift)

def PortsTree.shifted (tree : PortsTree) : PortsTree :=
  ⟨tree.opening.shifted shift, tree.inputs.map (IdentsTree.shifted shift), tree.bar.shifted shift,
    tree.outputs.map (IdentsTree.shifted shift), tree.closing.shifted shift⟩

def BoxTree.shifted : BoxTree → BoxTree
  | .signed sign place symbol => .signed sign (place.shifted shift) (symbol.shifted shift)
  | .indexed tag opening count place closing =>
    .indexed (tag.shifted shift) (opening.shifted shift) count (place.shifted shift)
      (closing.shifted shift)
  | .join place => .join (place.shifted shift)
  | .split place => .split (place.shifted shift)
  | .definition name arguments =>
    .definition (name.shifted shift) (arguments.map (GenericsTree.shifted shift))

def UseTree.shifted (tree : UseTree) : UseTree :=
  ⟨tree.keyword.shifted shift, tree.box.shifted shift, tree.ports.shifted shift,
    tree.naming.shifted shift, tree.name.shifted shift⟩

def PortRefTree.shifted (tree : PortRefTree) : PortRefTree :=
  ⟨tree.first.shifted shift, tree.second.map (Prod.map (Span.shifted shift) (Ident.shifted shift))⟩

def LinkTree.shifted (tree : LinkTree) : LinkTree :=
  ⟨tree.source.shifted shift, tree.arrow.shifted shift, tree.target.shifted shift⟩

def ItemTree.shifted : ItemTree → ItemTree
  | .use tree => .use (tree.shifted shift)
  | .links keyword closed =>
    .links (keyword.shifted shift)
      (closed.map (Prod.map (LinkTree.shifted shift) (Option.map (Span.shifted shift))))

def DefinitionTree.shifted (tree : DefinitionTree) : DefinitionTree :=
  ⟨tree.keyword.shifted shift, tree.name.shifted shift, tree.equals.shifted shift,
    tree.generics.map (GenericsTree.shifted shift), tree.ports.shifted shift,
    tree.body.map (ItemTree.shifted shift)⟩

end Parts

/-! ## What shifted trees spell -/

section Spelling

variable {shift : Nat → Nat}

@[simp]
theorem Ident.lexeme_shifted (ident : Ident) :
    (ident.shifted shift).lexeme = ident.lexeme.shifted shift := rfl

@[simp]
theorem Reserved.lexeme_shifted (word : Reserved) (place : Span) :
    word.lexeme (place.shifted shift) = (word.lexeme place).shifted shift := rfl

/-- A part that is shifted or left out spells shifted lexemes if the part does. -/
theorem optional_shifted {Tree : Type} {spell : Tree → List Lexeme} {move : Tree → Tree}
    (spells : ∀ tree, spell (move tree) = (spell tree).map (Lexeme.shifted shift))
    (tree : Option Tree) :
    optional spell (tree.map move) = (optional spell tree).map (Lexeme.shifted shift) := by
  cases tree with
  | none => rfl
  | some tree => exact spells tree

theorem flatMap_shifted {Tree : Type} {spell : Tree → List Lexeme} {move : Tree → Tree}
    (spells : ∀ tree, spell (move tree) = (spell tree).map (Lexeme.shifted shift))
    (trees : List Tree) :
    (trees.map move).flatMap spell = (trees.flatMap spell).map (Lexeme.shifted shift) := by
  simp only [List.flatMap_map, List.map_flatMap, spells]

theorem IdentsTree.lexemes_shifted (tree : IdentsTree) :
    (tree.shifted shift).lexemes = tree.lexemes.map (Lexeme.shifted shift) := by
  have further (pair : Span × Ident) :
      furtherLexemes (Prod.map (Span.shifted shift) (Ident.shifted shift) pair) =
        (furtherLexemes pair).map (Lexeme.shifted shift) := rfl
  simp only [lexemes, shifted, flatMap_shifted further, Ident.lexeme_shifted, List.map_cons]

theorem GenericsTree.lexemes_shifted (tree : GenericsTree) :
    (tree.shifted shift).lexemes = tree.lexemes.map (Lexeme.shifted shift) := by
  have barred (existential : Span × Option IdentsTree) :
      existentialLexemes
        (Prod.map (Span.shifted shift) (Option.map (IdentsTree.shifted shift)) existential) =
          (existentialLexemes existential).map (Lexeme.shifted shift) :=
    congrArg _ (optional_shifted IdentsTree.lexemes_shifted existential.2)
  cases tree with
  | empty place => rfl
  | listed opening universal existential closing =>
      simp only [lexemes, shifted, optional_shifted IdentsTree.lexemes_shifted,
        optional_shifted barred, Reserved.lexeme_shifted, List.map_cons, List.map_append,
        List.map_nil]

theorem PortsTree.lexemes_shifted (tree : PortsTree) :
    (tree.shifted shift).lexemes = tree.lexemes.map (Lexeme.shifted shift) := by
  simp only [lexemes, shifted, optional_shifted IdentsTree.lexemes_shifted,
    Reserved.lexeme_shifted, List.map_cons, List.map_append, List.map_nil]

theorem BoxTree.lexemes_shifted (tree : BoxTree) :
    (tree.shifted shift).lexemes = tree.lexemes.map (Lexeme.shifted shift) := by
  cases tree with
  | definition name arguments =>
      simp only [lexemes, shifted, optional_shifted GenericsTree.lexemes_shifted,
        Ident.lexeme_shifted, List.map_cons]
  | _ => rfl

theorem UseTree.lexemes_shifted (tree : UseTree) :
    (tree.shifted shift).lexemes = tree.lexemes.map (Lexeme.shifted shift) := by
  simp only [lexemes, shifted, BoxTree.lexemes_shifted, PortsTree.lexemes_shifted,
    Reserved.lexeme_shifted, Ident.lexeme_shifted, List.map_cons, List.map_append, List.map_nil]

theorem PortRefTree.lexemes_shifted (tree : PortRefTree) :
    (tree.shifted shift).lexemes = tree.lexemes.map (Lexeme.shifted shift) := by
  have second (pair : Span × Ident) :
      secondLexemes (Prod.map (Span.shifted shift) (Ident.shifted shift) pair) =
        (secondLexemes pair).map (Lexeme.shifted shift) := rfl
  simp only [lexemes, shifted, optional_shifted second, Ident.lexeme_shifted, List.map_cons]

theorem LinkTree.lexemes_shifted (tree : LinkTree) :
    (tree.shifted shift).lexemes = tree.lexemes.map (Lexeme.shifted shift) := by
  simp only [lexemes, shifted, PortRefTree.lexemes_shifted, Reserved.lexeme_shifted,
    List.map_append, List.map_cons]

theorem ItemTree.lexemes_shifted (tree : ItemTree) :
    (tree.shifted shift).lexemes = tree.lexemes.map (Lexeme.shifted shift) := by
  have comma (place : Span) :
      commaLexemes (place.shifted shift) = (commaLexemes place).map (Lexeme.shifted shift) := rfl
  have closed (link : LinkTree × Option Span) :
      closedLinkLexemes
        (Prod.map (LinkTree.shifted shift) (Option.map (Span.shifted shift)) link) =
          (closedLinkLexemes link).map (Lexeme.shifted shift) := by
    simp only [closedLinkLexemes, Prod.map_fst, Prod.map_snd, LinkTree.lexemes_shifted,
      optional_shifted comma, List.map_append]
  cases tree with
  | use tree => exact tree.lexemes_shifted
  | links keyword links => exact congrArg _ (flatMap_shifted closed links)

theorem bodyLexemes_shifted (body : List ItemTree) :
    bodyLexemes (body.map (ItemTree.shifted shift)) =
      (bodyLexemes body).map (Lexeme.shifted shift) :=
  flatMap_shifted ItemTree.lexemes_shifted body

theorem DefinitionTree.lexemes_shifted (tree : DefinitionTree) :
    (tree.shifted shift).lexemes = tree.lexemes.map (Lexeme.shifted shift) := by
  simp only [lexemes, shifted, optional_shifted GenericsTree.lexemes_shifted,
    PortsTree.lexemes_shifted, bodyLexemes_shifted, Reserved.lexeme_shifted, Ident.lexeme_shifted,
    List.map_cons, List.map_append]

/-! ## What shifted trees stand for -/

theorem identsOf_shifted (tree : Option IdentsTree) :
    identsOf (tree.map (IdentsTree.shifted shift)) =
      (identsOf tree).map (Ident.shifted shift) := by
  cases tree with
  | none => rfl
  | some tree => simp [identsOf, IdentsTree.idents, IdentsTree.shifted]

theorem GenericsTree.generics_shifted (tree : GenericsTree) :
    (tree.shifted shift).generics = tree.generics.shifted shift := by
  cases tree with
  | empty place => rfl
  | listed opening universal existential closing =>
      cases existential with
      | none => simp [shifted, generics, Generics.shifted, identsOf_shifted, Span.shifted]
      | some existential =>
          simp [shifted, generics, Generics.shifted, identsOf_shifted, Span.shifted]

theorem PortsTree.ports_shifted (tree : PortsTree) :
    (tree.shifted shift).ports = tree.ports.shifted shift := by
  simp only [ports, shifted, Ports.shifted, identsOf_shifted, Span.shifted]

theorem BoxTree.box_shifted (tree : BoxTree) :
    (tree.shifted shift).box = tree.box.shifted shift := by
  cases tree with
  | signed sign place symbol => cases sign <;> rfl
  | definition name arguments =>
      cases arguments with
      | none => rfl
      | some arguments => simp [shifted, box, BoxRef.shifted, arguments.generics_shifted]
  | _ => rfl

theorem UseTree.use_shifted (tree : UseTree) :
    (tree.shifted shift).use = tree.use.shifted shift := by
  simp only [use, shifted, Use.shifted, BoxTree.box_shifted, PortsTree.ports_shifted]
  rfl

theorem PortRefTree.ref_shifted (tree : PortRefTree) :
    (tree.shifted shift).ref = tree.ref.shifted shift := by
  obtain ⟨first, second⟩ := tree
  cases second <;> rfl

theorem LinkTree.link_shifted (tree : LinkTree) :
    (tree.shifted shift).link = tree.link.shifted shift := by
  simp only [link, shifted, PortRefTree.ref_shifted]
  rfl

theorem ItemTree.uses_shifted (tree : ItemTree) :
    (tree.shifted shift).uses = tree.uses.map (Use.shifted shift) := by
  cases tree with
  | use tree => simp only [shifted, uses, UseTree.use_shifted, List.map_cons, List.map_nil]
  | links keyword closed => rfl

theorem ItemTree.linked_shifted (tree : ItemTree) :
    (tree.shifted shift).linked = tree.linked.map (Link.shifted shift) := by
  cases tree with
  | use tree => rfl
  | links keyword closed => simp [shifted, linked, LinkTree.link_shifted]

theorem stopAfter_shifted (stop : Nat) (lexemes : List Lexeme) :
    stopAfter (shift stop) (lexemes.map (Lexeme.shifted shift)) =
      shift (stopAfter stop lexemes) := by
  induction lexemes generalizing stop with
  | nil => rfl
  | cons lexeme rest ih => exact ih lexeme.span.stop

/-- A shifted tree stands for the shifted definition. -/
theorem DefinitionTree.definition_shifted (tree : DefinitionTree) :
    (tree.shifted shift).definition = tree.definition.shifted shift := by
  have generics : (((tree.generics.map (GenericsTree.shifted shift)).map
      GenericsTree.generics).getD (.empty ((⟨tree.ports.opening.start,
        tree.ports.opening.start⟩ : Span).shifted shift))) =
      ((tree.generics.map GenericsTree.generics).getD
        (.empty ⟨tree.ports.opening.start, tree.ports.opening.start⟩)).shifted shift := by
    cases tree.generics with
    | none => rfl
    | some generics => exact generics.generics_shifted
  have stop : stopAfter (shift tree.ports.closing.stop)
      (bodyLexemes (tree.body.map (ItemTree.shifted shift))) =
        shift (stopAfter tree.ports.closing.stop (bodyLexemes tree.body)) := by
    rw [bodyLexemes_shifted, stopAfter_shifted]
  simp only [definition, shifted, Definition.shifted, PortsTree.ports_shifted, List.flatMap_map,
    ItemTree.uses_shifted, ItemTree.linked_shifted, List.map_flatMap, Definition.mk.injEq,
    Span.shifted, Span.mk.injEq, true_and]
  exact ⟨generics, stop⟩

end Spelling

end FlowDiagram

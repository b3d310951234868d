import FlowDiagram.Proofs.Program.Parts
import FlowDiagram.Proofs.Program.Reading

/-!
# Names in programs

Every identifier of a program that has been read is an identifier token of its source, and so has
the form of one: it is cut from identifier characters, and it is no reserved word.
-/

namespace FlowDiagram

/-! ## Identifier tokens -/

/-- An identifier token is cut from identifier characters. -/
theorem Piece.isIdentName_of_first {c : Char} {rest : List Char} {name : String}
    (isIdent : (Piece.first c rest).kind = .token (.ident name)) : IsIdentName name := by
  unfold Piece.first at isIdent
  split at isIdent
  · cases isIdent
  · split at isIdent
    · cases isIdent
    · split at isIdent
      · unfold Piece.ofDigits at isIdent
        dsimp only at isIdent
        split at isIdent <;> cases isIdent
      · split at isIdent
        · rename_i starts
          unfold Piece.ofWord at isIdent
          dsimp only at isIdent
          split at isIdent
          · cases isIdent
          · rename_i free
            cases isIdent
            refine ⟨⟨c, rest.takeWhile isIdentPart, String.toList_ofList, starts, ?_⟩, free⟩
            exact List.all_eq_true.mp List.all_takeWhile
        · split at isIdent <;> cases isIdent

/-- A name holds nothing but identifier characters. -/
theorem IsIdentName.not_mem {name : String} (named : IsIdentName name) {c : Char}
    (other : isIdentPart c = false) : c ∉ name.toList := by
  obtain ⟨⟨first, rest, spelled, starts, parts⟩, -⟩ := named
  rw [spelled]
  intro member
  rcases List.mem_cons.mp member with rfl | later
  · simp [isIdentPart, starts] at other
  · simp [parts c later] at other

theorem mem_pieces {text : List Char} {piece : Piece} (member : piece ∈ pieces text) :
    ∃ c rest, piece = Piece.first c rest := by
  induction text using pieces.induct with
  | case1 => simp [pieces] at member
  | case2 c rest first ih =>
      rw [pieces] at member
      rcases List.mem_cons.mp member with rfl | later
      · exact ⟨c, rest, rfl⟩
      · exact ih later

theorem mem_lexemesFrom {offset : Nat} {cut : List Piece} {lexeme : Lexeme}
    (member : lexeme ∈ lexemesFrom offset cut) :
    ∃ piece ∈ cut, piece.kind = .token lexeme.token := by
  induction cut generalizing offset with
  | nil => simp [lexemesFrom] at member
  | cons piece rest ih =>
      unfold lexemesFrom at member
      dsimp only at member
      split at member
      · rename_i token isToken
        rcases List.mem_cons.mp member with rfl | later
        · exact ⟨piece, by simp, isToken⟩
        · obtain ⟨found, there, kind⟩ := ih later
          exact ⟨found, by simp [there], kind⟩
      · obtain ⟨found, there, kind⟩ := ih member
        exact ⟨found, by simp [there], kind⟩

theorem isIdentName_of_mem_lexemes {source : List Char} {ident : Ident}
    (member : ident.lexeme ∈ lexemes source) : IsIdentName ident.name := by
  obtain ⟨piece, there, kind⟩ := mem_lexemesFrom member
  obtain ⟨c, rest, rfl⟩ := mem_pieces there
  exact Piece.isIdentName_of_first kind

/-! ## Identifiers of trees -/

variable {ident : Ident}

theorem mem_lexemes_of_identsOf {tree : Option IdentsTree} (member : ident ∈ identsOf tree) :
    ident.lexeme ∈ optional IdentsTree.lexemes tree := by
  cases tree with
  | none => cases member
  | some tree =>
      rcases List.mem_cons.mp member with rfl | further
      · exact List.mem_cons_self
      · obtain ⟨later, there, rfl⟩ := List.mem_map.mp further
        refine List.mem_cons_of_mem _ (List.mem_flatMap.mpr ⟨later, there, ?_⟩)
        simp [furtherLexemes]

theorem GenericsTree.mem_lexemes {tree : GenericsTree} (member : ident ∈ tree.generics.idents) :
    ident.lexeme ∈ tree.lexemes := by
  cases tree with
  | empty place => cases member
  | listed opening universal existential closing =>
      rcases List.mem_append.mp member with held | held
      · have := mem_lexemes_of_identsOf held
        simp [GenericsTree.lexemes, this]
      · cases existential with
        | none => cases held
        | some existential =>
            have among : ident.lexeme ∈ existentialLexemes existential :=
              List.mem_cons_of_mem _ (mem_lexemes_of_identsOf held)
            exact List.mem_cons_of_mem _ (List.mem_append_right _ (List.mem_append_left _ among))

theorem PortsTree.mem_lexemes {tree : PortsTree} (member : ident ∈ tree.ports.idents) :
    ident.lexeme ∈ tree.lexemes := by
  rcases List.mem_append.mp member with held | held
  · have := mem_lexemes_of_identsOf held
    simp [PortsTree.lexemes, this]
  · have := mem_lexemes_of_identsOf held
    simp [PortsTree.lexemes, this]

theorem BoxTree.mem_lexemes {tree : BoxTree} (member : ident ∈ tree.box.idents) :
    ident.lexeme ∈ tree.lexemes := by
  cases tree with
  | signed sign place symbol =>
      have same : ident = symbol := by
        cases sign <;> simpa [BoxTree.box, Sign.box, BoxRef.idents] using member
      simp [BoxTree.lexemes, same]
  | indexed tag opening count place closing =>
      have same : ident = tag := by simpa [BoxTree.box, BoxRef.idents] using member
      simp [BoxTree.lexemes, same]
  | join place => cases member
  | split place => cases member
  | definition name arguments =>
      rcases List.mem_cons.mp member with rfl | held
      · exact List.mem_cons_self
      · cases arguments with
        | none => cases held
        | some arguments => exact List.mem_cons_of_mem _ (GenericsTree.mem_lexemes held)

theorem UseTree.mem_lexemes {tree : UseTree} (member : ident ∈ tree.use.idents) :
    ident.lexeme ∈ tree.lexemes := by
  rcases List.mem_append.mp member with held | held
  · have := BoxTree.mem_lexemes held
    simp [UseTree.lexemes, this]
  · rcases List.mem_append.mp held with held | held
    · have := PortsTree.mem_lexemes held
      simp [UseTree.lexemes, this]
    · rw [List.mem_singleton.mp held]
      simp [UseTree.lexemes, UseTree.use]

theorem PortRefTree.mem_lexemes {tree : PortRefTree} (member : ident ∈ tree.ref.idents) :
    ident.lexeme ∈ tree.lexemes := by
  obtain ⟨first, second⟩ := tree
  cases second with
  | none =>
      have same : ident = first := by
        simpa [PortRefTree.ref, PortRef.boundary, PortRef.idents] using member
      simp [PortRefTree.lexemes, same]
  | some second =>
      have either : ident = first ∨ ident = second.2 := by
        simpa [PortRefTree.ref, PortRef.ofInstance, PortRef.idents] using member
      rcases either with rfl | rfl
      · exact List.mem_cons_self
      · simp [PortRefTree.lexemes, optional, secondLexemes]

theorem LinkTree.mem_lexemes {tree : LinkTree} (member : ident ∈ tree.link.idents) :
    ident.lexeme ∈ tree.lexemes := by
  rcases List.mem_append.mp member with held | held
  · exact List.mem_append_left _ (PortRefTree.mem_lexemes held)
  · exact List.mem_append_right _ (List.mem_cons_of_mem _ (PortRefTree.mem_lexemes held))

theorem ItemTree.mem_lexemes {tree : ItemTree}
    (member : ident ∈ tree.uses.flatMap Use.idents ++ tree.linked.flatMap Link.idents) :
    ident.lexeme ∈ tree.lexemes := by
  cases tree with
  | use tree =>
      have held : ident ∈ tree.use.idents := by
        simpa [ItemTree.uses, ItemTree.linked] using member
      exact UseTree.mem_lexemes held
  | links keyword closed =>
      obtain ⟨link, there, held⟩ := List.mem_flatMap.mp member
      obtain ⟨part, among, rfl⟩ := List.mem_map.mp there
      refine List.mem_cons_of_mem _ (List.mem_flatMap.mpr ⟨part, among, ?_⟩)
      exact List.mem_append_left _ (LinkTree.mem_lexemes held)

theorem DefinitionTree.mem_lexemes {tree : DefinitionTree}
    (member : ident ∈ tree.definition.idents) : ident.lexeme ∈ tree.lexemes := by
  have inBody {item : ItemTree} (there : item ∈ tree.body) (held : ident ∈
      item.uses.flatMap Use.idents ++ item.linked.flatMap Link.idents) :
      ident.lexeme ∈ bodyLexemes tree.body :=
    List.mem_flatMap.mpr ⟨item, there, ItemTree.mem_lexemes held⟩
  have inGenerics (held : ident ∈ tree.definition.generics.idents) :
      ident.lexeme ∈ optional GenericsTree.lexemes tree.generics := by
    unfold DefinitionTree.definition at held
    cases written : tree.generics with
    | none =>
        rw [written] at held
        cases held
    | some generics =>
        rw [written] at held
        exact GenericsTree.mem_lexemes held
  unfold DefinitionTree.lexemes
  simp only [List.mem_cons, List.mem_append, Ident.lexeme_inj, Ident.lexeme_ne_reserved, false_or]
  simp only [Definition.idents, List.mem_cons, List.mem_append] at member
  rcases member with rfl | held | held | held | held
  · exact .inl rfl
  · exact .inr (.inl (inGenerics held))
  · exact .inr (.inr (.inl (PortsTree.mem_lexemes held)))
  · obtain ⟨use, there, held⟩ := List.mem_flatMap.mp held
    obtain ⟨item, among, there⟩ := List.mem_flatMap.mp there
    exact .inr (.inr (.inr (inBody among
      (List.mem_append_left _ (List.mem_flatMap.mpr ⟨use, there, held⟩)))))
  · obtain ⟨link, there, held⟩ := List.mem_flatMap.mp held
    obtain ⟨item, among, there⟩ := List.mem_flatMap.mp there
    exact .inr (.inr (.inr (inBody among
      (List.mem_append_right _ (List.mem_flatMap.mpr ⟨link, there, held⟩)))))

theorem ProgramTree.mem_lexemes {tree : ProgramTree} {length : Nat}
    (member : ident ∈ (tree.program length).idents) : ident.lexeme ∈ tree.lexemes := by
  obtain ⟨definition, there, held⟩ := List.mem_flatMap.mp member
  obtain ⟨part, among, rfl⟩ := List.mem_map.mp there
  exact List.mem_flatMap.mpr ⟨part, among, DefinitionTree.mem_lexemes held⟩

/-- All identifiers of a program that has been read have the form of an identifier. -/
theorem Program.allNamed_of_read {source : List Char} {program : Program}
    (reads : Program.read source = .ok program) : AllNamed program.idents := by
  obtain ⟨tree, spelled, rfl⟩ := Program.read_eq_ok_iff.mp reads
  intro ident member
  have spells := ProgramTree.mem_lexemes member
  rw [spelled] at spells
  exact isIdentName_of_mem_lexemes spells

end FlowDiagram

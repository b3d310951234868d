import FlowDiagram.Proofs.Program.Named
import FlowDiagram.Proofs.Program.Shifting

/-!
# Places of definitions

The span of a definition reaches from its keyword up to its last lexeme.  Read alone, that part of
the source is a program of this one definition, whose spans are counted from where it starts.
-/

namespace FlowDiagram

/-! ## Where definitions end -/

theorem exists_last_of_stopAfter (stop : Nat) {lexemes : List Lexeme} (some_ : lexemes ≠ []) :
    ∃ others last, lexemes = others ++ [last] ∧ last.span.stop = stopAfter stop lexemes := by
  obtain ⟨others, last, ends⟩ := (List.eq_nil_or_concat lexemes).resolve_left some_
  rw [List.concat_eq_append] at ends
  refine ⟨others, last, ends, ?_⟩
  rw [ends, stopAfter_append]
  rfl

/-- Also without a body, and after an empty block of links, a definition stops with a lexeme. -/
theorem DefinitionTree.exists_last (tree : DefinitionTree) :
    ∃ others last, tree.lexemes = others ++ [last] ∧
      last.span.stop = tree.definition.span.stop := by
  have ports (stop : Nat) : stopAfter stop tree.ports.lexemes = tree.ports.closing.stop := by
    simp [PortsTree.lexemes, stopAfter]
  have stop : stopAfter 0 tree.lexemes = tree.definition.span.stop := by
    change stopAfter tree.equals.stop _ = _
    rw [stopAfter_append, stopAfter_append, ports]
    rfl
  rw [← stop]
  exact exists_last_of_stopAfter 0 (List.cons_ne_nil _ _)

/-! ## Definitions counted from elsewhere and back -/

theorem Lexeme.shifted_back {base : Nat} {lexeme : Lexeme} (start : base ≤ lexeme.span.start)
    (stop : base ≤ lexeme.span.stop) :
    (lexeme.shifted (· - base)).shifted (· + base) = lexeme := by
  simp [shifted, Span.shifted, Nat.sub_add_cancel start, Nat.sub_add_cancel stop]

/-- Counting from a byte that no lexeme stands before loses nothing. -/
theorem DefinitionTree.shifted_back {base : Nat} {tree : DefinitionTree}
    (behind : ∀ lexeme ∈ tree.lexemes, base ≤ lexeme.span.start ∧ base ≤ lexeme.span.stop) :
    (tree.definition.shifted (· - base)).shifted (· + base) = tree.definition := by
  have spelled : ((tree.shifted (· - base)).shifted (· + base)).lexemes = tree.lexemes := by
    rw [lexemes_shifted, lexemes_shifted, List.map_map]
    refine (List.map_congr_left fun lexeme member => ?_).trans (List.map_id _)
    exact Lexeme.shifted_back (behind lexeme member).1 (behind lexeme member).2
  obtain ⟨same, -⟩ := unambiguous (by simp) (by simp) (congrArg (· ++ []) spelled)
  rw [← definition_shifted, ← definition_shifted, same]

/-! ## Definitions in a source -/

section Sources

variable {source : List Char} {part : DefinitionTree} {earlier later : List Lexeme}

/-- No lexeme of a definition reaches before its keyword. -/
theorem behind_start (there : lexemes source = earlier ++ (part.lexemes ++ later)) :
    ∀ lexeme ∈ part.lexemes, part.definition.span.start ≤ lexeme.span.start ∧
      part.definition.span.start ≤ lexeme.span.stop := by
  have member {lexeme : Lexeme} (held : lexeme ∈ part.lexemes) : lexeme ∈ lexemes source := by
    rw [there]
    exact List.mem_append_right _ (List.mem_append_left _ held)
  have ordered := lexemes_increasing source
  rw [there, List.pairwise_append, List.pairwise_append] at ordered
  have behind := (List.pairwise_cons.mp ordered.2.1.1).1
  have start : ∀ lexeme ∈ part.lexemes, part.definition.span.start ≤ lexeme.span.start := by
    intro lexeme held
    rcases List.mem_cons.mp held with rfl | further
    · exact Nat.le_refl _
    · exact Nat.le_trans (Nat.le_of_lt (lexemes_within _ (member List.mem_cons_self)))
        (behind lexeme further)
  exact fun lexeme held => ⟨start lexeme held,
    Nat.le_trans (start lexeme held) (Nat.le_of_lt (lexemes_within _ (member held)))⟩

/-- The part of a source that a definition was read from is read as this definition alone. -/
theorem exists_read_alone (there : lexemes source = earlier ++ (part.lexemes ++ later)) :
    ∃ first text last program, part.definition.span.Cuts source first text last ∧
      Program.read text = .ok program ∧ program.definitions =
        [part.definition.shifted (· - part.definition.span.start)] := by
  obtain ⟨others, last, ends, stop⟩ := part.exists_last
  obtain ⟨first, text, after, cuts, spelled⟩ := exists_cuts there rfl ends
  rw [stop] at cuts
  have alone : (⟨[part.shifted (· - part.definition.span.start)]⟩ : ProgramTree).lexemes =
      lexemes text := by
    rw [spelled, ProgramTree.lexemes, List.flatMap_cons, List.flatMap_nil, List.append_nil,
      DefinitionTree.lexemes_shifted]
    rfl
  refine ⟨first, text, after, _, cuts, Program.read_eq_ok_iff.mpr ⟨_, alone, rfl⟩, ?_⟩
  rw [← DefinitionTree.definition_shifted]
  rfl

end Sources

/-- The lexemes of a definition, among those of its program. -/
theorem ProgramTree.exists_lexemes {tree : ProgramTree} {part : DefinitionTree}
    (member : part ∈ tree.definitions) :
    ∃ earlier later, tree.lexemes = earlier ++ (part.lexemes ++ later) := by
  obtain ⟨before, after, whole⟩ := List.append_of_mem member
  refine ⟨before.flatMap DefinitionTree.lexemes, after.flatMap DefinitionTree.lexemes, ?_⟩
  rw [lexemes, whole, List.flatMap_append, List.flatMap_cons]

/-- Definitions do not overlap, and come in the order of the source. -/
theorem ProgramTree.definitions_increasing {source : List Char} {tree : ProgramTree}
    (spelled : tree.lexemes = FlowDiagram.lexemes source) :
    tree.definitions.Pairwise fun first second =>
      first.definition.span.stop ≤ second.definition.span.start := by
  have ordered := lexemes_increasing source
  rw [← spelled, ProgramTree.lexemes, List.pairwise_flatMap] at ordered
  refine ordered.2.imp fun {first second} apart => ?_
  obtain ⟨others, last, ends, stop⟩ := first.exists_last
  rw [← stop]
  exact apart last (by simp [ends]) _ List.mem_cons_self

/--
Spans are faithful.  In a source that yields a program, the span of each identifier cuts out its
name.  The span of each definition cuts out a text that yields, read alone, a program of exactly
this definition, with all of its spans counted from where that text starts; none of them reaches
before that place, so that counting back gives the definition itself.  The spans of definitions do
not overlap, and come in the order of the source.
-/
theorem readSource_spans_faithful {source : List Char} {program : Program}
    (yields : (readSource source).program = some program) :
    (∀ ident ∈ program.idents, ∃ first last,
      ident.span.Cuts source first ident.name.toList last) ∧
    (∀ definition ∈ program.definitions, ∃ first text last alone,
      definition.span.Cuts source first text last ∧
      (readSource text).program = some alone ∧
      alone.definitions = [definition.shifted (· - definition.span.start)] ∧
      (definition.shifted (· - definition.span.start)).shifted (· + definition.span.start) =
        definition) ∧
    program.definitions.Pairwise fun first second => first.span.stop ≤ second.span.start := by
  obtain ⟨tree, spelled, rfl⟩ :=
    Program.read_eq_ok_iff.mp (readSource_program_eq_some.mp yields)
  refine ⟨?_, ?_, ?_⟩
  · intro ident member
    have held : ident.lexeme ∈ lexemes source := spelled ▸ ProgramTree.mem_lexemes member
    obtain ⟨first, text, last, cuts, has⟩ := exists_cuts_token held
    rw [Token.HasText.eq_name has] at cuts
    exact ⟨first, last, cuts⟩
  · intro definition member
    obtain ⟨part, among, rfl⟩ := List.mem_map.mp member
    obtain ⟨earlier, later, there⟩ := ProgramTree.exists_lexemes among
    have there := spelled.symm.trans there
    obtain ⟨first, text, last, alone, cuts, reads, definitions⟩ := exists_read_alone there
    exact ⟨first, text, last, alone, cuts, readSource_program_eq_some.mpr reads, definitions,
      DefinitionTree.shifted_back (behind_start there)⟩
  · exact List.pairwise_map.mpr (ProgramTree.definitions_increasing spelled)

/--
Two definitions without generics, with a comment and a fault in the first, which an empty block of
links ends.
-/
def scatteredSource : String :=
  "é def f = [a|b] # ä\n  use *x [a|c] as u € link u.c >-> b, link def g=[|]"

theorem readSource_spans_faithful_scattered :
    (lexicalFaults scatteredSource.toList).map (·.span) = [⟨0, 2⟩, ⟨42, 45⟩] ∧
    ∃ program, (readSource scatteredSource.toList).program = some program ∧
      program.definitions.map (·.span) = [⟨3, 66⟩, ⟨67, 76⟩] ∧
      program.definitions.map (·.generics.span) = [⟨11, 11⟩, ⟨73, 73⟩] ∧
      (∀ ident ∈ program.idents, ∃ first last,
        ident.span.Cuts scatteredSource.toList first ident.name.toList last) ∧
      ∀ definition ∈ program.definitions, ∃ first text last alone,
        definition.span.Cuts scatteredSource.toList first text last ∧
        (readSource text).program = some alone ∧
        alone.definitions = [definition.shifted (· - definition.span.start)] := by
  refine ⟨by decide +kernel, ?_⟩
  have places : ((readSource scatteredSource.toList).program.map fun program =>
      (program.definitions.map (·.span), program.definitions.map (·.generics.span))) =
        some ([⟨3, 66⟩, ⟨67, 76⟩], [⟨11, 11⟩, ⟨73, 73⟩]) := by
    decide +kernel
  obtain ⟨program, yields, same⟩ := Option.map_eq_some_iff.mp places
  obtain ⟨spans, generics⟩ := Prod.mk.inj same
  obtain ⟨named, alone, -⟩ := readSource_spans_faithful yields
  refine ⟨program, yields, spans, generics, named, fun definition member => ?_⟩
  obtain ⟨first, text, last, part, cuts, reads, same, -⟩ := alone definition member
  exact ⟨first, text, last, part, cuts, reads, same⟩

end FlowDiagram

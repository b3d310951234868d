import FlowDiagram.Proofs.Program.Named
import FlowDiagram.Proofs.Resolution.Soundness
import FlowDiagram.Proofs.Symbol.Renumbering

/-!
# Written programs

No symbol of a program that has been read holds a `#`, as that starts a comment; so none of them is
taken for one made by an introduction.  Reading brings in identifiers only from identifier tokens,
and resolution brings in no symbols at all.
-/

namespace FlowDiagram

/-! ## Resolved programs -/

/-- The symbols that a use names can be written. -/
def ResolvedUse.IsWritten (use : ResolvedUse) : Prop :=
  match use.target with
  | .primitive primitive => ∀ symbol ∈ primitive.symbol?, symbol.IsWritten
  | .definition _ arguments _ => ∀ symbol ∈ arguments, symbol.IsWritten

structure ResolvedDefinition.IsWritten (definition : ResolvedDefinition) : Prop where
  parameters : ∀ symbol ∈ definition.parameters, symbol.IsWritten
  uses : ∀ use ∈ definition.uses, use.IsWritten

def ResolvedProgram.IsWritten (program : ResolvedProgram) : Prop :=
  ∀ definition ∈ program.definitions, definition.IsWritten

/-! ## Programs -/

def Ident.IsWritten (ident : Ident) : Prop :=
  Symbol.IsWritten ident.name

def Generics.IsWritten (generics : Generics) : Prop :=
  (∀ ident ∈ generics.universal, ident.IsWritten) ∧
    ∀ ident ∈ generics.existential, ident.IsWritten

def BoxRef.IsWritten : BoxRef → Prop
  | .add symbol | .remove symbol | .spawn symbol => symbol.IsWritten
  | .indexed .. | .join _ | .split _ => True
  | .definition _ arguments => ∀ generics ∈ arguments, generics.IsWritten

structure Definition.IsWritten (definition : Definition) : Prop where
  generics : definition.generics.IsWritten
  uses : ∀ use ∈ definition.uses, use.box.IsWritten

def Program.IsWritten (program : Program) : Prop :=
  ∀ definition ∈ program.definitions, definition.IsWritten

theorem append_written {more idents : List Ident} (moreWritten : ∀ ident ∈ more, ident.IsWritten)
    (identsWritten : ∀ ident ∈ idents, ident.IsWritten) :
    ∀ ident ∈ more ++ idents, ident.IsWritten := by
  intro ident member
  rcases List.mem_append.mp member with new | old
  · exact moreWritten ident new
  · exact identsWritten ident old

/-- The form of an identifier leaves no room for a `#`. -/
theorem IsIdentName.isWritten {name : String} (named : IsIdentName name) :
    Symbol.IsWritten name :=
  named.not_mem (by decide)

theorem BoxRef.isWritten_of_allNamed {box : BoxRef} (named : AllNamed box.idents) :
    box.IsWritten := by
  cases box with
  | add symbol | remove symbol | spawn symbol => exact (allNamed_cons.mp named).1.isWritten
  | indexed tag count span => trivial
  | join span | split span => trivial
  | definition name arguments =>
      rintro given rfl
      obtain ⟨-, universal, existential⟩ : _ ∧ AllNamed given.universal ∧
          AllNamed given.existential := by
        simpa [BoxRef.idents, Generics.idents] using named
      exact ⟨fun ident held => (universal ident held).isWritten,
        fun ident held => (existential ident held).isWritten⟩

theorem Definition.isWritten_of_allNamed {definition : Definition}
    (named : AllNamed definition.idents) : definition.IsWritten := by
  obtain ⟨-, generics, -, uses, -⟩ : _ ∧ AllNamed definition.generics.idents ∧ _ ∧
      AllNamed (definition.uses.flatMap Use.idents) ∧ _ := by
    simpa only [Definition.idents, allNamed_cons, allNamed_append] using named
  obtain ⟨universal, existential⟩ := allNamed_append.mp generics
  refine ⟨⟨fun ident held => (universal ident held).isWritten,
    fun ident held => (existential ident held).isWritten⟩, ?_⟩
  intro use member
  exact BoxRef.isWritten_of_allNamed (allNamed_append.mp (uses.of_mem member)).1

/-- What has been read from a source can be written. -/
theorem Program.isWritten_of_read {source : List Char} {program : Program}
    (reads : Program.read source = .ok program) : program.IsWritten :=
  fun _ member => Definition.isWritten_of_allNamed ((Program.allNamed_of_read reads).of_mem member)

/-! ## Resolution -/

/-- What a use is bound to names symbols of the use and of the definition used. -/
theorem bindGenerics_isWritten {callee : Definition} (calleeWritten : callee.generics.IsWritten)
    {arguments : Option Generics} (written_ : ∀ given ∈ arguments, given.IsWritten)
    {symbols : List Symbol} {fresh : Bool}
    (bound : bindGenerics callee arguments = .ok (symbols, fresh)) :
    ∀ symbol ∈ symbols, symbol.IsWritten := by
  have named : ∀ (first second : List Ident), (∀ ident ∈ first, ident.IsWritten) →
      (∀ ident ∈ second, ident.IsWritten) →
      ∀ symbol ∈ (first ++ second).map (·.name), Symbol.IsWritten symbol := by
    intro first second firstWritten secondWritten symbol member
    obtain ⟨ident, held, rfl⟩ := List.mem_map.mp member
    exact append_written firstWritten secondWritten ident held
  unfold bindGenerics at bound
  split at bound
  · cases bound
    exact named _ _ calleeWritten.1 calleeWritten.2
  · rename_i given
    have givenWritten := written_ given rfl
    split at bound
    · split at bound
      · cases bound
        exact named _ _ givenWritten.1 calleeWritten.2
      · cases bound
        exact named _ _ givenWritten.1 givenWritten.2
    · cases bound

theorem Primitive.lookup_isWritten {tag : String} {argument : CatalogArgument}
    {primitive : Primitive} (found : Primitive.lookup tag argument = .ok primitive) :
    ∀ symbol ∈ primitive.symbol?, argument = .symbol symbol := by
  unfold Primitive.lookup at found
  split at found <;> cases found <;> simp [Primitive.symbol?]

theorem BoxRef.IsWritten.primitive {box : BoxRef} (written_ : box.IsWritten)
    {primitive : Primitive} (found : box.primitive? = some (.ok primitive)) :
    ∀ symbol ∈ primitive.symbol?, symbol.IsWritten := by
  intro symbol member
  cases box with
  | add name | remove name | spawn name =>
      have named := Primitive.lookup_isWritten (Option.some.inj found) symbol member
      cases named
      exact written_
  | indexed tag count span =>
      have named := Primitive.lookup_isWritten (Option.some.inj found) symbol member
      cases named
  | join span | split span =>
      have named := Primitive.lookup_isWritten (Option.some.inj found) symbol member
      cases named
  | definition name arguments => cases found

theorem Use.resolve_isWritten {program : Program} (written_ : program.IsWritten)
    {registry : Registry} {use : Use} (useWritten : use.box.IsWritten) {resolved : ResolvedUse}
    (bound : use.resolve program registry = .ok resolved) : resolved.IsWritten := by
  unfold Use.resolve at bound
  unfold ResolvedUse.IsWritten
  split at bound
  · rename_i name arguments hbox
    rw [hbox] at useWritten
    unfold Use.resolveDefinition at bound
    split at bound
    · cases bound
    · split at bound
      · cases bound
      · rename_i callee found
        obtain ⟨⟨symbols, fresh⟩, hsymbols, bound⟩ := exists_ok_of_bind bound
        rw [(Use.bindPorts_ok bound).1]
        have calleeWritten := (written_ callee (List.mem_of_getElem? found)).generics
        exact bindGenerics_isWritten calleeWritten useWritten hsymbols
  · split at bound
    · rename_i primitive found
      rw [(Use.bindPorts_ok bound).1]
      exact useWritten.primitive found
    · cases bound
    · cases bound

theorem Instances.foldl_isWritten {program : Program} (written_ : program.IsWritten)
    (registry : Registry) (definition : String) {uses : List Use}
    (usesWritten : ∀ use ∈ uses, use.box.IsWritten) {known : Instances}
    (knownWritten : ∀ use ∈ known.uses, use.IsWritten) :
    ∀ use ∈ (uses.foldl (Instances.add program registry definition) known).uses,
      use.IsWritten := by
  induction uses generalizing known with
  | nil => exact knownWritten
  | cons use rest ih =>
      refine ih (fun other member => usesWritten other (by simp [member])) ?_
      unfold Instances.add
      split
      · exact knownWritten
      · dsimp only
        split
        · rename_i resolved bound
          intro other member
          rcases List.mem_append.mp member with old | new
          · exact knownWritten other old
          · rw [List.mem_singleton.mp new]
            exact Use.resolve_isWritten written_ (usesWritten use (by simp)) bound
        · exact knownWritten

/-- Binding a program brings in no symbols. -/
theorem Program.IsWritten.resolved {program : Program} (written_ : program.IsWritten) :
    program.resolved.IsWritten := by
  intro resolved member
  obtain ⟨result, listed, rfl⟩ := List.mem_map.mp member
  obtain ⟨definition, held, rfl⟩ := List.mem_map.mp listed
  have definitionWritten := written_ definition held
  constructor
  · intro symbol parameter
    simp only [ResolvedDefinition.parameters, Definition.resolve, ← List.map_append] at parameter
    obtain ⟨ident, named, rfl⟩ := List.mem_map.mp parameter
    exact append_written definitionWritten.generics.1 definitionWritten.generics.2 ident named
  · exact Instances.foldl_isWritten written_ _ _ definitionWritten.uses (by simp [Instances.empty])

end FlowDiagram

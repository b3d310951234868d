import FlowDiagram.Proofs.Expansion.Reaching
import FlowDiagram.Proofs.Expansion.Unfolded
import FlowDiagram.Proofs.Program.Written
import FlowDiagram.Proofs.Signature.Renaming

/-!
# Symbols of what is expanded

Resolution and expansion make up no symbols.  Those on which the primitives of a graph act are names
in its program, such names with the number of an introduction, or generators that were given.  What
is inferred of the graph is about no other symbols.
-/

namespace FlowDiagram

/-! ## Symbols of a resolved program -/

section Resolution

variable {program : Program} {symbol : Symbol}

theorem BoxRef.exists_ident_of_primitive {box : BoxRef} {primitive : Primitive}
    (found : box.primitive? = some (.ok primitive)) (acts : symbol ∈ primitive.symbol?) :
    ∃ ident ∈ box.idents, ident.name = symbol := by
  cases box with
  | add name | remove name | spawn name =>
      have named := Primitive.lookup_isWritten (Option.some.inj found) symbol acts
      cases named
      exact ⟨name, List.mem_singleton_self name, rfl⟩
  | indexed tag count span =>
      have named := Primitive.lookup_isWritten (Option.some.inj found) symbol acts
      cases named
  | join span | split span =>
      have named := Primitive.lookup_isWritten (Option.some.inj found) symbol acts
      cases named
  | definition name arguments => cases found

/-- What a use passes on is named by the use or by the definition used. -/
theorem exists_ident_of_bindGenerics {callee : Definition} {arguments : Option Generics}
    {symbols : List Symbol} {fresh : Bool}
    (bound : bindGenerics callee arguments = .ok (symbols, fresh)) (member : symbol ∈ symbols) :
    ∃ ident ∈ arguments.elim [] Generics.idents ++ callee.generics.idents, ident.name = symbol := by
  unfold bindGenerics at bound
  split at bound
  · cases bound
    obtain ⟨ident, held, rfl⟩ := List.mem_map.mp member
    exact ⟨ident, held, rfl⟩
  · split at bound
    · split at bound
      · cases bound
        obtain ⟨ident, held, rfl⟩ := List.mem_map.mp member
        refine ⟨ident, ?_, rfl⟩
        rcases List.mem_append.mp held with given | own
        · exact List.mem_append_left _ (List.mem_append_left _ given)
        · exact List.mem_append_right _ (List.mem_append_right _ own)
      · cases bound
        obtain ⟨ident, held, rfl⟩ := List.mem_map.mp member
        exact ⟨ident, List.mem_append_left _ held, rfl⟩
    · cases bound

theorem Definition.mem_idents_of_generics {definition : Definition}
    (listed : definition ∈ program.definitions) {ident : Ident}
    (held : ident ∈ definition.generics.idents) : ident ∈ program.idents :=
  List.mem_flatMap.mpr ⟨definition, listed, List.mem_cons_of_mem _ (List.mem_append_left _ held)⟩

theorem Use.exists_ident_of_resolve {registry : Registry} {use : Use} {resolved : ResolvedUse}
    (bound : use.resolve program registry = .ok resolved) (named : symbol ∈ resolved.symbols) :
    ∃ ident ∈ use.box.idents ++ program.idents, ident.name = symbol := by
  unfold Use.resolve at bound
  unfold ResolvedUse.symbols at named
  split at bound
  · rename_i name arguments hbox
    unfold Use.resolveDefinition at bound
    split at bound
    · cases bound
    · split at bound
      · cases bound
      · rename_i callee found
        obtain ⟨⟨symbols, fresh⟩, hsymbols, bound⟩ := exists_ok_of_bind bound
        rw [(Use.bindPorts_ok bound).1] at named
        obtain ⟨ident, held, rfl⟩ := exists_ident_of_bindGenerics hsymbols named
        refine ⟨ident, ?_, rfl⟩
        rcases List.mem_append.mp held with given | own
        · rw [hbox]
          exact List.mem_append_left _ (List.mem_cons_of_mem _ given)
        · exact List.mem_append_right _
            (Definition.mem_idents_of_generics (List.mem_of_getElem? found) own)
  · split at bound
    · rename_i primitive found
      rw [(Use.bindPorts_ok bound).1] at named
      obtain ⟨ident, held, rfl⟩ :=
        BoxRef.exists_ident_of_primitive found (Option.mem_toList.mp named)
      exact ⟨ident, List.mem_append_left _ held, rfl⟩
    · cases bound
    · cases bound

/-- All symbols of a resolved program are names in the program. -/
theorem Program.exists_ident_of_symbol (named : symbol ∈ program.resolved.symbols) :
    ∃ ident ∈ program.idents, ident.name = symbol := by
  obtain ⟨body, listed, inBody⟩ := List.mem_flatMap.mp named
  obtain ⟨index, found⟩ := List.mem_iff_getElem?.mp listed
  rw [program.resolved_getElem?] at found
  obtain ⟨definition, there, rfl⟩ := Option.map_eq_some_iff.mp found
  have definitionListed := List.mem_of_getElem? there
  rcases List.mem_append.mp inBody with parameter | inUses
  · have own : symbol ∈ definition.generics.idents.map (·.name) := by
      rw [Generics.idents, List.map_append]
      exact parameter
    obtain ⟨ident, held, rfl⟩ := List.mem_map.mp own
    exact ⟨ident, Definition.mem_idents_of_generics definitionListed held, rfl⟩
  · obtain ⟨bound, used, acts⟩ := List.mem_flatMap.mp inUses
    obtain ⟨use, member, resolves⟩ := Program.use_of_bound used
    obtain ⟨ident, among, rfl⟩ := Use.exists_ident_of_resolve resolves acts
    refine ⟨ident, ?_, rfl⟩
    rcases List.mem_append.mp among with box | elsewhere
    · refine List.mem_flatMap.mpr ⟨definition, definitionListed, ?_⟩
      simp only [Definition.idents, List.mem_cons, List.mem_append, List.mem_flatMap]
      exact .inr (.inr (.inr (.inl ⟨use, member, List.mem_append_left _ box⟩)))
    · exact elsewhere

end Resolution

/-! ## Symbols of an expansion -/

namespace ResolvedProgram

variable {program : ResolvedProgram} {root : program.Index} {generators : Option (List Symbol)}
  {limits : UnfoldingLimits} {graph : PortGraph} {known : Set Symbol}

/-- All that a program names, and all that it can introduce, is known. -/
structure StaysIn (program : ResolvedProgram) (known : Set Symbol) : Prop where
  named : ∀ symbol ∈ program.symbols, symbol ∈ known
  introduced : ∀ symbol ∈ program.symbols, ∀ number, symbol.fresh number ∈ known

/-- Without generators a root is expanded under its own parameters. -/
theorem expand_none :
    program.expand root none limits =
      program.expand root (some (program.definition root).universal) limits := by
  simp only [expand, ResolvedDefinition.rootBinding, if_pos, ResolvedDefinition.parameters]

theorem StaysIn.universal (stays : program.StaysIn known) :
    ∀ symbol ∈ (program.definition root).universal, symbol ∈ known :=
  fun symbol member => stays.named symbol (List.mem_flatMap.mpr
    ⟨_, definition_mem root, List.mem_append_left _ (List.mem_append_left _ member)⟩)

/--
An expansion under known generators acts on known symbols only: a renaming that leaves alone these
and no others leaves alone the graph, and so each symbol in it.
-/
theorem StaysIn.known_of_expand_some (stays : program.StaysIn known) {generators : List Symbol}
    (given : ∀ symbol ∈ generators, symbol ∈ known)
    (expanded : program.expand root (some generators) limits = .ok graph) :
    ∀ symbol ∈ PortGraph.namedBy graph.sites, symbol ∈ known := by
  classical
  let moves : Symbol → Symbol := fun symbol => if symbol ∈ known then symbol else symbol ++ "#"
  have fixed {symbol : Symbol} (inside : symbol ∈ known) : moves symbol = symbol := if_pos inside
  have untold : program.Untold moves known :=
    ⟨fun symbol member => ⟨stays.named symbol member, fixed (stays.named symbol member)⟩,
      fun symbol member number =>
        ⟨stays.introduced symbol member number, fixed (stays.introduced symbol member number)⟩,
      fun first inside second alsoInside same => by rwa [fixed inside, fixed alsoInside] at same⟩
  have renamed := untold.expand_rename root given limits
  rw [(List.map_congr_left fun symbol member => fixed (given symbol member)).trans
    (List.map_id generators), expanded] at renamed
  have same : graph.rename moves = graph.rename id :=
    (Except.ok.inj renamed).symm.trans graph.rename_id.symm
  intro symbol acts
  by_contra outside
  have kept : moves symbol = symbol := PortGraph.agree_of_rename_eq same symbol acts
  have longer := congrArg (fun text => text.toList.length) kept
  simp [moves, outside] at longer

theorem StaysIn.known_of_expand (stays : program.StaysIn known)
    (given : ∀ given ∈ generators, ∀ symbol ∈ given, symbol ∈ known)
    (expanded : program.expand root generators limits = .ok graph) :
    ∀ symbol ∈ PortGraph.namedBy graph.sites, symbol ∈ known := by
  cases generators with
  | none =>
      rw [expand_none] at expanded
      exact stays.known_of_expand_some stays.universal expanded
  | some generators => exact stays.known_of_expand_some (given generators rfl) expanded

/-- The ports of an expanded graph are those of its root. -/
theorem ports_of_expand (sound : program.Sound)
    (expanded : program.expand root generators limits = .ok graph) :
    graph.inputs = (program.definition root).inputs ∧
      graph.outputs = (program.definition root).outputs := by
  obtain ⟨binding, unfolding, -, shown⟩ := shown_of_expand sound expanded
  exact ⟨congrArg GraphPlan.inputs shown.plan, congrArg GraphPlan.outputs shown.plan⟩

end ResolvedProgram

/-! ## What is inferred -/

/-- A signature of ports with certain names, in which certain symbols are told. -/
structure Signature.Tells (names : List String) (symbols : List Symbol) (signature : Signature) :
    Prop where
  names : ∀ port ∈ signature.inputs ++ signature.outputs, port.name ∈ names
  symbols : ∀ port ∈ signature.inputs ++ signature.outputs, ∀ sort,
    ∀ symbol ∈ port.type.known sort, symbol ∈ symbols

/-- A signature tells of the ports of a graph the symbols on which its primitives act. -/
theorem PortGraph.tells_of_infer {graph : PortGraph} {expired : Bool} {signature : Signature}
    (inferred : graph.infer expired = .ok signature) :
    signature.Tells (graph.inputs ++ graph.outputs) (namedBy graph.sites) := by
  rw [infer_eq_ite] at inferred
  split at inferred
  · cases inferred
  · obtain ⟨-, rfl⟩ := infer_eq_ok_iff.mp inferred
    have about : (graph.facts graph.sites).Within (Facts.about (namedBy graph.sites)) :=
      graph.facts_within fun site member =>
        View.closed_of_symbols (fun _ acts => mem_namedBy member acts) site.inputs site.outputs
    have type (wire : Option Wire) (sort : Bool) :
        ∀ symbol ∈ ((wire.map (graph.facts graph.sites).get).getD .unknown).known sort,
          symbol ∈ namedBy graph.sites := by
      intro symbol member
      cases wire with
      | none =>
          cases sort <;> exact absurd member (SymbolSet.not_mem_empty symbol)
      | some wire => exact about wire sort symbol member
    constructor
    · intro port member
      rcases List.mem_append.mp member with input | output
      · obtain ⟨⟨name, number⟩, listed, rfl⟩ := List.mem_map.mp input
        exact List.mem_append_left _ (List.fst_mem_of_mem_zipIdx listed)
      · obtain ⟨⟨name, number⟩, listed, rfl⟩ := List.mem_map.mp output
        exact List.mem_append_right _ (List.fst_mem_of_mem_zipIdx listed)
    · intro port member sort
      rcases List.mem_append.mp member with input | output
      · obtain ⟨⟨name, number⟩, -, rfl⟩ := List.mem_map.mp input
        exact type _ sort
      · obtain ⟨⟨name, number⟩, -, rfl⟩ := List.mem_map.mp output
        exact type _ sort

end FlowDiagram

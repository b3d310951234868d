import FlowDiagram.Proofs.Compilation.Unused
import FlowDiagram.Proofs.Expansion.Symbols
import FlowDiagram.Service.Message

/-!
# Typings in headers

A typing is sent in a header if it fits there, that is if it has none of the characters U+0000 to
U+001F, tabs (U+0009) apart, and no U+007F.  A typing is made of marks, identifiers and the written
names of symbols; so the only thing that can keep it from fitting is a generator with one of these
characters in it, as a request may give any texts for generators.
-/

namespace FlowDiagram

/-! ## Texts that fit into a header -/

section Texts

variable {text : String} {parts : List String}

theorem isHeaderText_iff :
    isHeaderText text = true ↔
      ∀ c ∈ text.toList, c = '\t' ∨ (32 ≤ c.toNat ∧ c.toNat ≠ 127) := by
  simp [isHeaderText]

@[simp]
theorem isHeaderText_append (first second : String) :
    isHeaderText (first ++ second) = (isHeaderText first && isHeaderText second) := by
  simp [isHeaderText]

theorem isHeaderText_commaList (fit : ∀ part ∈ parts, isHeaderText part = true) :
    isHeaderText (Text.commaList parts) = true := by
  unfold Text.commaList
  induction parts with
  | nil => rfl
  | cons first rest ih =>
      obtain ⟨firstFits, restFit⟩ := List.forall_mem_cons.mp fit
      cases rest with
      | nil => rwa [String.intercalate_singleton]
      | cons second more =>
          rw [String.intercalate_cons_cons, isHeaderText_append, isHeaderText_append, firstFits,
            ih restFit]
          rfl

theorem toNat_of_isIdentPart {c : Char} (part : isIdentPart c = true) :
    32 ≤ c.toNat ∧ c.toNat ≠ 127 := by
  have between {low high : Char} (above : low ≤ c) (below : c ≤ high) (printed : 32 ≤ low.toNat)
      (short : high.toNat < 127) : 32 ≤ c.toNat ∧ c.toNat ≠ 127 :=
    ⟨Nat.le_trans printed above, Nat.ne_of_lt (Nat.lt_of_le_of_lt below short)⟩
  simp only [isIdentPart, isIdentStart, isDigit, Bool.or_eq_true, Bool.and_eq_true,
    decide_eq_true_eq, beq_iff_eq] at part
  rcases part with ((lower | upper) | rfl) | digit
  · exact between lower.1 lower.2 (by decide) (by decide)
  · exact between upper.1 upper.2 (by decide) (by decide)
  · decide
  · exact between digit.1 digit.2 (by decide) (by decide)

theorem IsIdentName.isHeaderText (named : IsIdentName text) : isHeaderText text = true := by
  refine isHeaderText_iff.mpr fun c member => .inr ?_
  by_contra unfit
  refine named.not_mem ?_ member
  rw [← Bool.not_eq_true]
  exact fun part => unfit (toNat_of_isIdentPart part)

theorem isHeaderText_written {symbol : Symbol} (fits : isHeaderText symbol = true) :
    isHeaderText symbol.written = true := by
  refine isHeaderText_iff.mpr fun c member => isHeaderText_iff.mp fits c ?_
  unfold Symbol.written at member
  rw [String.toList_ofList] at member
  exact (List.takeWhile_sublist _).subset member

end Texts

/-! ## Texts of signatures -/

theorem PortType.isHeaderText_text {type : PortType}
    (fit : ∀ sort, ∀ symbol ∈ type.known sort, isHeaderText symbol.written = true) :
    isHeaderText type.text = true := by
  have parts : ∀ part ∈ type.includes.written ++ type.excludes.written.map ("!" ++ ·),
      isHeaderText part = true := by
    intro part member
    rcases List.mem_append.mp member with carried | lacked
    · obtain ⟨symbol, known, rfl⟩ := SymbolSet.mem_written.mp carried
      exact fit true symbol known
    · obtain ⟨name, listed, rfl⟩ := List.mem_map.mp lacked
      obtain ⟨symbol, known, rfl⟩ := SymbolSet.mem_written.mp listed
      rw [isHeaderText_append, fit false symbol known]
      rfl
  unfold text
  rw [isHeaderText_append, isHeaderText_append, isHeaderText_commaList parts]
  rfl

/-- A signature fits if the names of its ports do, and the written names of the symbols told. -/
theorem Signature.Tells.isHeaderText_text {names : List String} {symbols : List Symbol}
    {signature : Signature} (tells : signature.Tells names symbols)
    (namesFit : ∀ name ∈ names, isHeaderText name = true)
    (symbolsFit : ∀ symbol ∈ symbols, isHeaderText symbol.written = true) :
    isHeaderText signature.text = true := by
  have port : ∀ port ∈ signature.inputs ++ signature.outputs, isHeaderText port.text = true := by
    intro port member
    have type := PortType.isHeaderText_text fun sort symbol known =>
      symbolsFit symbol (tells.symbols port member sort symbol known)
    unfold PortSignature.text
    rw [isHeaderText_append, isHeaderText_append, type, namesFit _ (tells.names port member)]
    rfl
  have list {ports : List PortSignature} (within : ports ⊆ signature.inputs ++ signature.outputs) :
      isHeaderText (Text.commaList (ports.map PortSignature.text)) = true :=
    isHeaderText_commaList (List.forall_mem_map.mpr fun one member => port one (within member))
  unfold text
  rw [isHeaderText_append, isHeaderText_append, isHeaderText_append, isHeaderText_append,
    list (List.subset_append_left _ _), list (List.subset_append_right _ _)]
  rfl

/-! ## Typings of compilations -/

section Compilations

variable {source : String} {options : CompileOptions} {compilation : Compilation}

/-- The signature of a compilation has been inferred of its graph. -/
theorem infer_of_compile (compiles : compile source options = .ok compilation) :
    ∀ signature ∈ compilation.signature,
      compilation.graph.infer options.inferExpired = .ok signature := by
  intro signature there
  have typed : options.typing = true := by
    rw [← isSome_signature_of_compile compiles, there]
    rfl
  have same : options = { options with typing := true } := by rw [← typed]
  rw [same, compile_typed_eq] at compiles
  obtain ⟨untyped, -, inferred⟩ := exists_ok_of_bind compiles
  unfold Compilation.inferred at inferred
  split at inferred
  · rename_i found infers
    cases inferred
    cases there
    exact infers
  · cases inferred

/-- If the written names of all generators fit into a header, so does the typing. -/
theorem isHeaderText_typing (compiles : compile source options = .ok compilation)
    (fit : ∀ generators ∈ options.generators, ∀ generator ∈ generators,
      isHeaderText (Symbol.written generator) = true) :
    isHeaderText compilation.typing = true := by
  unfold Compilation.typing
  cases inferred : compilation.signature with
  | none => rfl
  | some signature =>
      obtain ⟨root, top, rooted⟩ := exists_rootedAt_of_compile compiles
      have named : ∀ ident ∈ compilation.program.idents, IsIdentName ident.name :=
        Program.allNamed_of_read (readSource_program_eq_some.mp (by rw [rooted.reads]))
      have stays : compilation.program.resolved.StaysIn
          {symbol | isHeaderText symbol.written = true} := by
        constructor
        · intro symbol member
          obtain ⟨ident, held, rfl⟩ := Program.exists_ident_of_symbol member
          exact isHeaderText_written (named ident held).isHeaderText
        · intro symbol member number
          obtain ⟨ident, held, rfl⟩ := Program.exists_ident_of_symbol member
          change isHeaderText (Symbol.written (Symbol.fresh ident.name number)) = true
          rw [Symbol.written_fresh (named ident held).isWritten]
          exact (named ident held).isHeaderText
      have ports := ResolvedProgram.ports_of_expand compilation.program.resolved_sound
        rooted.expanded
      have tells := PortGraph.tells_of_infer (infer_of_compile compiles signature inferred)
      refine tells.isHeaderText_text (fun name member => ?_)
        (stays.known_of_expand fit rooted.expanded)
      rw [ports.1, ports.2, Program.definition_of_found rooted.found] at member
      have own : name ∈ top.ports.idents.map (·.name) := by
        rw [Ports.idents, List.map_append]
        exact member
      obtain ⟨ident, held, rfl⟩ := List.mem_map.mp own
      refine (named ident (List.mem_flatMap.mpr
        ⟨top, List.mem_of_getElem? rooted.found, ?_⟩)).isHeaderText
      simp [Definition.idents, held]

end Compilations

end FlowDiagram

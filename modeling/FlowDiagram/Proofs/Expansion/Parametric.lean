import FlowDiagram.Proofs.Expansion.Nested
import FlowDiagram.Proofs.Signature.Renaming
import FlowDiagram.Proofs.Symbol.Renumbering
import FlowDiagram.Proofs.Symbol.Replacing

/-!
# Other generators

A root does not look into its generators.  Under other generators, of which the program knows no
more than of the first, it expands to the same graph with the one replaced by the other; the same
ports of it are connected, and inference fails or not as before, with the same replacement made in
the signature.
-/

namespace FlowDiagram

/-- Generators that suit a root, and that the program does not know. -/
structure ResolvedProgram.Foreign (program : ResolvedProgram) (root : program.Index)
    (generators : List Symbol) : Prop where
  length : generators.length = (program.definition root).universal.length
  distinct : generators.Nodup
  written : ∀ symbol ∈ generators, symbol.IsWritten
  unknown : ∀ symbol ∈ generators, symbol ∉ program.symbols

namespace ResolvedProgram

variable {program : ResolvedProgram} {root : program.Index} {generators others : List Symbol}

/-- A program cannot tell its foreign generators replaced by others. -/
theorem Foreign.untold (foreign : program.Foreign root generators)
    (foreignOthers : program.Foreign root others) :
    program.Untold (Symbol.replace generators others) (Symbol.Apart generators others) where
  named symbol member :=
    ⟨Symbol.mem_apart_of_not_mem _ fun other => foreignOthers.unknown symbol other member,
      Symbol.replace_of_not_mem (fun given => foreign.unknown symbol given member) _⟩
  introduced symbol _ number := by
    have fresh := Symbol.not_isWritten_fresh symbol number
    exact ⟨Symbol.mem_apart_of_not_mem _ fun other => fresh (foreignOthers.written _ other),
      Symbol.replace_of_not_mem (fun given => fresh (foreign.written _ given)) _⟩
  apart := Symbol.replace_injOn foreignOthers.distinct
    (foreign.length.trans foreignOthers.length.symm)

/-- Nor can it tell any change that replaces these. -/
theorem Untold.congr {rename change : Symbol → Symbol} {known : Set Symbol}
    (untold : program.Untold rename known)
    (agree : ∀ symbol ∈ known, change symbol = rename symbol) :
    program.Untold change known where
  named symbol member := by
    obtain ⟨inside, kept⟩ := untold.named symbol member
    exact ⟨inside, (agree symbol inside).trans kept⟩
  introduced symbol member number := by
    obtain ⟨inside, kept⟩ := untold.introduced symbol member number
    exact ⟨inside, (agree _ inside).trans kept⟩
  apart := untold.apart.congr fun symbol inside => (agree symbol inside).symm

/--
Under other foreign generators a root expands to the same graph with these in place of the first,
and what is checked and inferred of it is the same with this replacement.
-/
theorem expand_parametric (foreign : program.Foreign root generators)
    (foreignOthers : program.Foreign root others) (limits : UnfoldingLimits) :
    program.expand root (some others) limits =
        (program.expand root (some generators) limits).map
          (PortGraph.rename (Symbol.replace generators others)) ∧
      ∀ graph, program.expand root (some generators) limits = .ok graph → ∀ expired,
        ((graph.rename (Symbol.replace generators others)).checkConnections expired = .ok () ↔
          graph.checkConnections expired = .ok ()) ∧
        ((graph.rename (Symbol.replace generators others)).infer expired).toOption =
          (graph.infer expired).toOption.map
            (Signature.rename (Symbol.replace generators others)) := by
  have paired := foreign.length.trans foreignOthers.length.symm
  have untold := foreign.untold foreignOthers
  have known : ∀ symbol ∈ generators, symbol ∈ Symbol.Apart generators others :=
    fun _ member => Symbol.mem_apart_of_mem _ member
  have replaced := untold.expand_rename root known limits
  rw [Symbol.map_replace foreign.distinct paired] at replaced
  refine ⟨replaced, fun graph expanded expired => ⟨?_, ?_⟩⟩
  · have checked := (Relabelling.renames (Symbol.replace generators others)).checkConnections
      graph expired
    change PortGraph.checkConnections (graph.rename _) expired = _ at checked
    rw [checked]
    cases graph.checkConnections expired <;> simp [Except.mapError]
  -- the rules of inference need a renaming that keeps all symbols apart
  · obtain ⟨permutation, agree⟩ :=
      Symbol.exists_perm_replace foreign.distinct foreignOthers.distinct paired
    have permuted := (untold.congr agree).expand_rename root known limits
    rw [List.map_congr_left fun symbol member => agree symbol (known symbol member),
      Symbol.map_replace foreign.distinct paired, replaced, expanded] at permuted
    have same : graph.rename permutation = graph.rename (Symbol.replace generators others) :=
      (Except.ok.inj permuted).symm
    rw [← same]
    exact PortGraph.infer_rename (PortGraph.agree_of_rename_eq same) expired

/-- The source of a definition that uses itself with its parameters exchanged. -/
def exchangingLines : List String := [
  "def f = <a, b | e> [X | Y]",
  "  use +a [X | Y] as A",
  "  use +e [X | Y] as E",
  "  use f <b, a |> [X | Y] as R",
  "  link X >-> A.X, A.Y >-> E.X, E.Y >-> R.X, R.Y >-> Y"]

/-- Exchanging the generators exchanges them in the graph and in the signature. -/
theorem expand_parametric_exchanging :
    let exchange := Symbol.replace ["u", "v"] ["v", "u"]
    ∃ (root : (Program.ofLines exchangingLines).resolved.Index) (graph : PortGraph)
      (signature : Signature),
      (Program.ofLines exchangingLines).resolved.Foreign root ["u", "v"] ∧
      (Program.ofLines exchangingLines).resolved.Foreign root ["v", "u"] ∧
      (Program.ofLines exchangingLines).resolved.expand root (some ["u", "v"]) ⟨0, 10, false⟩ =
        .ok graph ∧
      (Program.ofLines exchangingLines).resolved.expand root (some ["v", "u"]) ⟨0, 10, false⟩ =
        .ok (graph.rename exchange) ∧
      graph.checkConnections false = .ok () ∧
      (graph.rename exchange).checkConnections false = .ok () ∧
      graph.infer false = .ok signature ∧
      ((graph.rename exchange).infer false).toOption = some (signature.rename exchange) := by
  intro exchange
  let program := (Program.ofLines exchangingLines).resolved
  let root : program.Index := ⟨0, by decide +kernel⟩
  have foreign : program.Foreign root ["u", "v"] :=
    ⟨by decide +kernel, by decide, by decide, by decide +kernel⟩
  have foreignOthers : program.Foreign root ["v", "u"] :=
    ⟨by decide +kernel, by decide, by decide, by decide +kernel⟩
  have looking : ((program.expand root (some ["u", "v"]) ⟨0, 10, false⟩).toOption.bind fun graph =>
      (graph.checkConnections false).toOption.bind fun _ =>
        (graph.infer false).toOption).isSome = true := by
    decide +kernel
  obtain ⟨signature, found⟩ := Option.isSome_iff_exists.mp looking
  obtain ⟨graph, expands, found⟩ := Option.bind_eq_some_iff.mp found
  obtain ⟨_, checks, infers⟩ := Option.bind_eq_some_iff.mp found
  have expanded := eq_ok_of_toOption expands
  obtain ⟨exchanged, same⟩ := expand_parametric foreign foreignOthers ⟨0, 10, false⟩
  obtain ⟨checked, inferred⟩ := same graph expanded false
  rw [expanded] at exchanged
  exact ⟨root, graph, signature, foreign, foreignOthers, expanded, exchanged,
    eq_ok_of_toOption checks, checked.mpr (eq_ok_of_toOption checks), eq_ok_of_toOption infers,
    inferred.trans (congrArg (Option.map (Signature.rename exchange)) infers)⟩

end ResolvedProgram

end FlowDiagram

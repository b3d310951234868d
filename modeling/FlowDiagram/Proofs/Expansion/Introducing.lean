import FlowDiagram.Proofs.Expansion.Calls
import FlowDiagram.Proofs.Expansion.Listing
import FlowDiagram.Signature.Inference

/-!
# Introduced symbols

In an expanded graph no symbol is introduced twice, and none that is introduced could have been
written in the source.  The generators given for the root are not written in a source: a symbol
introduced is none of them only where they do not look like one.
-/

namespace FlowDiagram

/-- A symbol bound to a parameter of a root is a generator given, or the parameter itself. -/
theorem ResolvedDefinition.mem_rootBinding {root : ResolvedDefinition}
    {generators : Option (List Symbol)} {binding : List Symbol}
    (bound : root.rootBinding generators = .ok binding) {symbol : Symbol}
    (held : symbol ∈ binding) :
    (∃ given ∈ generators, symbol ∈ given) ∨ symbol ∈ root.parameters := by
  unfold ResolvedDefinition.rootBinding at bound
  split at bound
  · cases bound
    exact .inr held
  · split at bound
    · cases bound
      rcases List.mem_append.mp held with listed | own
      · exact .inl ⟨_, rfl, listed⟩
      · exact .inr (List.mem_append_right _ own)
    · cases bound

namespace ResolvedProgram

variable {source : List Char} {program : Program} {root : program.resolved.Index}
  {generators : Option (List Symbol)} {limits : UnfoldingLimits} {graph : PortGraph}

/-- The calls of an expanded graph are those of the listing of its root. -/
theorem introduces_of_expand (written_ : program.IsWritten)
    (expanded : program.resolved.expand root generators limits = .ok graph) :
    ∃ body after, program.definitions[(root : Nat)]? = some body ∧
      program.Introduces body 1 after graph.calls := by
  obtain ⟨binding, nesting, listing, -, listed, -, nodes, instances⟩ :=
    listing_of_expand program.resolved_sound expanded
  have bound := program.resolved_getElem? root
  rw [List.getElem?_eq_getElem root.isLt] at bound
  obtain ⟨body, hbody, same⟩ := Option.map_eq_some_iff.mp bound.symm
  have placed : (rootScope root binding).PlacedIn program body := congrArg some same
  have introduces := Scope.introduces_unfold written_ (List.mem_of_getElem? hbody) placed listed
  refine ⟨body, listing.next, hbody, ?_⟩
  rwa [PortGraph.calls, nodes, instances]

/--
Each call of an expanded graph that leaves the existential symbols of its definition to it
introduces symbols under their names, which stand nowhere in the source and which no other call
introduces.
-/
theorem introduced_apart (reads : Program.read source = .ok program)
    (expanded : program.resolved.expand root generators limits = .ok graph) :
    ∃ body, program.definitions[(root : Nat)]? = some body ∧
      (∀ call ∈ graph.calls, ∃ use callee, program.useAt? body call.path = some use ∧
        program.callee? use = some callee ∧ call.definition = callee.name.name ∧
        (program.introduced body call).map Symbol.written =
          if use.leavesExistential then callee.generics.existential.map (·.name) else []) ∧
      (∀ call ∈ graph.calls, ∀ symbol ∈ program.introduced body call,
        ∀ ident : Ident, ident.lexeme ∈ lexemes source → symbol ≠ ident.name) ∧
      graph.calls.Pairwise fun first later =>
        (program.introduced body first).Disjoint (program.introduced body later) := by
  have written_ := Program.isWritten_of_read reads
  obtain ⟨body, after, hbody, introduces⟩ := introduces_of_expand written_ expanded
  refine ⟨body, hbody, ?_, ?_, introduces.apart⟩
  · intro call member
    obtain ⟨number, use, callee, -, explains, -⟩ := introduces.each call member
    refine ⟨use, callee, explains.found, explains.names, explains.named, ?_⟩
    rw [explains.introduced]
    split
    · have known := Program.callee?_mem explains.names
      rw [List.map_map]
      refine List.map_congr_left fun ident named => ?_
      exact Symbol.written_fresh ((written_ callee known).generics.2 ident named) number
    · rfl
  · rintro call member symbol held ident spelled rfl
    obtain ⟨number, made, -⟩ := introduces.number_of_mem written_ member held
    have plain := Symbol.number?_of_isWritten (isIdentName_of_mem_lexemes spelled).isWritten
    cases plain.symm.trans made

/-- The source of two calls that pass on what they introduce to a definition that uses itself. -/
def handingLines : List String := [
  "def main = [X | Y]",
  "  use pair [X | Y] as P",
  "  use pair [X | Y] as Q",
  "  link X >-> P.X, P.Y >-> Q.X, Q.Y >-> Y",
  "def pair = < | e, k> [X | Y]",
  "  use loop <k |> [X | Y] as L",
  "  use loop <k | e> [X | Y] as M",
  "  link X >-> L.X, L.Y >-> M.X, M.Y >-> Y",
  "def loop = <a | e> [X | Y]",
  "  use loop [X | Y] as R",
  "  link X >-> R.X, R.Y >-> Y"]

/-- Of each call under the symbols of another, only what it introduces itself is new. -/
theorem introduced_apart_handing :
    ∃ (root : (Program.ofLines handingLines).resolved.Index) (body : Definition)
      (graph : PortGraph),
      (Program.ofLines handingLines).resolved.expand root none ⟨0, 20, false⟩ = .ok graph ∧
      graph.calls.map (·.generators) = [["e#1", "k#1"], ["e#2", "k#2"], ["k#1", "e#3"],
        ["k#1", "e#1"], ["k#2", "e#6"], ["k#2", "e#2"], ["k#1", "e#4"], ["k#1", "e#5"],
        ["k#2", "e#7"], ["k#2", "e#8"]] ∧
      graph.calls.map ((Program.ofLines handingLines).introduced body) = [["e#1", "k#1"],
        ["e#2", "k#2"], ["e#3"], [], ["e#6"], [], ["e#4"], ["e#5"], ["e#7"], ["e#8"]] ∧
      graph.calls.Pairwise fun first later =>
        ((Program.ofLines handingLines).introduced body first).Disjoint
          ((Program.ofLines handingLines).introduced body later) := by
  have reads := Program.read_ofLines (by decide +kernel :
    (Program.read (sourceOfLines handingLines)).toOption.isSome = true)
  have calls : ((Program.ofLines handingLines).resolved.expand ⟨0, by decide +kernel⟩ none
      ⟨0, 20, false⟩).toOption.map (fun graph => (graph.calls.map (·.generators),
        (Program.ofLines handingLines).definitions[0]?.map fun body =>
          graph.calls.map ((Program.ofLines handingLines).introduced body))) =
      some ([["e#1", "k#1"], ["e#2", "k#2"], ["k#1", "e#3"],
        ["k#1", "e#1"], ["k#2", "e#6"], ["k#2", "e#2"], ["k#1", "e#4"], ["k#1", "e#5"],
        ["k#2", "e#7"], ["k#2", "e#8"]], some [["e#1", "k#1"],
        ["e#2", "k#2"], ["e#3"], [], ["e#6"], [], ["e#4"], ["e#5"], ["e#7"], ["e#8"]]) := by
    decide +kernel
  obtain ⟨graph, found, listed⟩ := Option.map_eq_some_iff.mp calls
  obtain ⟨passed, introduced⟩ := Prod.mk.inj listed
  have expanded := eq_ok_of_toOption found
  obtain ⟨body, hbody, -, -, apart⟩ := introduced_apart reads expanded
  rw [hbody] at introduced
  exact ⟨_, body, graph, expanded, passed, Option.some.inj introduced, apart⟩

/-! ## Generators given for the root -/

/--
No symbol bound to a parameter of the root is introduced, if no generator given for it has the form
of a symbol introduced: the name of an existential symbol of the program, `#` and a number.
-/
theorem introduced_unbound (reads : Program.read source = .ok program)
    (unlike : ∀ given ∈ generators, ∀ callee ∈ program.definitions,
      ∀ ident ∈ callee.generics.existential, ∀ number, Symbol.fresh ident.name number ∉ given)
    (expanded : program.resolved.expand root generators limits = .ok graph) :
    ∃ body, program.definitions[(root : Nat)]? = some body ∧
      ∀ call ∈ graph.calls, ∀ symbol ∈ program.introduced body call,
        symbol ∉ graph.generators := by
  have written_ := Program.isWritten_of_read reads
  obtain ⟨body, after, hbody, introduces⟩ := introduces_of_expand written_ expanded
  obtain ⟨binding, -, -, hbinding, -, generated, -⟩ :=
    listing_of_expand program.resolved_sound expanded
  refine ⟨body, hbody, fun call member symbol held bound => ?_⟩
  rw [generated] at bound
  obtain ⟨number, use, callee, -, explains, -⟩ := introduces.each call member
  rw [explains.introduced] at held
  split at held
  · obtain ⟨ident, named, rfl⟩ := List.mem_map.mp held
    rcases ResolvedDefinition.mem_rootBinding hbinding bound with ⟨given, supplied, listed⟩ | own
    · exact unlike given supplied callee (Program.callee?_mem explains.names) ident named number
        listed
    · have plain := (written_.resolved _ (definition_mem root)).parameters _ own
      exact Symbol.not_isWritten_fresh ident.name number plain
  · cases held

/-- The source of a definition that adds its universal symbol, and calls one that adds its own. -/
def addingLines : List String := [
  "def main = <a> [X | Y]",
  "  use +a [X | Y] as A",
  "  use f [X | Y] as F",
  "  link X >-> A.X, A.Y >-> F.X, F.Y >-> Y",
  "def f = < | e> [X | Y]",
  "  use +e [X | Y] as E",
  "  link X >-> E.X, E.Y >-> Y"]

/-- A generator may be the name of the symbol introduced, and may hold a `#`. -/
theorem introduced_unbound_adding :
    ∃ (root : (Program.ofLines addingLines).resolved.Index) (body : Definition)
      (graph : PortGraph),
      (Program.ofLines addingLines).resolved.expand root (some ["e#"]) ⟨0, 8, false⟩ = .ok graph ∧
      graph.calls.map ((Program.ofLines addingLines).introduced body) = [["e#1"]] ∧
      ∀ call ∈ graph.calls, ∀ symbol ∈ (Program.ofLines addingLines).introduced body call,
        symbol ∉ graph.generators := by
  have reads := Program.read_ofLines (by decide +kernel :
    (Program.read (sourceOfLines addingLines)).toOption.isSome = true)
  have names : (Program.ofLines addingLines).definitions.flatMap
      (fun callee => callee.generics.existential.map (·.name)) = ["e"] := by
    decide +kernel
  have calls : ((Program.ofLines addingLines).resolved.expand ⟨0, by decide +kernel⟩ (some ["e#"])
      ⟨0, 8, false⟩).toOption.map (fun graph =>
        (Program.ofLines addingLines).definitions[0]?.map fun body =>
          graph.calls.map ((Program.ofLines addingLines).introduced body)) =
      some (some [["e#1"]]) := by
    decide +kernel
  obtain ⟨graph, found, introduced⟩ := Option.map_eq_some_iff.mp calls
  have expanded := eq_ok_of_toOption found
  have unlike : ∀ given ∈ some ["e#"], ∀ callee ∈ (Program.ofLines addingLines).definitions,
      ∀ ident ∈ callee.generics.existential, ∀ number, Symbol.fresh ident.name number ∉ given := by
    intro given supplied callee known ident named number listed
    obtain rfl := Option.mem_some_iff.mp supplied
    have member : ident.name ∈ (Program.ofLines addingLines).definitions.flatMap
        (fun callee => callee.generics.existential.map (·.name)) :=
      List.mem_flatMap.mpr ⟨callee, known, List.mem_map_of_mem named⟩
    rw [names, List.mem_singleton] at member
    rw [member, List.mem_singleton] at listed
    have digits := congrArg String.toList listed
    rw [Symbol.toList_fresh] at digits
    simp at digits
  obtain ⟨body, hbody, apart⟩ := introduced_unbound reads unlike expanded
  rw [hbody] at introduced
  exact ⟨_, body, graph, expanded, Option.some.inj introduced, apart⟩

/-- A generator that is the symbol introduced makes a type error that no other one makes. -/
theorem introduced_adding_bound :
    ∃ (root : (Program.ofLines addingLines).resolved.Index) (body : Definition)
      (graph other : PortGraph),
      (Program.ofLines addingLines).definitions[(root : Nat)]? = some body ∧
      (Program.ofLines addingLines).resolved.expand root (some ["e#1"]) ⟨0, 8, false⟩ =
        .ok graph ∧
      (∃ call ∈ graph.calls, ∃ symbol ∈ (Program.ofLines addingLines).introduced body call,
        symbol ∈ graph.generators) ∧
      (∀ signature, graph.infer false ≠ .ok signature) ∧
      (Program.ofLines addingLines).resolved.expand root (some ["b"]) ⟨0, 8, false⟩ = .ok other ∧
      ∃ signature, other.infer false = .ok signature := by
  have bound : ((Program.ofLines addingLines).resolved.expand ⟨0, by decide +kernel⟩
      (some ["e#1"]) ⟨0, 8, false⟩).toOption.map (fun graph =>
        ((Program.ofLines addingLines).definitions[0]?.map fun body =>
          graph.calls.map ((Program.ofLines addingLines).introduced body),
        graph.generators, (graph.infer false).toOption.isSome)) =
      some (some [["e#1"]], ["e#1"], false) := by
    decide +kernel
  have apart : ((Program.ofLines addingLines).resolved.expand ⟨0, by decide +kernel⟩
      (some ["b"]) ⟨0, 8, false⟩).toOption.map (fun graph =>
        (graph.infer false).toOption.isSome) = some true := by
    decide +kernel
  obtain ⟨graph, found, listed⟩ := Option.map_eq_some_iff.mp bound
  obtain ⟨introduced, rest⟩ := Prod.mk.inj listed
  obtain ⟨generated, untyped⟩ := Prod.mk.inj rest
  obtain ⟨body, hbody, listed⟩ := Option.map_eq_some_iff.mp introduced
  obtain ⟨other, hother, typed⟩ := Option.map_eq_some_iff.mp apart
  obtain ⟨signature, inferred⟩ := Option.isSome_iff_exists.mp typed
  refine ⟨_, body, graph, other, hbody, eq_ok_of_toOption found, ?_, ?_,
    eq_ok_of_toOption hother, signature, eq_ok_of_toOption inferred⟩
  · obtain ⟨call, member, made⟩ := List.mem_map.mp
      (show ["e#1"] ∈ graph.calls.map ((Program.ofLines addingLines).introduced body) by
        rw [listed]; exact List.mem_singleton_self _)
    exact ⟨call, member, "e#1", by rw [made]; exact List.mem_singleton_self _,
      by rw [generated]; exact List.mem_singleton_self _⟩
  · intro signature inferred
    rw [inferred] at untyped
    cases untyped

end ResolvedProgram

end FlowDiagram

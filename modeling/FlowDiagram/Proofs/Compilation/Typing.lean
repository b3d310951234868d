import FlowDiagram.Proofs.Compilation.Outcome
import FlowDiagram.Proofs.Expansion.Connected
import FlowDiagram.Proofs.Expansion.Incoming

/-!
# Asking for the signature

No pass before inference looks at whether the signature is asked for.  So to ask for it adds one
step to a compilation: inference, on the graph that has been compiled.  That graph is connected, so
inference finds all that it looks for there, and can fail only by a contradiction.
-/

namespace FlowDiagram

/-! ## The run with one more pass -/

namespace Progress

variable (program : Program) (options : CompileOptions)

theorem runPass_typing (typing : Bool) (progress : Progress) (pass : Pass) :
    progress.runPass program { options with typing := typing } pass =
      progress.runPass program options pass := by
  cases pass <;> rfl

theorem runAll_typing (typing : Bool) (progress : Progress) (passes : List Pass) :
    progress.runAll program { options with typing := typing } passes =
      progress.runAll program options passes := by
  induction passes generalizing progress with
  | nil => rfl
  | cons pass rest ih => simp only [runAll, runPass_typing, ih]

/-- Whether the signature is asked for matters to which passes run, not to what they do. -/
theorem run_typing (typing : Bool) (terminal : Pass) :
    run program { options with typing := typing } terminal = run program options terminal :=
  runAll_typing program options typing start (Pass.required terminal)

/-- More passes run on what the first ones have made, unless one of those has failed. -/
theorem runAll_append {progress : Progress} (clean : progress.hasError = false)
    (first second : List Pass) :
    progress.runAll program options (first ++ second) =
      if (progress.runAll program options first).hasError
        then progress.runAll program options first
        else (progress.runAll program options first).runAll program options second := by
  induction first generalizing progress with
  | nil => simp [runAll, clean]
  | cons pass rest ih =>
      rw [List.cons_append, runAll, runAll]
      cases failed : (progress.runPass program options pass).hasError with
      | true => simp [failed]
      | false => simpa using ih failed

/-- A run up to inference is a run up to the check, and inference unless that has failed. -/
theorem run_infer :
    run program options .infer =
      if (run program options .check).hasError then run program options .check
      else (run program options .check).infer options := by
  have passes : Pass.required .infer = Pass.required .check ++ [.infer] := rfl
  rw [run, passes, runAll_append program options (by rfl)]
  simp only [runAll, ite_self]
  rfl

end Progress

/-! ## The compilation with one more step -/

/-- What asking for the signature makes of what compiles without it. -/
def Compilation.inferred (compilation : Compilation) (source : String) (expired : Bool) :
    Except CompileError Compilation :=
  match compilation.graph.infer expired with
  | .ok signature => .ok { compilation with signature := some signature }
  | .error error =>
    .error ⟨compilation.warnings ++
      (error.diagnostics compilation.graph).map (Diagnostic.locate source.toList), some .infer⟩

namespace Progress

variable (program : Program) {options : CompileOptions} {progress : Progress}

/-- After a failed pass it does not matter which pass was to be the last. -/
theorem Failed.finish_eq {passes : List Pass} {earlier : List PassReport} {last : PassReport}
    (failed : progress.Failed passes earlier last) (source : String) (terminal : Pass) :
    progress.finish source program terminal =
      .error ⟨progress.diagnostics.map (Diagnostic.locate source.toList), some last.pass⟩ := by
  rw [finish, failed.failingPass?]

/-- One more report on what had no error fails if it has an error itself. -/
theorem Completed.failingPass?_report {done : List Pass}
    (completed : progress.Completed options done) (next : Progress)
    (reports : next.reports = progress.reports) (starved : next.starved = progress.starved)
    (pass : Pass) (diagnostics : List Diagnostic) :
    (next.report pass diagnostics).failingPass? =
      if hasErrors diagnostics then some pass else none := by
  have clean : progress.reports.find? (fun report => hasErrors report.diagnostics) = none :=
    List.find?_eq_none.mpr fun report member => by simp [completed.clean report member]
  rw [Progress.failingPass?, report, reports, starved, completed.fed, List.find?_append, clean]
  cases failed : hasErrors diagnostics <;> simp [failed]

/-- Inference on what has been checked finishes as inference on the graph compiled so far. -/
theorem Completed.finish_infer
    (completed : progress.Completed options (Pass.required .check)) (source : String) :
    ∃ compilation, progress.finish source program .check = .ok compilation ∧
      (progress.infer options).finish source program .infer =
        compilation.inferred source options.inferExpired := by
  obtain ⟨registry, hregistry⟩ :=
    Option.isSome_iff_exists.mp (completed.made.registry (by decide))
  obtain ⟨root, hroot⟩ := Option.isSome_iff_exists.mp (completed.made.root (by decide))
  obtain ⟨graph, hgraph⟩ := Option.isSome_iff_exists.mp (completed.made.graph (by decide))
  refine ⟨_, by rw [finish, completed.failingPass?, hregistry, hroot, hgraph], ?_⟩
  rw [Compilation.inferred]
  cases inference : graph.infer options.inferExpired with
  | ok signature =>
      have ran : progress.infer options =
          { progress with signature := some signature }.report .infer [] := by
        simp only [infer, hgraph, inference]
      rw [ran, finish,
        completed.failingPass?_report { progress with signature := some signature } rfl rfl]
      simp [report, hregistry, hroot, hgraph, Progress.diagnostics, hasErrors]
  | error error =>
      have ran : progress.infer options = progress.report .infer (error.diagnostics graph) := by
        simp only [infer, hgraph, inference]
      rw [ran, finish, completed.failingPass?_report progress rfl rfl,
        if_pos (PortGraph.hasErrors_of_infer inference)]
      simp [report, Progress.diagnostics]

end Progress

/-- Compiling with the signature is compiling without it, and then inference on the graph. -/
theorem compile_typed_eq (source : String) (options : CompileOptions) :
    compile source { options with typing := true } =
      (compile source { options with typing := false } >>= fun compilation =>
        compilation.inferred source options.inferExpired) := by
  obtain wrong | ⟨program, reads⟩ := readSource_cases source.toList
  · simp only [compile, compileWithProgress_of_unread wrong]
    rfl
  · simp only [compile, compileWithProgress_of_read reads, Progress.run_typing]
    change (Progress.run program options .infer).finish source program .infer =
      ((Progress.run program options .check).finish source program .check >>= _)
    rw [Progress.run_infer]
    rcases Progress.completed_or_failed program options .check with
      completed | ⟨earlier, last, failed⟩
    · obtain ⟨compilation, finishes, inferring⟩ := completed.finish_infer program source
      rw [if_neg (by simp [Progress.hasError, completed.failingPass?]), inferring, finishes]
      rfl
    · rw [if_pos (by simp [Progress.hasError, failed.failingPass?]), failed.finish_eq,
        failed.finish_eq]
      rfl

/-! ## What inference works on -/

/-- All that inference looks up in a graph is there. -/
structure PortGraph.Complete (graph : PortGraph) : Prop where
  /-- Every primitive node takes part, with a wire at each port. -/
  site : ∀ (id : Nat) (node : Node) (primitive : Primitive), graph.nodes[id]? = some node →
    node.kind = .primitive primitive →
      ∃ site ∈ graph.sites, site.id = id ∧ site.node = node ∧ site.primitive = primitive
  fits : ∀ site ∈ graph.sites, site.Fits graph.sources.length
  source : ∀ source ∈ graph.sources, graph.HasSource source
  input : ∀ port < graph.inputs.length, ∃ wire < graph.sources.length,
    graph.wire? graph.wireStarts (.input port) = some wire
  output : ∀ port < graph.outputs.length, ∃ wire < graph.sources.length,
    graph.feedingWire? graph.wireStarts (.output port) = some wire

/-- In a connected graph nothing that inference looks up is missing. -/
theorem PortGraph.Connected.complete {graph : PortGraph} (connected : graph.Connected) :
    graph.Complete where
  site id node primitive found kind := connected.site_of_node found kind
  fits := connected.sites_fit
  source source member := by
    obtain ⟨wire, starts⟩ := List.mem_iff_getElem?.mp member
    obtain ⟨inside, rfl⟩ | ⟨id, node, start, port, found, -, inside, -, rfl⟩ :=
      PortGraph.sources_getElem?.mp starts
    · exact inside
    · exact ⟨node, found, inside⟩
  input port inside := by
    have source : graph.HasSource (.input port) := inside
    obtain ⟨wire, starts, bound, -⟩ := PortGraph.wire_of_source source
    exact ⟨wire, bound, starts⟩
  output port inside := by
    have target : graph.HasTarget (.output port) := inside
    obtain ⟨wire, feeds, bound, -⟩ := connected.feedingWire target
    exact ⟨wire, bound, feeds⟩

/-- While there is time, inference fails only by contradictions. -/
theorem PortGraph.contradiction_of_infer {graph : PortGraph} {error : InferenceError}
    (fails : graph.infer false = .error error) :
    error.diagnostics graph ≠ [] ∧
      ∀ diagnostic ∈ error.diagnostics graph,
        diagnostic.isError = true ∧ diagnostic.kind = .contradiction := by
  simp only [infer, Bool.false_and, Bool.false_eq_true, if_false] at fails
  split at fails
  · cases fails
  · next faults some_ =>
    cases fails
    refine ⟨fun nothing => some_ (List.map_eq_nil_iff.mp nothing), fun diagnostic member => ?_⟩
    obtain ⟨fault, -, rfl⟩ := List.mem_map.mp member
    cases fault <;> exact ⟨rfl, rfl⟩

namespace Progress

variable (program : Program) (options : CompileOptions) {progress : Progress}

/-- What a run has made is what the program yields. -/
structure Yields (program : Program) (options : CompileOptions) (progress : Progress) : Prop where
  registry : ∀ registry ∈ progress.registry, registry = (Registry.ofProgram program).1
  resolved : ∀ resolved ∈ progress.resolved, resolved = program.resolved
  graph : ∀ graph ∈ progress.graph, ∃ root,
    program.resolved.selectRoot options.root = .ok root ∧
      program.resolved.expand root options.generators options.limits = .ok graph

theorem yields_start : start.Yields program options :=
  ⟨nofun, nofun, nofun⟩

theorem Yields.runPass (yields : progress.Yields program options) (pass : Pass) :
    (progress.runPass program options pass).Yields program options := by
  cases pass with
  | register => exact ⟨fun _ made => (Option.some.inj made).symm, yields.resolved, yields.graph⟩
  | resolve =>
      rw [Progress.runPass, resolve]
      split
      · exact ⟨yields.registry, yields.resolved, yields.graph⟩
      · next registry made =>
        obtain rfl := yields.registry registry made
        exact ⟨yields.registry, fun _ made => (Option.some.inj made).symm, yields.graph⟩
  | expand =>
      rw [Progress.runPass, expand]
      split
      · exact ⟨yields.registry, yields.resolved, yields.graph⟩
      · next resolved made =>
        obtain rfl := yields.resolved resolved made
        split
        · exact ⟨yields.registry, yields.resolved, yields.graph⟩
        · next root selected =>
          dsimp only
          split
          · exact ⟨yields.registry, yields.resolved, yields.graph⟩
          · next graph expanded =>
            refine ⟨yields.registry, yields.resolved, fun _ made => ?_⟩
            obtain rfl := Option.some.inj made
            exact ⟨root, selected, expanded⟩
  | check =>
      rw [Progress.runPass, check]
      split
      · exact ⟨yields.registry, yields.resolved, yields.graph⟩
      · split <;> exact ⟨yields.registry, yields.resolved, yields.graph⟩
  | infer =>
      rw [Progress.runPass, infer]
      split
      · exact ⟨yields.registry, yields.resolved, yields.graph⟩
      · split <;> exact ⟨yields.registry, yields.resolved, yields.graph⟩

theorem Yields.runAll (yields : progress.Yields program options) (passes : List Pass) :
    (progress.runAll program options passes).Yields program options := by
  induction passes generalizing progress with
  | nil => exact yields
  | cons pass rest ih =>
      rw [Progress.runAll]
      split
      · exact yields.runPass program options pass
      · exact ih (yields.runPass program options pass)

end Progress

/-- What compiles comes of a source that reads and of a run without an error. -/
theorem exists_completed_of_compile {source : String} {options : CompileOptions}
    {compilation : Compilation} (compiles : compile source options = .ok compilation) :
    ∃ program, readSource source.toList = ⟨some program, []⟩ ∧
      (Progress.run program options options.terminal).Completed options
        (Pass.required options.terminal) ∧
      (Progress.run program options options.terminal).finish source program options.terminal =
        .ok compilation := by
  obtain wrong | ⟨program, reads⟩ := readSource_cases source.toList
  · rw [compile, compileWithProgress_of_unread wrong] at compiles
    cases compiles
  · rw [compile, compileWithProgress_of_read reads] at compiles
    rcases Progress.completed_or_failed program options options.terminal with
      completed | ⟨earlier, last, failed⟩
    · exact ⟨program, reads, completed, compiles⟩
    · rw [failed.finish_eq] at compiles
      cases compiles

/-- A signature is there if it has been asked for. -/
theorem isSome_signature_of_compile {source : String} {options : CompileOptions}
    {compilation : Compilation} (compiles : compile source options = .ok compilation) :
    compilation.signature.isSome = options.typing := by
  obtain ⟨program, reads, completed, finishes⟩ := exists_completed_of_compile compiles
  have nothing : (readSource source.toList).diagnostics = [] := by rw [reads]
  obtain ⟨other, finishesToo, accounts⟩ := completed.accounts program nothing
  rw [finishes] at finishesToo
  cases finishesToo
  exact accounts.typed

/-- The graph of a compilation is the checked expansion of the selected root. -/
theorem expanded_of_compile {source : String} {options : CompileOptions}
    {compilation : Compilation} (compiles : compile source options = .ok compilation) :
    ∃ root, compilation.program.resolved.selectRoot options.root = .ok root ∧
      compilation.program.resolved.expand root options.generators options.limits =
        .ok compilation.graph ∧
      compilation.graph.checkConnections options.checkExpired = .ok () := by
  obtain ⟨program, -, completed, finishes⟩ := exists_completed_of_compile compiles
  obtain ⟨hasRegistry, hasRoot, hasGraph⟩ := completed.artifacts
  obtain ⟨registry, hregistry⟩ := Option.isSome_iff_exists.mp hasRegistry
  obtain ⟨number, hroot⟩ := Option.isSome_iff_exists.mp hasRoot
  obtain ⟨graph, hgraph⟩ := Option.isSome_iff_exists.mp hasGraph
  have checked := completed.made.connected (CompileOptions.mem_required.mpr nofun) graph hgraph
  have yields := (Progress.yields_start program options).runAll program options
    (Pass.required options.terminal)
  obtain ⟨root, selected, expanded⟩ := yields.graph graph hgraph
  rw [Progress.finish, completed.failingPass?, hregistry, hroot, hgraph] at finishes
  cases finishes
  exact ⟨root, selected, expanded, checked⟩

/-- How compiling with the signature turns out, after how it turns out without. -/
inductive CompileTyped :
    Except CompileError Compilation → Except CompileError Compilation → Prop where
  /-- What does not compile fails in the same pass, with the same diagnostics. -/
  | failed (error : CompileError) : CompileTyped (.error error) (.error error)
  /-- Nothing but the signature is new. -/
  | typed (compilation : Compilation) (signature : Signature)
    (untyped : compilation.signature = none)
    (inferred : compilation.graph.infer false = .ok signature) :
    CompileTyped (.ok compilation) (.ok { compilation with signature := some signature })
  /-- Nothing but contradictions is added to the warnings. -/
  | contradicted (compilation : Compilation) (errors : List Diagnostic)
    (untyped : compilation.signature = none) (some_ : errors ≠ [])
    (contradiction : ∀ error ∈ errors, error.isError = true ∧ error.kind = .contradiction) :
    CompileTyped (.ok compilation) (.error ⟨compilation.warnings ++ errors, some .infer⟩)

/--
To ask for the signature changes nothing else, for every source and all options that leave inference
its time: what does not compile without fails in the same way, and what does compile is complete for
inference, which adds the signature or fails by contradictions alone.
-/
theorem compile_typed (source : String) (options : CompileOptions)
    (endless : options.inferExpired = false) :
    CompileTyped (compile source { options with typing := false })
      (compile source { options with typing := true }) ∧
    ∀ compilation, compile source { options with typing := false } = .ok compilation →
      compilation.graph.Complete := by
  constructor
  · rw [compile_typed_eq]
    cases compiles : compile source { options with typing := false } with
    | error error => exact .failed error
    | ok compilation =>
        have untyped : compilation.signature = none := by
          simpa using isSome_signature_of_compile compiles
        change CompileTyped (.ok compilation) (compilation.inferred source options.inferExpired)
        rw [endless, Compilation.inferred]
        cases inference : compilation.graph.infer false with
        | ok signature => exact .typed compilation signature untyped inference
        | error error =>
            obtain ⟨some_, contradiction⟩ := PortGraph.contradiction_of_infer inference
            refine .contradicted compilation _ untyped (by simpa using some_) ?_
            intro diagnostic member
            obtain ⟨reported, listed, rfl⟩ := List.mem_map.mp member
            simpa using contradiction reported listed
  · intro compilation compiles
    obtain ⟨root, -, expanded, checked⟩ := expanded_of_compile compiles
    have sound := compilation.program.resolved_sound
    exact (ResolvedProgram.connected_of_expand sound expanded
      (PortGraph.checkConnections_false checked)).complete

/-- The symbol that the second removal needs has been removed by the first. -/
def removingTwice : String :=
  "def main = [X | Y]\n  use -a [X | Y] as First\n  use -a [X | Y] as Second\n" ++
    "  link X >-> First.X, First.Y >-> Second.X, Second.Y >-> Y"

/-- The root is `main`, no deeper than it stands there. -/
def flatOptions : CompileOptions :=
  ⟨none, none, false, ⟨0, 8, false⟩, false, false⟩

/-- What compiles without the signature fails with it, by a contradiction. -/
theorem compile_typed_removingTwice :
    flatOptions.inferExpired = false ∧
    ∃ (compilation : Compilation) (errors : List Diagnostic),
      compile removingTwice { flatOptions with typing := false } = .ok compilation ∧
      compile removingTwice { flatOptions with typing := true } =
        .error ⟨compilation.warnings ++ errors, some .infer⟩ ∧
      errors ≠ [] ∧ (∀ error ∈ errors, error.kind = .contradiction) ∧
      compilation.graph.Complete := by
  have compiles : (compile removingTwice { flatOptions with typing := false }).toOption.isSome =
      true := by decide +kernel
  have fails : (compile removingTwice { flatOptions with typing := true }).toOption.isSome =
      false := by decide +kernel
  obtain ⟨outcome, complete⟩ := compile_typed removingTwice flatOptions rfl
  generalize compile removingTwice { flatOptions with typing := false } = without at *
  generalize compile removingTwice { flatOptions with typing := true } = with_ at *
  cases outcome with
  | failed error => cases compiles
  | typed compilation signature untyped inferred => cases fails
  | contradicted compilation errors untyped some_ contradiction =>
      exact ⟨rfl, compilation, errors, rfl, rfl, some_,
        fun error member => (contradiction error member).2, complete compilation rfl⟩

end FlowDiagram

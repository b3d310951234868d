import FlowDiagram.Compilation
import FlowDiagram.Proofs.Program.Reading

/-!
# Outcomes of a compilation

A compilation is all or nothing.  Passes run one after the other, each on what the ones before have
made; a run ends with the first pass that reports an error, or with all passes that are required.
A source that does not read is refused before any pass runs.
-/

namespace FlowDiagram

/-! ## Severities and places -/

/-- What is no error is a warning. -/
theorem Diagnostic.isError_eq_false {diagnostic : Diagnostic} :
    diagnostic.isError = false ↔ diagnostic.severity = .warning := by
  unfold isError
  cases diagnostic.severity <;> decide

/-- Locating a diagnostic changes its position only. -/
theorem Diagnostic.locate_eq (source : List Char) (diagnostic : Diagnostic) :
    ∃ position, diagnostic.locate source = { diagnostic with position := some position } := by
  obtain ⟨kind, severity, span, position, message, hint, related⟩ := diagnostic
  cases position with
  | none => exact ⟨_, rfl⟩
  | some position => exact ⟨position, rfl⟩

@[simp]
theorem Diagnostic.isSome_position_locate (source : List Char) (diagnostic : Diagnostic) :
    (diagnostic.locate source).position.isSome = true := by
  obtain ⟨position, located⟩ := diagnostic.locate_eq source
  rw [located]
  rfl

@[simp]
theorem Diagnostic.isError_locate (source : List Char) (diagnostic : Diagnostic) :
    (diagnostic.locate source).isError = diagnostic.isError := by
  obtain ⟨position, located⟩ := diagnostic.locate_eq source
  rw [located]
  rfl

@[simp]
theorem Diagnostic.kind_locate (source : List Char) (diagnostic : Diagnostic) :
    (diagnostic.locate source).kind = diagnostic.kind := by
  obtain ⟨position, located⟩ := diagnostic.locate_eq source
  rw [located]

@[simp]
theorem hasErrors_map_locate (source : List Char) (diagnostics : List Diagnostic) :
    hasErrors (diagnostics.map (Diagnostic.locate source)) = hasErrors diagnostics := by
  simp [hasErrors, List.any_map, Function.comp_def]

@[simp]
theorem hasErrors_append (first second : List Diagnostic) :
    hasErrors (first ++ second) = (hasErrors first || hasErrors second) :=
  List.any_append

/-- Errors alone, if there are any, are errors. -/
theorem hasErrors_of_ne_nil {diagnostics : List Diagnostic} (some_ : diagnostics ≠ [])
    (all : ∀ diagnostic ∈ diagnostics, diagnostic.isError = true) :
    hasErrors diagnostics = true := by
  obtain ⟨first, member⟩ := List.exists_mem_of_ne_nil _ some_
  exact List.any_eq_true.mpr ⟨first, member, all first member⟩

/-- Faults of which every one is an error are errors, if there are any. -/
theorem hasErrors_map {Fault : Type} {diagnose : Fault → Diagnostic}
    (error : ∀ fault, (diagnose fault).isError = true) {faults : List Fault}
    (some_ : faults ≠ []) : hasErrors (faults.map diagnose) = true := by
  refine hasErrors_of_ne_nil (fun nothing => some_ (List.map_eq_nil_iff.mp nothing)) ?_
  intro diagnostic member
  obtain ⟨fault, -, rfl⟩ := List.mem_map.mp member
  exact error fault

/-! ## What reading reports -/

/-- Whatever is wrong with the text of a program is an error of its form. -/
theorem readSource_malformed (source : List Char) :
    ∀ diagnostic ∈ (readSource source).diagnostics,
      diagnostic.kind = .malformed ∧ diagnostic.isError = true := by
  have fault : ∀ diagnostic ∈ (lexicalFaults source).map LexicalFault.diagnostic,
      diagnostic.kind = .malformed ∧ diagnostic.isError = true := by
    intro diagnostic member
    obtain ⟨fault, -, rfl⟩ := List.mem_map.mp member
    exact ⟨rfl, rfl⟩
  intro diagnostic member
  cases reads : Program.read source with
  | ok program =>
    rw [readSource_of_ok reads] at member
    exact fault diagnostic member
  | error error =>
    rcases List.mem_append.mp ((readSource_of_error reads).2.mem_iff.mp member) with
      lexical | stuck
    · exact fault diagnostic lexical
    · obtain rfl := List.mem_singleton.mp stuck
      exact ⟨rfl, rfl⟩

/-- A source without a program has something wrong with it. -/
theorem readSource_ne_nil {source : List Char} (none_ : (readSource source).program = none) :
    (readSource source).diagnostics ≠ [] := by
  cases reads : Program.read source with
  | ok program => rw [readSource_of_ok reads] at none_; cases none_
  | error error =>
    intro nothing
    have perm := (readSource_of_error reads).2
    rw [nothing] at perm
    simpa using perm.length_eq

theorem hasErrors_readSource (source : List Char) :
    hasErrors (readSource source).diagnostics = true ↔ (readSource source).diagnostics ≠ [] := by
  constructor
  · rintro errors nothing
    rw [nothing] at errors
    cases errors
  · intro some_
    exact hasErrors_of_ne_nil some_ fun diagnostic member =>
      (readSource_malformed source diagnostic member).2

/-! ## What the passes report -/

theorem RootError.isError_diagnostic (place : Span) (error : RootError) :
    (error.diagnostic place).isError = true := by
  cases error <;> rfl

theorem UnfoldingError.isError_diagnostic (place : Span) (error : UnfoldingError) :
    (error.diagnostic place).isError = true := by
  cases error <;> rfl

/-- A graph whose ports are not connected as they should be has an error to show for it. -/
theorem PortGraph.hasErrors_of_checkConnections {graph : PortGraph} {expired : Bool}
    {error : ConnectionError} (fails : graph.checkConnections expired = .error error) :
    hasErrors (error.diagnostics graph) = true := by
  unfold checkConnections at fails
  split at fails
  · cases fails
    rfl
  · split at fails
    · cases fails
    · next some_ =>
      cases fails
      exact hasErrors_map (fun fault => by cases fault <;> rfl) some_

/-- A graph without a signature has an error to show for it. -/
theorem PortGraph.hasErrors_of_infer {graph : PortGraph} {expired : Bool}
    {error : InferenceError} (fails : graph.infer expired = .error error) :
    hasErrors (error.diagnostics graph) = true := by
  unfold infer at fails
  dsimp only at fails
  split at fails
  · cases fails
    rfl
  · split at fails
    · cases fails
    · next some_ =>
      cases fails
      exact hasErrors_map (fun fault => by cases fault <;> rfl) some_

/-! ## The order of the passes -/

/-- The passes required for a result are the first ones of all. -/
theorem Pass.required_prefix (terminal : Pass) : required terminal <+: all := by
  rw [required_eq]
  cases terminal <;> decide

/-- The passes before a pass are known. -/
theorem Pass.eq_of_prefix {done : List Pass} {pass : Pass} (first : done ++ [pass] <+: all) :
    done = all.takeWhile (· != pass) := by
  obtain ⟨rest, parts⟩ := first
  have distinct : (done ++ [pass] ++ rest).Nodup := by rw [parts]; decide
  have unlike : ∀ other ∈ done, (other != pass) = true := by
    rintro other member
    refine bne_iff_ne.mpr ?_
    rintro rfl
    exact (List.nodup_append.mp (List.nodup_append.mp distinct).1).2.2 other member other
      (List.mem_singleton_self other) rfl
  rw [← parts, List.append_assoc, List.takeWhile_append_of_pos unlike]
  simp

/-! ## One pass -/

namespace Progress

variable (program : Program) {options : CompileOptions} {done : List Pass} {progress : Progress}

/-- What there is once the passes in `done` have run without an error. -/
structure Made (options : CompileOptions) (done : List Pass) (progress : Progress) : Prop where
  registry : .register ∈ done → progress.registry.isSome = true
  resolved : .resolve ∈ done → progress.resolved.isSome = true
  root : .expand ∈ done → progress.root.isSome = true
  graph : .expand ∈ done → progress.graph.isSome = true
  connected : .check ∈ done →
    ∀ graph ∈ progress.graph, graph.checkConnections options.checkExpired = .ok ()
  typed : progress.signature.isSome = true ↔ .infer ∈ done

theorem Made.report (made : progress.Made options done) (pass : Pass)
    (diagnostics : List Diagnostic) : (progress.report pass diagnostics).Made options done :=
  ⟨made.registry, made.resolved, made.root, made.graph, made.connected, made.typed⟩

theorem made_start : start.Made options [] := by
  constructor <;> simp [start]

/-- A pass whose turn it is reports, and leaves what it makes behind unless it reports an error. -/
theorem Made.runPass (made : progress.Made options done) {pass : Pass}
    (first : done ++ [pass] <+: Pass.all) :
    ∃ (next : Progress) (diagnostics : List Diagnostic),
      progress.runPass program options pass = next.report pass diagnostics ∧
      next.reports = progress.reports ∧ next.starved = progress.starved ∧
      (hasErrors diagnostics = false → next.Made options (done ++ [pass])) := by
  obtain rfl := Pass.eq_of_prefix first
  cases pass with
  | register =>
      refine ⟨_, _, rfl, rfl, rfl, fun _ => ?_⟩
      constructor <;> simp [Pass.all, made.typed]
  | resolve =>
      obtain ⟨registry, hregistry⟩ := Option.isSome_iff_exists.mp (made.registry (by decide))
      rw [Progress.runPass, resolve, hregistry]
      refine ⟨_, _, rfl, rfl, rfl, fun _ => ?_⟩
      constructor <;> simp [Pass.all, made.typed]
  | expand =>
      obtain ⟨resolved, hresolved⟩ := Option.isSome_iff_exists.mp (made.resolved (by decide))
      rw [Progress.runPass, expand, hresolved]
      dsimp only
      split
      · next error _ =>
        refine ⟨_, _, rfl, rfl, rfl, fun clean => ?_⟩
        simp [hasErrors, error.isError_diagnostic] at clean
      · next root _ =>
        split
        · next error _ =>
          refine ⟨_, _, rfl, rfl, rfl, fun clean => ?_⟩
          simp [hasErrors, error.isError_diagnostic] at clean
        · next graph _ =>
          refine ⟨_, _, rfl, rfl, rfl, fun _ => ?_⟩
          constructor <;> simp [Pass.all, made.typed, made.registry]
  | check =>
      obtain ⟨graph, hgraph⟩ := Option.isSome_iff_exists.mp (made.graph (by decide))
      rw [Progress.runPass, check, hgraph]
      dsimp only
      split
      · next connected =>
        refine ⟨_, _, rfl, rfl, rfl, fun _ => ?_⟩
        constructor <;>
          simp [Pass.all, made.typed, made.registry, made.resolved, made.root, connected]
      · next error fails =>
        refine ⟨_, _, rfl, rfl, rfl, fun clean => ?_⟩
        rw [PortGraph.hasErrors_of_checkConnections fails] at clean
        cases clean
  | infer =>
      obtain ⟨graph, hgraph⟩ := Option.isSome_iff_exists.mp (made.graph (by decide))
      rw [Progress.runPass, infer, hgraph]
      dsimp only
      split
      · next signature inferred =>
        refine ⟨_, _, rfl, rfl, rfl, fun _ => ?_⟩
        have connected := made.connected (by decide) graph hgraph
        constructor <;>
          simp [Pass.all, made.registry, made.resolved, made.root, connected]
      · next error fails =>
        refine ⟨_, _, rfl, rfl, rfl, fun clean => ?_⟩
        rw [PortGraph.hasErrors_of_infer fails] at clean
        cases clean

/-! ## Runs -/

/-- A run in which no pass has failed so far. -/
structure Completed (options : CompileOptions) (done : List Pass) (progress : Progress) :
    Prop where
  made : progress.Made options done
  reported : progress.reports.map (·.pass) = done
  clean : ∀ report ∈ progress.reports, hasErrors report.diagnostics = false
  fed : progress.starved = none

/-- A run that ended with an error in the last report. -/
structure Failed (passes : List Pass) (progress : Progress) (earlier : List PassReport)
    (last : PassReport) : Prop where
  reports : progress.reports = earlier ++ [last]
  clean : ∀ report ∈ earlier, hasErrors report.diagnostics = false
  fails : hasErrors last.diagnostics = true
  reported : progress.reports.map (·.pass) <+: passes
  fed : progress.starved = none

theorem completed_start : start.Completed options [] :=
  ⟨made_start, rfl, by simp [start], rfl⟩

theorem Completed.failingPass? (completed : progress.Completed options done) :
    progress.failingPass? = none := by
  rw [Progress.failingPass?, completed.fed, Option.or_none, Option.map_eq_none_iff,
    List.find?_eq_none]
  intro report member
  simp [completed.clean report member]

theorem Failed.failingPass? {passes : List Pass} {earlier : List PassReport} {last : PassReport}
    (failed : progress.Failed passes earlier last) : progress.failingPass? = some last.pass := by
  have found : earlier.find? (fun report => hasErrors report.diagnostics) = none :=
    List.find?_eq_none.mpr fun report member => by simp [failed.clean report member]
  rw [Progress.failingPass?, failed.reports, List.find?_append, found]
  simp [failed.fails]

/-- A pass that runs after passes without an error completes them, or fails. -/
theorem Completed.runPass (completed : progress.Completed options done) {pass : Pass}
    (first : done ++ [pass] <+: Pass.all) :
    (progress.runPass program options pass).Completed options (done ++ [pass]) ∨
      ∃ last, (progress.runPass program options pass).Failed (done ++ [pass])
        progress.reports last := by
  obtain ⟨next, diagnostics, hnext, reports, starved, made⟩ :=
    completed.made.runPass program first
  have reported : (next.report pass diagnostics).reports.map (·.pass) = done ++ [pass] := by
    simp [report, reports, completed.reported]
  rw [hnext]
  cases hclean : hasErrors diagnostics with
  | false =>
      refine .inl ⟨?_, reported, ?_, starved.trans completed.fed⟩
      · exact (made hclean).report _ _
      · intro report member
        simp only [Progress.report, reports, List.mem_append, List.mem_singleton] at member
        rcases member with earlier | rfl
        · exact completed.clean report earlier
        · exact hclean
  | true =>
      exact .inr ⟨⟨pass, diagnostics⟩,
        { reports := by rw [Progress.report, reports]
          clean := completed.clean
          fails := hclean
          reported := reported ▸ List.prefix_refl _
          fed := starved.trans completed.fed }⟩

/-- Passes run one after the other, up to the first that fails. -/
theorem Completed.runAll (completed : progress.Completed options done) {rest : List Pass}
    (first : done ++ rest <+: Pass.all) :
    (progress.runAll program options rest).Completed options (done ++ rest) ∨
      ∃ earlier last, (progress.runAll program options rest).Failed (done ++ rest)
        earlier last := by
  induction rest generalizing progress done with
  | nil => exact .inl (by simpa [Progress.runAll] using completed)
  | cons pass rest ih =>
      rw [Progress.runAll, List.append_cons]
      rw [List.append_cons] at first
      rcases completed.runPass program ((List.prefix_append _ _).trans first) with
        next | ⟨last, failed⟩
      · rw [if_neg (by simp [hasError, next.failingPass?])]
        exact ih next first
      · rw [if_pos (by simp [hasError, failed.failingPass?])]
        exact .inr ⟨progress.reports, last,
          { failed with reported := failed.reported.trans (List.prefix_append _ _) }⟩

/-- A run completes the passes required for a result, or ends with one that fails. -/
theorem completed_or_failed (options : CompileOptions) (terminal : Pass) :
    (run program options terminal).Completed options (Pass.required terminal) ∨
      ∃ earlier last, (run program options terminal).Failed (Pass.required terminal)
        earlier last :=
  completed_start.runAll program (Pass.required_prefix terminal)

/-- A pass never finds what it works on missing. -/
theorem starved_run (options : CompileOptions) (terminal : Pass) :
    (run program options terminal).starved = none := by
  rcases completed_or_failed program options terminal with completed | ⟨earlier, last, failed⟩
  · exact completed.fed
  · exact failed.fed

end Progress

/-! ## Compilations -/

/-- All passes are required, but inference only for a signature. -/
theorem CompileOptions.mem_required {options : CompileOptions} {pass : Pass} :
    pass ∈ Pass.required options.terminal ↔ (pass = .infer → options.typing = true) := by
  unfold terminal
  cases options.typing <;> cases pass <;> decide

/-- An error that tells all there is to tell about a source and the run on it. -/
structure CompileError.Accounts (error : CompileError) (source : String)
    (options : CompileOptions) (progress : Progress) : Prop where
  primary : ∃ diagnostic ∈ error.diagnostics, diagnostic.isError = true
  located : ∀ diagnostic ∈ error.diagnostics, diagnostic.position.isSome = true
  unread : error.failingPass = none ↔ (readSource source.toList).diagnostics ≠ []
  /-- No pass runs on a source that does not read. -/
  malformed : error.failingPass = none →
    (∀ diagnostic ∈ error.diagnostics,
      diagnostic.kind = .malformed ∧ diagnostic.isError = true) ∧ progress.reports = []
  /-- Without a fault of the source the last pass that ran is the one that failed. -/
  failed : ∀ pass, error.failingPass = some pass →
    progress.reports.map (·.pass) <+: Pass.required options.terminal ∧
    (∃ earlier last, progress.reports = earlier ++ [last] ∧ last.pass = pass ∧
      hasErrors last.diagnostics = true ∧
      ∀ report ∈ earlier, hasErrors report.diagnostics = false) ∧
    error.diagnostics =
      (progress.reports.flatMap (·.diagnostics)).map (Diagnostic.locate source.toList)

/-- A compilation that is all that was asked for. -/
structure Compilation.Accounts (compilation : Compilation) (source : String)
    (options : CompileOptions) (progress : Progress) : Prop where
  reads : (readSource source.toList).diagnostics = []
  reported : progress.reports.map (·.pass) = Pass.required options.terminal
  warnings : compilation.warnings =
    (progress.reports.flatMap (·.diagnostics)).map (Diagnostic.locate source.toList)
  warning : ∀ diagnostic ∈ compilation.warnings, diagnostic.severity = .warning
  connected : compilation.graph.checkConnections options.checkExpired = .ok ()
  typed : compilation.signature.isSome = options.typing

/-- A source that has something wrong with it is refused before any pass. -/
theorem compileWithProgress_of_unread {source : String} {options : CompileOptions}
    (wrong : (readSource source.toList).diagnostics ≠ []) :
    compileWithProgress source options =
      (.error ⟨(readSource source.toList).diagnostics.map (Diagnostic.locate source.toList), none⟩,
        .start) := by
  unfold compileWithProgress
  dsimp only
  cases (readSource source.toList).program with
  | none => rfl
  | some program => exact if_pos ((hasErrors_readSource _).mpr wrong)

theorem compileWithProgress_of_read {source : String} {options : CompileOptions}
    {program : Program} (reads : readSource source.toList = ⟨some program, []⟩) :
    compileWithProgress source options =
      ((Progress.run program options options.terminal).finish source program options.terminal,
        Progress.run program options options.terminal) := by
  simp [compileWithProgress, reads, hasErrors]

theorem CompileError.accounts_unread {source : String} (options : CompileOptions)
    (wrong : (readSource source.toList).diagnostics ≠ []) :
    CompileError.Accounts
      ⟨(readSource source.toList).diagnostics.map (Diagnostic.locate source.toList), none⟩ source
      options .start := by
  have malformed := readSource_malformed source.toList
  refine ⟨?_, ?_, by simp [wrong], fun _ => ⟨?_, rfl⟩, nofun⟩
  · exact List.any_eq_true.mp
      ((hasErrors_map_locate _ _).trans ((hasErrors_readSource _).mpr wrong))
  · intro diagnostic member
    obtain ⟨reported, -, rfl⟩ := List.mem_map.mp member
    exact reported.isSome_position_locate _
  · intro diagnostic member
    obtain ⟨reported, listed, rfl⟩ := List.mem_map.mp member
    simpa using malformed reported listed

/-- A source has something wrong with it, or else it reads as a program. -/
theorem readSource_cases (source : List Char) :
    (readSource source).diagnostics ≠ [] ∨
      ∃ program, readSource source = ⟨some program, []⟩ := by
  by_cases nothing : (readSource source).diagnostics = []
  · cases yields : (readSource source).program with
    | none => exact .inl (readSource_ne_nil yields)
    | some program => exact .inr ⟨program, by rw [← yields, ← nothing]⟩
  · exact .inl nothing

namespace Progress

variable (program : Program) {options : CompileOptions} {progress : Progress}

/-- Once all passes are completed there is all that a compilation consists of. -/
theorem Completed.artifacts
    (completed : progress.Completed options (Pass.required options.terminal)) :
    progress.registry.isSome = true ∧ progress.root.isSome = true ∧
      progress.graph.isSome = true :=
  ⟨completed.made.registry (CompileOptions.mem_required.mpr nofun),
    completed.made.root (CompileOptions.mem_required.mpr nofun),
    completed.made.graph (CompileOptions.mem_required.mpr nofun)⟩

theorem Completed.accounts {source : String} (reads : (readSource source.toList).diagnostics = [])
    (completed : progress.Completed options (Pass.required options.terminal)) :
    ∃ compilation, progress.finish source program options.terminal = .ok compilation ∧
      compilation.Accounts source options progress := by
  obtain ⟨hasRegistry, hasRoot, hasGraph⟩ := completed.artifacts
  obtain ⟨registry, hregistry⟩ := Option.isSome_iff_exists.mp hasRegistry
  obtain ⟨root, hroot⟩ := Option.isSome_iff_exists.mp hasRoot
  obtain ⟨graph, hgraph⟩ := Option.isSome_iff_exists.mp hasGraph
  have checked := completed.made.connected (CompileOptions.mem_required.mpr nofun)
  refine ⟨_, by rw [finish, completed.failingPass?, hregistry, hroot, hgraph], reads,
    completed.reported, rfl, ?_, checked graph hgraph, ?_⟩
  · intro diagnostic member
    obtain ⟨reported, listed, rfl⟩ := List.mem_map.mp member
    obtain ⟨report, ran, among⟩ := List.mem_flatMap.mp listed
    have harmless := List.any_eq_false.mp (completed.clean report ran) reported among
    exact Diagnostic.isError_eq_false.mp (by simpa using harmless)
  · refine Bool.eq_iff_iff.mpr (completed.made.typed.trans ?_)
    exact CompileOptions.mem_required.trans (forall_prop_of_true rfl)

theorem Failed.accounts {source : String} (reads : (readSource source.toList).diagnostics = [])
    {earlier : List PassReport} {last : PassReport}
    (failed : progress.Failed (Pass.required options.terminal) earlier last) :
    ∃ error, progress.finish source program options.terminal = .error error ∧
      error.Accounts source options progress := by
  have diagnostics : progress.diagnostics =
      earlier.flatMap (·.diagnostics) ++ last.diagnostics := by
    simp [Progress.diagnostics, failed.reports]
  refine ⟨_, by rw [finish, failed.failingPass?], ?_, ?_, by simp [reads], by simp, ?_⟩
  · refine List.any_eq_true.mp ((hasErrors_map_locate _ _).trans ?_)
    rw [diagnostics, hasErrors_append, failed.fails, Bool.or_true]
  · intro diagnostic member
    obtain ⟨reported, -, rfl⟩ := List.mem_map.mp member
    exact reported.isSome_position_locate _
  · rintro pass same
    exact ⟨failed.reported,
      ⟨earlier, last, failed.reports, Option.some.inj same, failed.fails, failed.clean⟩, rfl⟩

end Progress

/--
Compiling is all or nothing, for every source and whatever is asked for: an error accounts for all
that was reported, and what is compiled is complete.  Nothing that a pass works on, and nothing that
a compilation consists of, is ever missing.
-/
theorem compile_all_or_nothing (source : String) (options : CompileOptions) :
    (match compileWithProgress source options with
      | (.error error, progress) => error.Accounts source options progress
      | (.ok compilation, progress) => compilation.Accounts source options progress) ∧
    (∀ program terminal, (Progress.run program options terminal).starved = none) ∧
    ∀ program, (Progress.run program options options.terminal).failingPass? = none →
      (Progress.run program options options.terminal).registry.isSome = true ∧
      (Progress.run program options options.terminal).root.isSome = true ∧
      (Progress.run program options options.terminal).graph.isSome = true := by
  refine ⟨?_, fun program terminal => Progress.starved_run program options terminal, ?_⟩
  · rcases readSource_cases source.toList with wrong | ⟨program, reads⟩
    · rw [compileWithProgress_of_unread wrong]
      exact CompileError.accounts_unread options wrong
    · rw [compileWithProgress_of_read reads]
      have nothing : (readSource source.toList).diagnostics = [] := by rw [reads]
      rcases Progress.completed_or_failed program options options.terminal with
        completed | ⟨earlier, last, failed⟩
      · obtain ⟨compilation, hfinish, accounts⟩ := completed.accounts program nothing
        rw [hfinish]
        exact accounts
      · obtain ⟨error, hfinish, accounts⟩ := failed.accounts program nothing
        rw [hfinish]
        exact accounts
  · intro program none_
    rcases Progress.completed_or_failed program options options.terminal with
      completed | ⟨earlier, last, failed⟩
    · exact completed.artifacts
    · rw [failed.failingPass?] at none_
      cases none_

end FlowDiagram

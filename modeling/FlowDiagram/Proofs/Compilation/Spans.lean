import FlowDiagram.Compilation
import FlowDiagram.Proofs.Compilation.Outcome
import FlowDiagram.Proofs.Program.Layout
import FlowDiagram.Proofs.Signature.Spans
import FlowDiagram.Proofs.Unfolding.Spans

/-!
# Compiling without spans

Every pass does to a program without spans what it does to the program, and says the same about it.
So sources that read as the same program, up to spans, compile alike; above all a source and the
canonical text of its program.
-/

namespace FlowDiagram

/-! ## The root and what it uses -/

namespace ResolvedProgram

variable (program : ResolvedProgram)

theorem getElem?_definitions_withoutSpans (index : Nat) :
    program.withoutSpans.definitions[index]? =
      program.definitions[index]?.map ResolvedDefinition.withoutSpans :=
  List.getElem?_map

theorem length_definitions_withoutSpans :
    program.withoutSpans.definitions.length = program.definitions.length :=
  List.length_map _

theorem named?_withoutSpans (name : String) :
    (program.withoutSpans.named? name).map Fin.val = (program.named? name).map Fin.val := by
  unfold named?
  rw [← List.findIdx?_eq_map_findFinIdx?_val, ← List.findIdx?_eq_map_findFinIdx?_val,
    withoutSpans, List.findIdx?_map]
  rfl

theorem last?_withoutSpans :
    program.withoutSpans.last?.map Fin.val = program.last?.map Fin.val := by
  have length := program.length_definitions_withoutSpans
  unfold last?
  by_cases nonempty : 0 < program.definitions.length
  · rw [dif_pos nonempty, dif_pos (length.symm ▸ nonempty)]
    exact congrArg (fun count => some (count - 1)) length
  · rw [dif_neg nonempty, dif_neg (length.symm ▸ nonempty)]
    rfl

/-- The same root is found, or there is none for the same reason. -/
theorem selectRoot_withoutSpans (name : Option String) :
    (program.withoutSpans.selectRoot name).map Fin.val =
      (program.selectRoot name).map Fin.val := by
  cases name with
  | some name =>
      have found := program.named?_withoutSpans name
      unfold selectRoot
      dsimp only
      generalize program.withoutSpans.named? name = first at found ⊢
      generalize program.named? name = second at found ⊢
      cases first <;> cases second <;> simp_all [Except.map]
  | none =>
      have found : ((program.withoutSpans.named? "main").or program.withoutSpans.last?).map
          Fin.val = ((program.named? "main").or program.last?).map Fin.val := by
        rw [Option.map_or, Option.map_or, named?_withoutSpans, last?_withoutSpans]
      unfold selectRoot
      dsimp only
      generalize (program.withoutSpans.named? "main").or program.withoutSpans.last? = first
        at found ⊢
      generalize (program.named? "main").or program.last? = second at found ⊢
      cases first <;> cases second <;> simp_all [Except.map]

theorem callees_withoutSpans (index : Nat) :
    program.withoutSpans.callees index = program.callees index := by
  unfold callees
  rw [getElem?_definitions_withoutSpans]
  cases program.definitions[index]? with
  | none => rfl
  | some definition =>
      have uses : definition.withoutSpans.uses = definition.uses.map ResolvedUse.withoutSpan := rfl
      simp only [Option.map_some, uses, List.filterMap_map]
      rfl

theorem closure_withoutSpans (steps : Nat) (pending seen : List Nat) :
    program.withoutSpans.closure steps pending seen = program.closure steps pending seen := by
  induction steps generalizing pending seen with
  | zero => rfl
  | succ steps ih =>
      cases pending with
      | nil => rfl
      | cons index pending => simp only [closure, callees_withoutSpans, ih]

/-- The same definitions are not used. -/
theorem unusedWarnings_withoutSpans {root : program.Index} {same : program.withoutSpans.Index}
    (number : (same : Nat) = root) :
    program.withoutSpans.unusedWarnings same =
      (program.unusedWarnings root).map Diagnostic.withoutPlaces := by
  unfold unusedWarnings reachable
  dsimp only
  rw [definition_withoutSpans program number, number, closure_withoutSpans,
    length_definitions_withoutSpans,
    show program.withoutSpans.definitions =
      program.definitions.map ResolvedDefinition.withoutSpans from rfl, List.zipIdx_map,
    List.filterMap_map, List.map_filterMap]
  congr 1
  funext ⟨definition, index⟩
  rw [apply_ite (Option.map Diagnostic.withoutPlaces)]
  exact ite_congr rfl (fun _ => rfl) (fun _ => rfl)

end ResolvedProgram

theorem Registry.shapeText_withoutSpans (registry : Registry) :
    registry.withoutSpans.shapeText = registry.shapeText := by
  unfold shapeText withoutSpans
  rw [List.map_map]
  rfl

/-! ## Passes -/

@[simp]
theorem hasErrors_withoutPlaces (diagnostics : List Diagnostic) :
    hasErrors (diagnostics.map Diagnostic.withoutPlaces) = hasErrors diagnostics := by
  unfold hasErrors
  rw [List.any_map]
  rfl

def PassReport.withoutPlaces (report : PassReport) : PassReport :=
  { report with diagnostics := report.diagnostics.map Diagnostic.withoutPlaces }

namespace Progress

def withoutSpans (progress : Progress) : Progress :=
  { progress with
    registry := progress.registry.map Registry.withoutSpans
    resolved := progress.resolved.map ResolvedProgram.withoutSpans
    graph := progress.graph.map PortGraph.withoutSpans
    reports := progress.reports.map PassReport.withoutPlaces }

variable (progress : Progress)

theorem report_withoutSpans (pass : Pass) (diagnostics : List Diagnostic) :
    (progress.report pass diagnostics).withoutSpans =
      progress.withoutSpans.report pass (diagnostics.map Diagnostic.withoutPlaces) := by
  simp [report, withoutSpans, PassReport.withoutPlaces]

theorem failingPass?_withoutSpans : progress.withoutSpans.failingPass? = progress.failingPass? := by
  have errors : ∀ report : PassReport, hasErrors report.withoutPlaces.diagnostics =
      hasErrors report.diagnostics := fun report => hasErrors_withoutPlaces _
  unfold failingPass? withoutSpans
  dsimp only
  rw [List.find?_map, Option.map_map]
  simp only [Function.comp_def, errors]
  rfl

theorem hasError_withoutSpans : progress.withoutSpans.hasError = progress.hasError :=
  congrArg Option.isSome progress.failingPass?_withoutSpans

theorem diagnostics_withoutSpans :
    progress.withoutSpans.diagnostics = progress.diagnostics.map Diagnostic.withoutPlaces := by
  unfold diagnostics withoutSpans
  dsimp only
  rw [List.flatMap_map, List.map_flatMap]
  rfl

theorem register_withoutSpans (program : Program) :
    progress.withoutSpans.register program.withoutSpans =
      (progress.register program).withoutSpans := by
  have each : ∀ error : RegistryError, error.withoutSpans.diagnostic program.withoutSpans.span =
      (error.diagnostic program.span).withoutPlaces :=
    fun error => error.diagnostic_withoutSpans program.span
  simp only [register, Registry.ofProgram_withoutSpans, report_withoutSpans, List.map_map,
    Function.comp_def, each]
  rfl

theorem resolve_withoutSpans (program : Program) :
    progress.withoutSpans.resolve program.withoutSpans =
      (progress.resolve program).withoutSpans := by
  unfold resolve
  cases hregistry : progress.registry with
  | none => simp [withoutSpans, starve, hregistry]
  | some registry =>
      have there : progress.withoutSpans.registry = some registry.withoutSpans := by
        simp [withoutSpans, hregistry]
      simp only [there, Program.resolve_withoutSpans, report_withoutSpans, List.map_map,
        Function.comp_def, ResolutionError.diagnostic_withoutSpans]
      rfl

theorem expand_withoutSpans (program : Program) (options : CompileOptions) :
    progress.withoutSpans.expand program.withoutSpans options =
      (progress.expand program options).withoutSpans := by
  unfold expand
  cases hresolved : progress.resolved with
  | none => simp [withoutSpans, starve, hresolved]
  | some resolved =>
      have there : progress.withoutSpans.resolved = some resolved.withoutSpans := by
        simp [withoutSpans, hresolved]
      have chosen := resolved.selectRoot_withoutSpans options.root
      rw [there]
      dsimp only
      cases hroot : resolved.selectRoot options.root with
      | error error =>
          rw [hroot] at chosen
          cases hsame : resolved.withoutSpans.selectRoot options.root with
          | ok same => rw [hsame] at chosen; cases chosen
          | error other =>
              rw [hsame] at chosen
              cases chosen
              rw [report_withoutSpans]
              cases error <;> rfl
      | ok root =>
          rw [hroot] at chosen
          cases hsame : resolved.withoutSpans.selectRoot options.root with
          | error error => rw [hsame] at chosen; cases chosen
          | ok same =>
              rw [hsame] at chosen
              have number : (same : Nat) = root := Except.ok.inj chosen
              dsimp only
              rw [resolved.expand_withoutSpans number, resolved.unusedWarnings_withoutSpans number,
                resolved.definition_withoutSpans number, number]
              cases resolved.expand root options.generators options.limits with
              | ok graph =>
                  dsimp only [Except.map]
                  rw [report_withoutSpans]
                  rfl
              | error error =>
                  dsimp only [Except.map]
                  rw [report_withoutSpans, List.map_append]
                  cases error <;> rfl

theorem check_withoutSpans (options : CompileOptions) :
    progress.withoutSpans.check options = (progress.check options).withoutSpans := by
  unfold check
  cases hgraph : progress.graph with
  | none => simp [withoutSpans, starve, hgraph]
  | some graph =>
      have there : progress.withoutSpans.graph = some graph.withoutSpans := by
        simp [withoutSpans, hgraph]
      rw [there]
      dsimp only
      rw [graph.checkConnections_withoutSpans]
      cases graph.checkConnections options.checkExpired with
      | ok connected =>
          dsimp only [Except.mapError]
          rw [report_withoutSpans]
          simp [withoutSpans, hgraph]
      | error error =>
          dsimp only [Except.mapError]
          rw [error.diagnostics_withoutSpans, report_withoutSpans]

theorem infer_withoutSpans (options : CompileOptions) :
    progress.withoutSpans.infer options = (progress.infer options).withoutSpans := by
  unfold infer
  cases hgraph : progress.graph with
  | none => simp [withoutSpans, starve, hgraph]
  | some graph =>
      have there : progress.withoutSpans.graph = some graph.withoutSpans := by
        simp [withoutSpans, hgraph]
      rw [there]
      dsimp only
      rw [graph.infer_withoutSpans]
      cases graph.infer options.inferExpired with
      | ok signature =>
          dsimp only [Except.mapError]
          rw [report_withoutSpans]
          simp [withoutSpans, hgraph]
      | error error =>
          dsimp only [Except.mapError]
          rw [error.diagnostics_withoutSpans, report_withoutSpans]

/-- Every pass says and makes the same, up to spans. -/
theorem runPass_withoutSpans (program : Program) (options : CompileOptions) (pass : Pass) :
    progress.withoutSpans.runPass program.withoutSpans options pass =
      (progress.runPass program options pass).withoutSpans := by
  cases pass with
  | register => exact progress.register_withoutSpans program
  | resolve => exact progress.resolve_withoutSpans program
  | expand => exact progress.expand_withoutSpans program options
  | check => exact progress.check_withoutSpans options
  | infer => exact progress.infer_withoutSpans options

theorem runAll_withoutSpans (program : Program) (options : CompileOptions) (passes : List Pass) :
    progress.withoutSpans.runAll program.withoutSpans options passes =
      (progress.runAll program options passes).withoutSpans := by
  induction passes generalizing progress with
  | nil => rfl
  | cons pass rest ih =>
      rw [runAll, runAll, runPass_withoutSpans]
      rw [hasError_withoutSpans, apply_ite withoutSpans, ih]

/-- A run on a program without spans is the run on the program, without spans. -/
theorem run_withoutSpans (program : Program) (options : CompileOptions) (terminal : Pass) :
    run program.withoutSpans options terminal = (run program options terminal).withoutSpans :=
  runAll_withoutSpans .start program options _

end Progress

/-! ## Compilations -/

/-- Two compilations that may differ in the places of their sources and in nothing else. -/
structure Compilation.Alike (first second : Compilation) : Prop where
  root : first.root = second.root
  text : first.graph.text = second.graph.text
  json : first.graph.json = second.graph.json
  signature : first.signature = second.signature
  dot : first.dot = second.dot
  printed : first.program.text = second.program.text
  registry : first.fingerprint.registry = second.fingerprint.registry
  warnings : first.warnings.map Diagnostic.withoutPlaces =
    second.warnings.map Diagnostic.withoutPlaces

/-- Two errors of the same pass that say the same, wherever it is in their sources. -/
structure CompileError.Alike (first second : CompileError) : Prop where
  failingPass : first.failingPass = second.failingPass
  diagnostics : first.diagnostics.map Diagnostic.withoutPlaces =
    second.diagnostics.map Diagnostic.withoutPlaces

/-- Both compile alike, or fail alike. -/
def CompileAlike : Except CompileError Compilation → Except CompileError Compilation → Prop
  | .ok first, .ok second => first.Alike second
  | .error first, .error second => first.Alike second
  | _, _ => False

theorem Diagnostic.withoutPlaces_locate (source : List Char) (diagnostics : List Diagnostic) :
    (diagnostics.map (Diagnostic.locate source)).map Diagnostic.withoutPlaces =
      diagnostics.map Diagnostic.withoutPlaces := by
  rw [List.map_map]
  refine List.map_congr_left fun diagnostic _ => ?_
  obtain ⟨position, located⟩ := diagnostic.locate_eq source
  rw [Function.comp_apply, located]
  rfl

namespace Progress

variable {options : CompileOptions} {progress other : Progress} {program again : Program}

/-- Progress that is the same up to spans says the same, up to places. -/
theorem diagnostics_alike (same : other.withoutSpans = progress.withoutSpans)
    (source another : List Char) :
    (other.diagnostics.map (Diagnostic.locate another)).map Diagnostic.withoutPlaces =
      (progress.diagnostics.map (Diagnostic.locate source)).map Diagnostic.withoutPlaces := by
  rw [Diagnostic.withoutPlaces_locate, Diagnostic.withoutPlaces_locate,
    ← diagnostics_withoutSpans, same, diagnostics_withoutSpans]

theorem failingPass?_alike (same : other.withoutSpans = progress.withoutSpans) :
    other.failingPass? = progress.failingPass? := by
  rw [← failingPass?_withoutSpans, same, failingPass?_withoutSpans]

theorem Completed.finish_alike
    (completed : progress.Completed options (Pass.required options.terminal))
    (same : other.withoutSpans = progress.withoutSpans) (printed : again.text = program.text)
    (source another : String) :
    CompileAlike (other.finish another again options.terminal)
      (progress.finish source program options.terminal) := by
  obtain ⟨hasRegistry, hasRoot, hasGraph⟩ := completed.artifacts
  obtain ⟨registry, hregistry⟩ := Option.isSome_iff_exists.mp hasRegistry
  obtain ⟨root, hroot⟩ := Option.isSome_iff_exists.mp hasRoot
  obtain ⟨graph, hgraph⟩ := Option.isSome_iff_exists.mp hasGraph
  have registries := congrArg Progress.registry same
  have roots := congrArg Progress.root same
  have graphs := congrArg Progress.graph same
  have signatures := congrArg Progress.signature same
  simp only [withoutSpans, hregistry, hroot, hgraph, Option.map_some]
    at registries roots graphs signatures
  obtain ⟨registry', hregistry', sameRegistry⟩ := Option.map_eq_some_iff.mp registries
  obtain ⟨graph', hgraph', sameGraph⟩ := Option.map_eq_some_iff.mp graphs
  have shapes : registry'.shapeText = registry.shapeText := by
    rw [← registry'.shapeText_withoutSpans, sameRegistry, registry.shapeText_withoutSpans]
  have named : graph'.withoutSpans.root = graph.withoutSpans.root := by rw [sameGraph]
  have text : graph'.text = graph.text := by
    rw [← graph'.text_withoutSpans, sameGraph, graph.text_withoutSpans]
  have json : graph'.json = graph.json := by
    rw [← graph'.json_withoutSpans, sameGraph, graph.json_withoutSpans]
  have dot : graph'.dot other.signature = graph.dot progress.signature := by
    rw [signatures, ← graph'.dot_withoutSpans, sameGraph, graph.dot_withoutSpans]
  have failing := failingPass?_alike same
  rw [completed.failingPass?] at failing
  rw [finish, finish, failing, completed.failingPass?, hregistry, hregistry', hroot, roots, hgraph,
    hgraph']
  exact
    { root := named
      text := text
      json := json
      signature := signatures
      dot := dot
      printed := printed
      registry := congrArg Digest.ofText shapes
      warnings := diagnostics_alike same _ _ }

theorem Failed.finish_alike {passes : List Pass} {earlier : List PassReport} {last : PassReport}
    (failed : progress.Failed passes earlier last)
    (same : other.withoutSpans = progress.withoutSpans) (source another : String) :
    CompileAlike (other.finish another again options.terminal)
      (progress.finish source program options.terminal) := by
  have failing := failingPass?_alike same
  rw [failed.failingPass?] at failing
  rw [finish, finish, failing, failed.failingPass?]
  exact ⟨rfl, diagnostics_alike same _ _⟩

end Progress

/-- Sources that read as the same program, up to spans, compile alike. -/
theorem compile_alike_of_read {source other : String} {program again : Program}
    (reads : readSource source.toList = ⟨some program, []⟩)
    (readsOther : readSource other.toList = ⟨some again, []⟩)
    (same : again.withoutSpans = program.withoutSpans) (options : CompileOptions) :
    CompileAlike (compile other options) (compile source options) := by
  have runs : (Progress.run again options options.terminal).withoutSpans =
      (Progress.run program options options.terminal).withoutSpans := by
    rw [← Progress.run_withoutSpans, same, Progress.run_withoutSpans]
  have printed : again.text = program.text := by
    rw [← again.text_withoutSpans, same, program.text_withoutSpans]
  rw [compile, compile, compileWithProgress_of_read reads, compileWithProgress_of_read readsOther]
  rcases Progress.completed_or_failed program options options.terminal with
    completed | ⟨earlier, last, failed⟩
  · exact completed.finish_alike runs printed source other
  · exact failed.finish_alike runs source other

/--
Compiling the canonical text of a program is compiling the source that it was read from: whatever is
asked for, both compile alike, or fail alike.  So do any two sources whose programs have the same
canonical text, and any two sources of the same tokens: layout, comments and separators matter to
places and to the digest of the source only.
-/
theorem compile_text {source : String} {program : Program}
    (reads : readSource source.toList = ⟨some program, []⟩) (options : CompileOptions) :
    CompileAlike (compile program.text options) (compile source options) ∧
    (∀ other again, readSource other.toList = ⟨some again, []⟩ → again.text = program.text →
      CompileAlike (compile other options) (compile source options)) ∧
    ∀ other : String, lexicalFaults other.toList = [] →
      (lexemes other.toList).map (·.token) = (lexemes source.toList).map (·.token) →
        CompileAlike (compile other options) (compile source options) := by
  have readsProgram : Program.read source.toList = .ok program :=
    readSource_program_eq_some.mp (by rw [reads])
  obtain ⟨printed, readsText, same, -⟩ :=
    exists_readSource_text (Program.allNamed_of_read readsProgram)
  refine ⟨compile_alike_of_read reads readsText same options, ?_, ?_⟩
  · intro other again readsOther sameText
    have readsAgain : Program.read other.toList = .ok again :=
      readSource_program_eq_some.mp (by rw [readsOther])
    obtain ⟨printedAgain, readsTextAgain, sameAgain, -⟩ :=
      exists_readSource_text (Program.allNamed_of_read readsAgain)
    rw [sameText, readsText] at readsTextAgain
    cases readsTextAgain
    exact compile_alike_of_read reads readsOther (sameAgain.symm.trans same) options
  · intro other faultless sameTokens
    obtain ⟨again, readsAgain, sameAgain⟩ := Program.exists_read_of_tokens readsProgram sameTokens
    have readsOther : readSource other.toList = ⟨some again, []⟩ := by
      rw [readSource_of_ok readsAgain, faultless]
      rfl
    exact compile_alike_of_read reads readsOther sameAgain options

/-- A source with a comment, empty generics, two blocks of links and hardly any layout. -/
def denseSource : String :=
  "def main=<>[X|Y] # one node\n use +a[X|Y]as A link X>->A.X link A.Y>->Y"

def denseText : String :=
  "def main = [X | Y]\n    use +a [X | Y] as A\n    link\n        X >-> A.X\n        A.Y >-> Y\n"

/-- The signature is asked for, under the limits given by default. -/
def denseOptions : CompileOptions :=
  ⟨none, none, true, ⟨0, 100000, false⟩, false, false⟩

/-- The canonical text has other spans, one block of links and no generics. -/
theorem compile_text_dense :
    ∃ program : Program,
      readSource denseSource.toList = ⟨some program, []⟩ ∧
      program.text = denseText ∧
      (compile denseSource denseOptions).toOption.map (·.graph.text) = some
        ("graph main [X | Y]\n  n0 +a [X | Y] at A (main, level 0)\n" ++
          "  in.X -> n0.X\n  n0.Y -> out.Y\n") ∧
      CompileAlike (compile program.text denseOptions) (compile denseSource denseOptions) := by
  have faultless : (readSource denseSource.toList).diagnostics = [] := by decide +kernel
  have printed : (readSource denseSource.toList).program.map (·.text) = some denseText := by
    decide +kernel
  obtain wrong | ⟨program, reads⟩ := readSource_cases denseSource.toList
  · exact absurd faultless wrong
  · rw [reads] at printed
    exact ⟨program, reads, Option.some.inj printed, by decide +kernel,
      (compile_text reads denseOptions).1⟩

end FlowDiagram

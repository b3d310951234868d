import FlowDiagram.Proofs.Compilation.Typing
import FlowDiagram.Proofs.Expansion.Reachable

/-!
# Unused definitions

What compiles is warned of exactly the definitions that its root does not lead to.  Those are the
ones of which its graph has no instance, whatever the depth at which that has been cut off.
-/

namespace FlowDiagram

/-- The warning that a definition is not used by the root of this name. -/
def Definition.neverUsed (definition : Definition) (root : String) : Diagnostic :=
  .warning definition.name.span
    ("definition `" ++ definition.name.name ++ "` is never used by `" ++ root ++ "`")

/-! ## What a run warns of -/

/-- Without an error there is no fault. -/
theorem eq_nil_of_clean {Fault : Type} {diagnose : Fault → Diagnostic}
    (error : ∀ fault, (diagnose fault).isError = true) {faults : List Fault}
    (clean : hasErrors (faults.map diagnose) = false) : faults = [] := by
  by_contra some_
  rw [hasErrors_map error some_] at clean
  cases clean

namespace Progress

theorem diagnostics_report (progress : Progress) (pass : Pass) (diagnostics : List Diagnostic) :
    (progress.report pass diagnostics).diagnostics = progress.diagnostics ++ diagnostics := by
  simp [Progress.diagnostics, report]

variable {program : Program} {options : CompileOptions} {done : List Pass} {progress : Progress}

theorem Completed.clean_report {pass : Pass} {diagnostics : List Diagnostic}
    (completed : (progress.report pass diagnostics).Completed options done) :
    hasErrors diagnostics = false :=
  completed.clean ⟨pass, diagnostics⟩ (by simp [report])

/-- Passes that have run without an error warn of what the root does not use, and nothing else. -/
structure Warns (program : Program) (options : CompileOptions) (done : List Pass)
    (progress : Progress) : Prop where
  registers : .register ∈ done → (Registry.ofProgram program).2 = []
  resolves : .resolve ∈ done → (program.resolve (Registry.ofProgram program).1).2 = []
  warned : ∀ root, program.resolved.selectRoot options.root = .ok root →
    progress.diagnostics = if .expand ∈ done then program.resolved.unusedWarnings root else []

theorem warns_start : start.Warns program options [] :=
  ⟨nofun, nofun, fun _ _ => rfl⟩

theorem Warns.runPass (warns : progress.Warns program options done)
    (completed : progress.Completed options done) (yields : progress.Yields program options)
    {pass : Pass} (first : done ++ [pass] <+: Pass.all)
    (next : (progress.runPass program options pass).Completed options (done ++ [pass])) :
    (progress.runPass program options pass).Warns program options (done ++ [pass]) := by
  obtain rfl := Pass.eq_of_prefix first
  cases pass with
  | register =>
      rw [Progress.runPass, register] at next ⊢
      have none_ : (Registry.ofProgram program).2 = [] :=
        eq_nil_of_clean (fun fault => by cases fault <;> rfl) next.clean_report
      refine ⟨fun _ => none_, fun held => absurd held (by decide), fun root selected => ?_⟩
      rw [diagnostics_report, none_]
      exact (List.append_nil _).trans (warns.warned root selected)
  | resolve =>
      obtain ⟨registry, made⟩ := Option.isSome_iff_exists.mp (completed.made.registry (by decide))
      obtain rfl := yields.registry registry made
      rw [Progress.runPass, resolve, made] at next ⊢
      have none_ : (program.resolve (Registry.ofProgram program).1).2 = [] :=
        eq_nil_of_clean (fun fault => by cases fault <;> rfl) next.clean_report
      refine ⟨fun _ => warns.registers (by decide), fun _ => none_, fun root selected => ?_⟩
      rw [diagnostics_report, none_]
      exact (List.append_nil _).trans (warns.warned root selected)
  | expand =>
      obtain ⟨resolved, made⟩ := Option.isSome_iff_exists.mp (completed.made.resolved (by decide))
      obtain rfl := yields.resolved resolved made
      rw [Progress.runPass, expand, made] at next ⊢
      refine ⟨fun _ => warns.registers (by decide), fun _ => warns.resolves (by decide), ?_⟩
      intro root selected
      simp only [selected] at next ⊢
      have before := warns.warned root selected
      split at next
      · next error _ =>
        have clean := next.clean_report
        simp [hasErrors, error.isError_diagnostic] at clean
      · next graph expanded =>
        rw [diagnostics_report, if_pos (by decide)]
        exact (congrArg (· ++ _) before).trans (List.nil_append _)
  | check =>
      obtain ⟨graph, made⟩ := Option.isSome_iff_exists.mp (completed.made.graph (by decide))
      rw [Progress.runPass, check, made] at next ⊢
      refine ⟨fun _ => warns.registers (by decide), fun _ => warns.resolves (by decide), ?_⟩
      intro root selected
      dsimp only at next ⊢
      split at next
      · rw [diagnostics_report]
        exact (List.append_nil _).trans (warns.warned root selected)
      · next error fails =>
        have clean := next.clean_report
        rw [PortGraph.hasErrors_of_checkConnections fails] at clean
        cases clean
  | infer =>
      obtain ⟨graph, made⟩ := Option.isSome_iff_exists.mp (completed.made.graph (by decide))
      rw [Progress.runPass, infer, made] at next ⊢
      refine ⟨fun _ => warns.registers (by decide), fun _ => warns.resolves (by decide), ?_⟩
      intro root selected
      dsimp only at next ⊢
      split at next
      · rw [diagnostics_report]
        exact (List.append_nil _).trans (warns.warned root selected)
      · next error fails =>
        have clean := next.clean_report
        rw [PortGraph.hasErrors_of_infer fails] at clean
        cases clean

theorem Warns.runAll (warns : progress.Warns program options done)
    (completed : progress.Completed options done) (yields : progress.Yields program options)
    {rest : List Pass} (first : done ++ rest <+: Pass.all)
    (final : (progress.runAll program options rest).Completed options (done ++ rest)) :
    (progress.runAll program options rest).Warns program options (done ++ rest) := by
  induction rest generalizing progress done with
  | nil => simpa [Progress.runAll] using warns
  | cons pass rest ih =>
      rw [Progress.runAll, List.append_cons] at final ⊢
      rw [List.append_cons] at first
      have begun := (List.prefix_append _ _).trans first
      rcases completed.runPass program begun with next | ⟨last, failed⟩
      · rw [if_neg (by simp [hasError, next.failingPass?])] at final ⊢
        exact ih (warns.runPass completed yields begun next) next
          (yields.runPass program options pass) first final
      · rw [if_pos (by simp [hasError, failed.failingPass?])] at final
        cases failed.failingPass?.symm.trans final.failingPass?

end Progress

/-- Where a compilation starts from: its program is without faults, and has this root. -/
structure Compilation.RootedAt (compilation : Compilation) (source : String)
    (options : CompileOptions) (root : compilation.program.resolved.Index) (top : Definition) :
    Prop where
  reads : readSource source.toList = ⟨some compilation.program, []⟩
  distinct : (compilation.program.definitions.map (·.name.name)).Nodup
  wellFormed : ∀ definition ∈ compilation.program.definitions,
    definition.WellFormed compilation.program
  selected : compilation.program.resolved.selectRoot options.root = .ok root
  expanded : compilation.program.resolved.expand root options.generators options.limits =
    .ok compilation.graph
  found : compilation.program.definitions[(root : Nat)]? = some top
  named : top.name.name = compilation.root
  warnings : compilation.warnings =
    (compilation.program.resolved.unusedWarnings root).map (Diagnostic.locate source.toList)

theorem exists_rootedAt_of_compile {source : String} {options : CompileOptions}
    {compilation : Compilation} (compiles : compile source options = .ok compilation) :
    ∃ root top, compilation.RootedAt source options root top := by
  obtain ⟨root, selected, expanded, -⟩ := expanded_of_compile compiles
  obtain ⟨program, reads, completed, finishes⟩ := exists_completed_of_compile compiles
  have warns : (Progress.run program options options.terminal).Warns program options
      (Pass.required options.terminal) :=
    Progress.warns_start.runAll Progress.completed_start (Progress.yields_start program options)
      (Pass.required_prefix _) completed
  obtain ⟨hasRegistry, hasRoot, hasGraph⟩ := completed.artifacts
  obtain ⟨registry, hregistry⟩ := Option.isSome_iff_exists.mp hasRegistry
  obtain ⟨number, hroot⟩ := Option.isSome_iff_exists.mp hasRoot
  obtain ⟨graph, hgraph⟩ := Option.isSome_iff_exists.mp hasGraph
  rw [Progress.finish, completed.failingPass?, hregistry, hroot, hgraph] at finishes
  cases finishes
  have listed := program.resolved_getElem? root
  rw [List.getElem?_eq_getElem root.isLt] at listed
  obtain ⟨top, found, bound⟩ := Option.map_eq_some_iff.mp listed.symm
  obtain ⟨binding, unfolding, -, shown⟩ :=
    ResolvedProgram.shown_of_expand program.resolved_sound expanded
  refine ⟨root, top, reads, ?_, ?_, selected, expanded, found, ?_, ?_⟩
  · have registers := warns.registers (CompileOptions.mem_required.mpr Pass.noConfusion)
    exact Registry.ofProgram_errors_eq_nil_iff.mp registers
  · have resolves := warns.resolves (CompileOptions.mem_required.mpr Pass.noConfusion)
    exact Program.wellFormed_of_resolve resolves
  · have name : graph.root = (program.resolved.definition root).name :=
      congrArg GraphPlan.root shown.plan
    rw [Program.definition_of_found found] at name
    exact name.symm
  · have warned := warns.warned root selected
    have ran : Pass.expand ∈ Pass.required options.terminal :=
      CompileOptions.mem_required.mpr Pass.noConfusion
    rw [if_pos ran] at warned
    exact congrArg (List.map _) warned

/-! ## Which definitions are unused -/

/-- The definitions that are neither the root nor that of an instance, in their order. -/
def Compilation.unused (compilation : Compilation) : List Definition :=
  compilation.program.definitions.filter fun definition =>
    definition.name.name ≠ compilation.root ∧
      ∀ unfolded ∈ compilation.graph.instances, unfolded.definition ≠ definition.name.name

/-- Items are told, but for those with a number that is dropped. -/
theorem filterMap_zipIdx {α β : Type} {items : List α} {start : Nat} {dropped : List Nat}
    {kept : α → Bool} (tell : α → β)
    (agree : ∀ (index : Nat) (item : α), items[index]? = some item →
      (start + index ∈ dropped ↔ ¬ kept item = true)) :
    (items.zipIdx start).filterMap (fun (item, index) =>
      if index ∈ dropped then none else some (tell item)) = (items.filter kept).map tell := by
  induction items generalizing start with
  | nil => rfl
  | cons item rest ih =>
      have here := agree 0 item rfl
      have later := @ih (start + 1) fun index other found => by
        rw [Nat.add_right_comm]
        exact agree (index + 1) other found
      rw [Nat.add_zero] at here
      by_cases keep : kept item = true
      · simp [here, keep, later]
      · simp [here, keep, later]

/-- The warnings of a program are those of the definitions kept, where these are not reached. -/
theorem Program.unusedWarnings_eq {program : Program} {root : program.resolved.Index}
    {top : Definition} (first : program.definitions[(root : Nat)]? = some top)
    (kept : Definition → Bool)
    (agree : ∀ (index : Nat) (definition : Definition),
      program.definitions[index]? = some definition →
      (index ∈ program.resolved.reachable root ↔ ¬ kept definition = true)) :
    program.resolved.unusedWarnings root =
      (program.definitions.filter kept).map (Definition.neverUsed · top.name.name) := by
  have rootName : (program.resolved.definition root).name = top.name.name := by
    rw [Program.definition_of_found first]
    rfl
  have definitions : program.resolved.definitions = program.definitions.map program.bound := by
    refine List.ext_getElem? fun index => ?_
    rw [program.resolved_getElem?, List.getElem?_map]
  unfold ResolvedProgram.unusedWarnings
  rw [rootName]
  dsimp only
  generalize program.resolved.reachable root = used at agree ⊢
  rw [definitions, List.zipIdx_map, List.filterMap_map]
  refine filterMap_zipIdx (Definition.neverUsed · top.name.name) fun index definition found => ?_
  rw [Nat.zero_add]
  exact agree index definition found

namespace Compilation.RootedAt

variable {compilation : Compilation} {source : String} {options : CompileOptions}
  {root : compilation.program.resolved.Index} {top definition : Definition}

/-- The root leads to the definitions that are not unused. -/
theorem mem_unused_iff (rooted : compilation.RootedAt source options root top)
    {index : compilation.program.resolved.Index}
    (found : compilation.program.definitions[(index : Nat)]? = some definition) :
    definition ∈ compilation.unused ↔
      ¬ Relation.ReflTransGen compilation.program.resolved.Calls root index := by
  have member := List.mem_of_getElem? found
  have sound := compilation.program.resolved_sound
  have distinct : (compilation.program.resolved.definitions.map (·.name)).Nodup := by
    rw [ResolvedProgram.names_resolved]
    exact rooted.distinct
  have name : (compilation.program.resolved.definition index).name = definition.name.name := by
    rw [Program.definition_of_found found]
    rfl
  by_cases top_ : index = root
  · subst top_
    cases rooted.found.symm.trans found
    simp [unused, rooted.named, Relation.ReflTransGen.refl]
  · obtain ⟨binding, unfolding, -, shown⟩ := ResolvedProgram.shown_of_expand sound rooted.expanded
    have instances := shown.toPlannedBy.exists_instance_iff sound distinct top_
    have other : definition.name.name ≠ compilation.root := by
      intro same
      have equal : definition = top := List.inj_on_of_nodup_map rooted.distinct member
        (List.mem_of_getElem? rooted.found) (same.trans rooted.named.symm)
      subst equal
      have inside := (List.getElem?_eq_some_iff.mp found).1
      exact top_ (Fin.ext ((List.getElem?_inj inside rooted.distinct.of_map).mp
        (found.trans rooted.found.symm)))
    rw [← instances, name]
    simp [unused, member, other]

/-- The warnings are of the unused definitions, one after the other. -/
theorem warnings_eq (rooted : compilation.RootedAt source options root top) :
    compilation.warnings = compilation.unused.map fun definition =>
      (definition.neverUsed compilation.root).locate source.toList := by
  rw [rooted.warnings, Program.unusedWarnings_eq rooted.found _, rooted.named,
    Compilation.unused, List.map_map]
  · rfl
  · intro index definition found
    obtain ⟨place, rfl⟩ := Program.exists_index found
    rw [ResolvedProgram.mem_reachable_iff compilation.program.resolved_sound,
      ResolvedProgram.leads_index, ← not_iff_not, ← rooted.mem_unused_iff found,
      Compilation.unused, List.mem_filter]
    simp [List.mem_of_getElem? found]

end Compilation.RootedAt

/-! ## The warnings of a compilation -/

@[simp]
theorem Diagnostic.message_locate (source : List Char) (diagnostic : Diagnostic) :
    (diagnostic.locate source).message = diagnostic.message := by
  obtain ⟨position, located⟩ := diagnostic.locate_eq source
  rw [located]

/-- Unused definitions are told apart by their names. -/
theorem Definition.name_of_neverUsed {first second : Definition} {root : String}
    (same : (first.neverUsed root).message = (second.neverUsed root).message) :
    first.name.name = second.name.name := by
  simpa [neverUsed, Diagnostic.warning] using same

/--
The warnings of a compilation are of the unused definitions, one of each: of all that are neither
its root nor that of an instance in its graph.  Those are the definitions that no chain of uses
leads to from the root, so limits and generators make no difference to them.
-/
theorem compile_unused {source : String} {options : CompileOptions} {compilation : Compilation}
    (compiles : compile source options = .ok compilation) :
    (compilation.warnings = compilation.unused.map fun definition =>
      (definition.neverUsed compilation.root).locate source.toList) ∧
    compilation.warnings.Nodup ∧
    (∀ definition ∈ compilation.program.definitions,
      definition ∈ compilation.unused ↔
        ¬ compilation.program.Reaches compilation.root definition) ∧
    ∀ (other : CompileOptions) (again : Compilation), other.root = options.root →
      compile source other = .ok again → again.warnings = compilation.warnings := by
  obtain ⟨root, top, rooted⟩ := exists_rootedAt_of_compile compiles
  refine ⟨rooted.warnings_eq, ?_, ?_, ?_⟩
  · have names : (compilation.unused.map (·.name.name)).Nodup :=
      rooted.distinct.sublist (List.filter_sublist.map _)
    rw [rooted.warnings_eq]
    refine List.Nodup.of_map Diagnostic.message ?_
    rw [List.map_map]
    refine (List.pairwise_map.mp names).map _ fun first second different same => different ?_
    simpa using Definition.name_of_neverUsed (by simpa using same)
  · intro definition member
    obtain ⟨place, found⟩ := List.mem_iff_getElem?.mp member
    obtain ⟨index, rfl⟩ := Program.exists_index found
    rw [rooted.mem_unused_iff found, ← rooted.named,
      Program.reaches_iff_leads rooted.distinct rooted.wellFormed rooted.found found]
  · intro other again sameRoot compilesToo
    obtain ⟨otherRoot, otherTop, rootedToo⟩ := exists_rootedAt_of_compile compilesToo
    obtain ⟨program, name, graph, signature, fingerprint, warnings⟩ := again
    obtain rfl : program = compilation.program :=
      Option.some.inj (congrArg ReadResult.program (rootedToo.reads.symm.trans rooted.reads))
    have selected := rootedToo.selected
    rw [sameRoot] at selected
    obtain rfl : otherRoot = root := Except.ok.inj (selected.symm.trans rooted.selected)
    exact rootedToo.warnings.trans rooted.warnings.symm

/-- A root with a ring below it, and two definitions that only use each other. -/
def ringSource : String :=
  "def ring = [X | Y]\n  use ring [X | Y] as Next\n  link X >-> Next.X, Next.Y >-> Y\n" ++
    "def left = [X | Y]\n  use right [X | Y] as R\n  link X >-> R.X, R.Y >-> Y\n" ++
    "def main = [X | Y]\n  use ring [X | Y] as R\n  link X >-> R.X, R.Y >-> Y\n" ++
    "def right = [X | Y]\n  use left [X | Y] as L\n  link X >-> L.X, L.Y >-> Y"

/-- The ring is cut off at once, or after two rounds; either way the same two are unused. -/
theorem compile_unused_ring :
    ∃ compilation again : Compilation,
      compile ringSource flatOptions = .ok compilation ∧
      compile ringSource { flatOptions with limits := ⟨2, 8, false⟩ } = .ok again ∧
      compilation.graph.instances.length = 1 ∧ again.graph.instances.length = 3 ∧
      compilation.warnings.map (·.message) =
        ["definition `left` is never used by `main`",
          "definition `right` is never used by `main`"] ∧
      again.warnings = compilation.warnings ∧
      ∀ definition ∈ compilation.program.definitions,
        definition ∈ compilation.unused ↔ ¬ compilation.program.Reaches "main" definition := by
  have compiles : (compile ringSource flatOptions).toOption.map (fun compilation =>
      (compilation.root, compilation.graph.instances.length,
        compilation.unused.map (·.name.name))) = some ("main", 1, ["left", "right"]) := by
    decide +kernel
  have compilesDeeper : (compile ringSource
      { flatOptions with limits := ⟨2, 8, false⟩ }).toOption.map
        (·.graph.instances.length) = some 3 := by
    decide +kernel
  obtain ⟨compilation, found, facts⟩ := Option.map_eq_some_iff.mp compiles
  obtain ⟨again, foundDeeper, instances⟩ := Option.map_eq_some_iff.mp compilesDeeper
  obtain ⟨root, flat, names⟩ : compilation.root = "main" ∧
      compilation.graph.instances.length = 1 ∧
      compilation.unused.map (·.name.name) = ["left", "right"] := by
    simpa using facts
  obtain ⟨warned, -, unused, same⟩ := compile_unused (eq_ok_of_toOption found)
  have sameWarnings := same { flatOptions with limits := ⟨2, 8, false⟩ } again rfl
    (eq_ok_of_toOption foundDeeper)
  refine ⟨compilation, again, eq_ok_of_toOption found, eq_ok_of_toOption foundDeeper, flat,
    instances, ?_, sameWarnings, root ▸ unused⟩
  have messages : compilation.warnings.map (·.message) =
      (compilation.unused.map (·.name.name)).map fun name =>
        "definition `" ++ name ++ "` is never used by `main`" := by
    rw [warned, List.map_map, List.map_map]
    refine List.map_congr_left fun definition _ => ?_
    simp [Definition.neverUsed, Diagnostic.warning, root, String.append_assoc]
  rw [messages, names]
  decide

end FlowDiagram

import FlowDiagram.Proofs.Expansion.Nested
import FlowDiagram.Proofs.Resolution.Shapes

/-!
# Uses by their paths

A path of instance names leads through the bodies of a program: each step names a use in the body
reached so far and goes on in the definition that this use names.  Once names have been bound, paths
lead along the same uses, each bound as it is written.
-/

namespace FlowDiagram

/-! ## Paths in a program -/

/-- The definition that a use names. -/
def Program.callee? (program : Program) (use : Use) : Option Definition :=
  match use.box with
  | .definition name _ => program.definition? name.name
  | _ => none

theorem Program.callee?_mem {program : Program} {use : Use} {callee : Definition}
    (names : program.callee? use = some callee) : callee ∈ program.definitions := by
  unfold callee? at names
  split at names
  · exact List.mem_of_find?_eq_some names
  · cases names

/-- The first use under a name in a body. -/
def Definition.useNamed? (definition : Definition) (name : String) : Option Use :=
  definition.uses.find? (·.name.name == name)

/-- The body at a path below a root. -/
def Program.bodyAt? (program : Program) (root : Definition) (path : List String) :
    Option Definition :=
  path.foldlM (fun body name => (body.useNamed? name).bind program.callee?) root

/-- The use at a path below a root: the last name stands in the body that the others lead to. -/
def Program.useAt? (program : Program) (root : Definition) (path : List String) : Option Use :=
  (program.bodyAt? root path.dropLast).bind fun body => path.getLast?.bind body.useNamed?

/-- The use at a path below a root, with its names bound. -/
def ResolvedProgram.useAt? (program : ResolvedProgram) (root : ResolvedDefinition)
    (path : List String) : Option ResolvedUse :=
  (program.bodyAt? root path.dropLast).bind fun body =>
    path.getLast?.bind fun name => body.uses.find? (·.name == name)

/-- A definition with its names bound. -/
def Program.bound (program : Program) (definition : Definition) : ResolvedDefinition :=
  (definition.resolve program (Registry.ofProgram program).1).1

theorem Program.resolved_getElem? (program : Program) (index : Nat) :
    program.resolved.definitions[index]? = program.definitions[index]?.map program.bound :=
  program.resolve_getElem? (Registry.ofProgram program).1 index

/-! ## One use -/

variable {program : Program}

/-- A use bound to a definition names the first one of its name, and passes on what is written. -/
theorem Use.definition_of_resolve {use : Use} {bound : ResolvedUse} {index : Nat}
    {symbols : List Symbol} {fresh : Bool}
    (resolves : use.resolve program (Registry.ofProgram program).1 = .ok bound)
    (target : bound.target = .definition index symbols fresh) :
    ∃ name arguments callee, use.box = .definition name arguments ∧
      program.definition? name.name = some callee ∧
      program.definitions[index]? = some callee ∧
      bindGenerics callee arguments = .ok (symbols, fresh) := by
  unfold Use.resolve at resolves
  split at resolves
  · rename_i name arguments hbox
    unfold Use.resolveDefinition at resolves
    have first := Registry.find?_ofProgram program name.name
    split at resolves
    · cases resolves
    · rename_i entry hentry
      rw [hentry] at first
      obtain ⟨callee, hfirst, hcallee, -⟩ := first
      rw [hcallee] at resolves
      obtain ⟨⟨passed, leaves⟩, hpassed, hports⟩ := exists_ok_of_bind resolves
      cases (Use.bindPorts_ok hports).1.symm.trans target
      exact ⟨name, arguments, callee, hbox, hfirst, hcallee, hpassed⟩
  · split at resolves
    · cases (Use.bindPorts_ok resolves).1.symm.trans target
    · cases resolves
    · cases resolves

/-- Whether a use leaves the existential symbols of the definition that it names to it. -/
def Use.leavesExistential (use : Use) : Bool :=
  match use.box with
  | .definition _ (some arguments) => arguments.existential.isEmpty
  | _ => true

/-- Existential symbols are left to a definition if none are written; then its own are passed. -/
theorem bindGenerics_fresh {callee : Definition} {arguments : Option Generics}
    {symbols : List Symbol} {fresh : Bool}
    (bound : bindGenerics callee arguments = .ok (symbols, fresh)) :
    fresh = (arguments.all (·.existential.isEmpty)) ∧
      (fresh = true → symbols.drop callee.generics.universal.length =
        callee.generics.existential.map (·.name)) := by
  unfold bindGenerics at bound
  split at bound
  · cases bound
    exact ⟨rfl, fun _ => by simp⟩
  · rename_i written
    split at bound
    · rename_i counted
      unfold Generics.countFor at counted
      have universal := (List.append_eq_nil_iff.mp counted).1
      simp only [ite_eq_left_iff, reduceCtorEq, imp_false, Classical.not_not] at universal
      split at bound
      · rename_i none_
        cases bound
        exact ⟨by simp [none_], fun _ => by simp [← universal]⟩
      · rename_i some_
        cases bound
        exact ⟨by simpa using some_, nofun⟩
    · cases bound

/-! ## The uses of a body -/

/-- Every use bound so far is the first one of its name among those taken. -/
structure Instances.Faithful (program : Program) (taken : List Use) (known : Instances) :
    Prop where
  names : ∀ use ∈ taken, use.name.name ∈ known.names.map (·.ident.name)
  uses : ∀ bound ∈ known.uses, ∃ use, taken.find? (·.name.name == bound.name) = some use ∧
    use.resolve program (Registry.ofProgram program).1 = .ok bound

namespace Instances.Faithful

variable {taken : List Use} {known : Instances}

theorem add (faithful : known.Faithful program taken) (definition : String) (use : Use) :
    (known.add program (Registry.ofProgram program).1 definition use).Faithful program
      (taken ++ [use]) := by
  have kept : ∀ bound ∈ known.uses, ∃ first,
      (taken ++ [use]).find? (·.name.name == bound.name) = some first ∧
        first.resolve program (Registry.ofProgram program).1 = .ok bound := by
    intro bound member
    obtain ⟨first, found, resolves⟩ := faithful.uses bound member
    exact ⟨first, by rw [List.find?_append, found, Option.some_or], resolves⟩
  have named : ∀ (more : List InstanceName),
      use.name.name ∈ (known.names ++ more).map (·.ident.name) → ∀ other ∈ taken ++ [use],
        other.name.name ∈ (known.names ++ more).map (·.ident.name) := by
    intro more here other member
    rcases List.mem_append.mp member with old | new
    · rw [List.map_append]
      exact List.mem_append_left _ (faithful.names other old)
    · rw [List.mem_singleton.mp new]
      exact here
  unfold Instances.add
  cases hfind : known.find? use.name.name with
  | some first =>
      have same : first.ident.name = use.name.name := by simpa using List.find?_some hfind
      have here := List.mem_map_of_mem (f := (·.ident.name)) (List.mem_of_find?_eq_some hfind)
      rw [same] at here
      exact ⟨by simpa using named [] (by simpa using here), kept⟩
  | none =>
      have unknown := Instances.not_mem_of_find?_none hfind
      dsimp only
      cases hresolve : use.resolve program (Registry.ofProgram program).1 with
      | error errors => exact ⟨named _ (by simp), kept⟩
      | ok bound =>
          refine ⟨named _ (by simp), fun other member => ?_⟩
          rcases List.mem_append.mp member with old | new
          · exact kept other old
          · obtain rfl := List.mem_singleton.mp new
            have name := (Use.resolve_fits hresolve).2
            have absent : taken.find? (·.name.name == other.name) = none := by
              refine List.find?_eq_none.mpr fun earlier listed same => ?_
              rw [name, beq_iff_eq] at same
              exact unknown (same ▸ faithful.names earlier listed)
            refine ⟨use, ?_, hresolve⟩
            rw [List.find?_append, absent, Option.none_or]
            simp [name]

theorem foldl (faithful : known.Faithful program taken) (definition : String) (uses : List Use) :
    (uses.foldl (Instances.add program (Registry.ofProgram program).1 definition) known).Faithful
      program (taken ++ uses) := by
  induction uses generalizing taken known with
  | nil => rwa [List.append_nil]
  | cons use rest ih =>
      rw [List.append_cons]
      exact ih (faithful.add definition use)

end Instances.Faithful

/-- A bound use of a definition is the first of its name in the body as it is written. -/
theorem Program.useNamed_of_bound {definition : Definition} {name : String} {bound : ResolvedUse}
    (found : (program.bound definition).uses.find? (·.name == name) = some bound) :
    ∃ use, definition.useNamed? name = some use ∧
      use.resolve program (Registry.ofProgram program).1 = .ok bound := by
  have start : Instances.empty.Faithful program [] := ⟨nofun, nofun⟩
  obtain ⟨use, first, resolves⟩ :=
    (start.foldl definition.name.name definition.uses).uses bound (List.mem_of_find?_eq_some found)
  have same : bound.name = name := by simpa using List.find?_some found
  rw [same, List.nil_append] at first
  exact ⟨use, first, resolves⟩

/-! ## Paths -/

/-- A path leads to a bound body where it leads to the body as it is written. -/
theorem Program.bodyAt_of_bound {root : Definition} {path : List String}
    {body : ResolvedDefinition}
    (found : program.resolved.bodyAt? (program.bound root) path = some body) :
    ∃ definition, program.bodyAt? root path = some definition ∧
      program.bound definition = body := by
  induction path generalizing root with
  | nil =>
      cases found
      exact ⟨root, rfl, rfl⟩
  | cons name rest ih =>
      simp only [ResolvedProgram.bodyAt?, List.foldlM_cons, Option.bind_eq_bind,
        Option.bind_eq_some_iff, ResolvedProgram.within?] at found
      obtain ⟨inner, ⟨bound, hbound, behind⟩, further⟩ := found
      split at behind
      · cases behind
      · rename_i index symbols fresh target
        obtain ⟨use, huse, resolves⟩ := Program.useNamed_of_bound hbound
        obtain ⟨callee, arguments, definition, hbox, first, known, -⟩ :=
          Use.definition_of_resolve resolves target
        rw [Program.resolved_getElem?, known] at behind
        cases behind
        obtain ⟨last, hlast, same⟩ := ih further
        refine ⟨last, ?_, same⟩
        have step : program.callee? use = some definition := by
          simp only [Program.callee?, hbox, first]
        simp only [Program.bodyAt?, List.foldlM_cons, huse, Option.bind_some, step,
          Option.bind_eq_bind]
        exact hlast

/-- The bound use at a path is the use at that path, bound. -/
theorem Program.useAt_of_bound {root : Definition} {path : List String} {bound : ResolvedUse}
    (found : program.resolved.useAt? (program.bound root) path = some bound) :
    ∃ use, program.useAt? root path = some use ∧
      use.resolve program (Registry.ofProgram program).1 = .ok bound := by
  simp only [ResolvedProgram.useAt?, Option.bind_eq_some_iff] at found
  obtain ⟨body, hbody, name, hname, hbound⟩ := found
  obtain ⟨definition, hdefinition, rfl⟩ := Program.bodyAt_of_bound hbody
  obtain ⟨use, huse, resolves⟩ := Program.useNamed_of_bound hbound
  refine ⟨use, ?_, resolves⟩
  simp only [Program.useAt?, hdefinition, Option.bind_some, hname, huse]

end FlowDiagram

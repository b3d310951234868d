import FlowDiagram.Proofs.Resolution.Shapes
import Mathlib.Data.List.Forall2
import Mathlib.Data.List.Nodup

/-!
# Well-formed programs

A program is well formed when its names tell things apart and refer to what is there, uses have the
shape of what they name, links run from sources to targets, and no two of them end at one port.
This is said of the program as it is written, without a word on how names are bound.  Resolution
has errors to tell exactly when a program is not well formed: where it is silent, another error has
been told, and what it leaves out hides none.
-/

namespace FlowDiagram

/-! ## What well formed means -/

structure Use.WellFormed (program : Program) (use : Use) : Prop where
  ports : use.ports.Distinct
  shape : use.box.HasShape program use.ports.inputs.length use.ports.outputs.length

/-- A link end of this role is declared: on the boundary, or for an instance. -/
def Definition.Offers (definition : Definition) (role : LinkRole) (ref : PortRef) : Prop :=
  match ref.owner with
  | none => ref.port.name ∈ definition.boundary role.boundarySide
  | some owner => ∃ use ∈ definition.uses, use.name.name = owner.name ∧
      ref.port.name ∈ use.listed role.instanceSide

/-- A link end by the names that it is written with. -/
def PortRef.names (ref : PortRef) : Option String × String :=
  (ref.owner.map (·.name), ref.port.name)

structure Definition.WellFormed (program : Program) (definition : Definition) : Prop where
  ports : definition.ports.Distinct
  instances : (definition.uses.map (·.name.name)).Nodup
  uses : ∀ use ∈ definition.uses, use.WellFormed program
  links : ∀ link ∈ definition.links,
    definition.Offers .source link.source ∧ definition.Offers .target link.target
  targets : (definition.links.map (·.target.names)).Nodup

/-! ## Lists read from the left -/

/--
A list is read from the left.  If at each item the state stays clean, or else the items so far are
not good and an error is told, and errors once told are kept, then so it is at the end.
-/
theorem foldl_clean_or_told {State Item : Type} {step : State → Item → State}
    {errors : State → List ResolutionError} {clean : List Item → State → Prop}
    {good : List Item → Prop}
    (shorter : ∀ before after, good (before ++ after) → good before)
    (keeps : ∀ state item, errors state ≠ [] → errors (step state item) ≠ [])
    (steps : ∀ taken state item, clean taken state →
      clean (taken ++ [item]) (step state item) ∨
        ¬ good (taken ++ [item]) ∧ errors (step state item) ≠ [])
    {taken : List Item} {state : State} (start : clean taken state) (items : List Item) :
    clean (taken ++ items) (items.foldl step state) ∨
      ¬ good (taken ++ items) ∧ errors (items.foldl step state) ≠ [] := by
  have kept : ∀ (items : List Item) (state : State), errors state ≠ [] →
      errors (items.foldl step state) ≠ [] := by
    intro items
    induction items with
    | nil => exact fun _ told => told
    | cons item rest ih => exact fun state told => ih _ (keeps state item told)
  induction items generalizing taken state with
  | nil =>
      rw [List.append_nil]
      exact .inl start
  | cons item rest ih =>
      rw [List.append_cons]
      rcases steps taken state item start with later | ⟨bad, told⟩
      · exact ih later
      · exact .inr ⟨fun fine => bad (shorter _ _ fine), kept rest _ told⟩

/-! ## Instances -/

/-- Uses are well formed and have names of their own. -/
structure UsesWellFormed (program : Program) (uses : List Use) : Prop where
  names : (uses.map (·.name.name)).Nodup
  each : ∀ use ∈ uses, use.WellFormed program

theorem UsesWellFormed.of_append {program : Program} {before after : List Use}
    (fine : UsesWellFormed program (before ++ after)) : UsesWellFormed program before where
  names := by
    have names := fine.names
    rw [List.map_append] at names
    exact names.of_append_left
  each use member := fine.each use (List.mem_append_left _ member)

/-- All uses taken so far are known by their numbers, and there was nothing to tell. -/
structure Instances.Clean (program : Program) (taken : List Use) (known : Instances) : Prop where
  fine : UsesWellFormed program taken
  errors : known.errors = []
  uses : List.Forall₂ ResolvedUse.Keeps known.uses taken
  names : known.names = taken.zipIdx.map fun pair => ⟨pair.1.name, some pair.2⟩

namespace Instances

variable {program : Program} {taken : List Use} {known : Instances}

theorem Clean.find?_eq_none_iff (clean : known.Clean program taken) {name : String} :
    known.find? name = none ↔ name ∉ taken.map (·.name.name) := by
  unfold find?
  rw [clean.names, List.find?_eq_none]
  constructor
  · intro unknown member
    obtain ⟨use, listed, same⟩ := List.mem_map.mp member
    obtain ⟨number, found⟩ := List.mem_iff_getElem?.mp listed
    exact unknown ⟨use.name, some number⟩
      (List.mem_map.mpr ⟨(use, number), List.mem_zipIdx_iff_getElem?.mpr found, rfl⟩)
      (by simpa using same)
  · intro fresh found member same
    obtain ⟨⟨use, number⟩, listed, rfl⟩ := List.mem_map.mp member
    have at_ := List.mem_zipIdx_iff_getElem?.mp listed
    exact fresh (List.mem_map.mpr ⟨use, List.mem_of_getElem? at_, by simpa using same⟩)

/-- An instance is known by the number of the use of its name. -/
theorem Clean.of_find? (clean : known.Clean program taken) {name : String} {found : InstanceName}
    (hfind : known.find? name = some found) :
    ∃ number use resolved, found.number = some number ∧ taken[number]? = some use ∧
      use.name.name = name ∧ known.uses[number]? = some resolved ∧ resolved.Keeps use := by
  have named : found.ident.name = name := by simpa using List.find?_some hfind
  have member := List.mem_of_find?_eq_some hfind
  rw [clean.names] at member
  obtain ⟨⟨use, number⟩, listed, rfl⟩ := List.mem_map.mp member
  have at_ : taken[number]? = some use := List.mem_zipIdx_iff_getElem?.mp listed
  obtain ⟨inside, same⟩ := List.getElem?_eq_some_iff.mp at_
  have below : number < known.uses.length := by rwa [clean.uses.length_eq]
  have keeps := clean.uses.get below inside
  rw [List.get_eq_getElem, List.get_eq_getElem, same] at keeps
  exact ⟨number, use, known.uses[number], rfl, at_, named, List.getElem?_eq_getElem below, keeps⟩

/-- One more use is taken without an error exactly when it is well formed and has a new name. -/
theorem Clean.add (clean : known.Clean program taken) (definition : String) (use : Use) :
    (known.add program (Registry.ofProgram program).1 definition use).Clean program
        (taken ++ [use]) ∨
      ¬ UsesWellFormed program (taken ++ [use]) ∧
        (known.add program (Registry.ofProgram program).1 definition use).errors ≠ [] := by
  have told := use.resolve_told program
  unfold Instances.add
  cases hfind : known.find? use.name.name with
  | some first =>
      refine .inr ⟨fun fine => ?_, by simp⟩
      have repeated : use.name.name ∈ taken.map (·.name.name) := by
        by_contra unknown
        rw [clean.find?_eq_none_iff.mpr unknown] at hfind
        cases hfind
      have names := fine.names
      rw [List.map_append, List.nodup_append] at names
      exact names.2.2 _ repeated _ (by simp) rfl
  | none =>
      have fresh := clean.find?_eq_none_iff.mp hfind
      dsimp only
      cases hresolve : use.resolve program (Registry.ofProgram program).1 with
      | error errors =>
          rw [hresolve] at told
          refine .inr ⟨fun fine => told.1 (fine.each use (by simp)).shape, ?_⟩
          simp [told.2]
      | ok resolved =>
          rw [hresolve] at told
          by_cases ports : use.ports.Distinct
          · left
            refine ⟨⟨?_, ?_⟩, ?_, ?_, ?_⟩
            · rw [List.map_append, List.map_singleton, ← List.concat_eq_append]
              exact clean.fine.names.concat fresh
            · intro other member
              rcases List.mem_append.mp member with old | new
              · exact clean.fine.each other old
              · rw [List.mem_singleton.mp new]
                exact ⟨ports, told⟩
            · simp [clean.errors, Ports.repeated_eq_nil_iff.mpr ports]
            · exact List.rel_append clean.uses (.cons (Use.resolve_keeps hresolve) .nil)
            · simp [clean.names, List.zipIdx_append, clean.uses.length_eq]
          · right
            refine ⟨fun fine => ports (fine.each use (by simp)).ports, ?_⟩
            simp [Ports.repeated_eq_nil_iff, ports]

theorem errors_add {registry : Registry} {definition : String} (known : Instances) (use : Use)
    (told : known.errors ≠ []) : (known.add program registry definition use).errors ≠ [] := by
  unfold Instances.add
  split
  · simp
  · dsimp only
    split <;> simp [told]

/-- The uses of a body are taken without an error exactly when they are well formed. -/
theorem clean_or_told (program : Program) (definition : String) (uses : List Use) :
    (uses.foldl (Instances.add program (Registry.ofProgram program).1 definition) .empty).Clean
        program uses ∨
      ¬ UsesWellFormed program uses ∧
        (uses.foldl (Instances.add program (Registry.ofProgram program).1 definition)
          .empty).errors ≠ [] := by
  have start : Instances.empty.Clean program [] := ⟨⟨List.nodup_nil, nofun⟩, rfl, .nil, rfl⟩
  exact foldl_clean_or_told (fun _ _ fine => fine.of_append) errors_add
    (fun _ _ use clean => clean.add definition use) start uses

end Instances

/-! ## Links -/

theorem portNumber?_eq_none_iff {ports : List String} {port : String} :
    portNumber? ports port = none ↔ port ∉ ports := by
  simp only [portNumber?, List.findIdx?_eq_none_iff, beq_eq_false_iff_ne]
  grind

/-- The number of a port tells its name. -/
theorem getElem?_of_portNumber? {ports : List String} {port : String} {number : Nat}
    (found : portNumber? ports port = some number) : ports[number]? = some port := by
  obtain ⟨below, same, -⟩ := List.findIdx?_eq_some_iff_getElem.mp found
  rw [List.getElem?_eq_getElem below]
  exact congrArg some (by simpa using same)

/-- What a link end of this role is, by the names that it is written with. -/
def Definition.Locates (definition : Definition) (role : LinkRole)
    (names : Option String × String) : LinkEnd → Prop
  | .boundary port => names.1 = none ∧
      portNumber? (definition.boundary role.boundarySide) names.2 = some port
  | .use number port => ∃ use, definition.uses[number]? = some use ∧
      names.1 = some use.name.name ∧
      portNumber? (use.listed role.instanceSide) names.2 = some port

namespace Definition

variable {program : Program} {definition : Definition} {role : LinkRole}
  {names other : Option String × String} {stop : LinkEnd}

/-- Names locate at most one link end, where instances have names of their own. -/
theorem Locates.unique (distinct : (definition.uses.map (·.name.name)).Nodup)
    {otherStop : LinkEnd} (located : definition.Locates role names stop)
    (otherLocated : definition.Locates role names otherStop) : stop = otherStop := by
  cases stop with
  | boundary port =>
      cases otherStop with
      | boundary otherPort =>
          cases located.2.symm.trans otherLocated.2
          rfl
      | use otherNumber otherPort =>
          obtain ⟨_, -, owner, -⟩ := otherLocated
          cases located.1.symm.trans owner
  | use number port =>
      obtain ⟨use, huse, owner, hport⟩ := located
      cases otherStop with
      | boundary otherPort => cases otherLocated.1.symm.trans owner
      | use otherNumber otherPort =>
          obtain ⟨otherUse, hother, otherOwner, hotherPort⟩ := otherLocated
          have same : use.name.name = otherUse.name.name :=
            Option.some.inj (owner.symm.trans otherOwner)
          have below := (List.getElem?_eq_some_iff.mp huse).1
          obtain rfl : number = otherNumber := by
            refine (List.getElem?_inj (by simpa using below) distinct).mp ?_
            rw [List.getElem?_map, List.getElem?_map, huse, hother, Option.map_some,
              Option.map_some, same]
          cases huse.symm.trans hother
          cases hport.symm.trans hotherPort
          rfl

/-- A link end has only one name. -/
theorem Locates.injective (located : definition.Locates role names stop)
    (otherLocated : definition.Locates role other stop) : names = other := by
  cases stop with
  | boundary port =>
      have first := getElem?_of_portNumber? located.2
      have second := getElem?_of_portNumber? otherLocated.2
      exact Prod.ext (located.1.trans otherLocated.1.symm)
        (Option.some.inj (first.symm.trans second))
  | use number port =>
      obtain ⟨use, huse, owner, hport⟩ := located
      obtain ⟨otherUse, hother, otherOwner, hotherPort⟩ := otherLocated
      cases huse.symm.trans hother
      have first := getElem?_of_portNumber? hport
      have second := getElem?_of_portNumber? hotherPort
      exact Prod.ext (owner.trans otherOwner.symm) (Option.some.inj (first.symm.trans second))

end Definition

/-- Links run from sources to targets that are declared, and no two end at one. -/
structure LinksWellFormed (definition : Definition) (links : List Link) : Prop where
  each : ∀ link ∈ links, definition.Offers .source link.source ∧
    definition.Offers .target link.target
  targets : (links.map (·.target.names)).Nodup

theorem LinksWellFormed.of_append {definition : Definition} {before after : List Link}
    (fine : LinksWellFormed definition (before ++ after)) : LinksWellFormed definition before where
  each link member := fine.each link (List.mem_append_left _ member)
  targets := by
    have targets := fine.targets
    rw [List.map_append] at targets
    exact targets.of_append_left

/-- All links taken so far are told by their targets, and there was nothing to tell. -/
structure Wiring.Clean (definition : Definition) (taken : List Link) (wiring : Wiring) :
    Prop where
  fine : LinksWellFormed definition taken
  errors : wiring.errors = []
  targets : List.Forall₂ (fun target link =>
    definition.Locates .target link.target.names target.1) wiring.targets taken

section Linking

variable {program : Program} {definition : Definition} {known : Instances}
  (clean : known.Clean program definition.uses)
include clean

/-- A link end is bound to what its names locate exactly when it is declared, and never silently. -/
theorem PortRef.resolve_told (role : LinkRole) (ref : PortRef) :
    match ref.resolve definition known role with
    | .ok stop => definition.Offers role ref ∧ definition.Locates role ref.names stop
    | .error error => ¬ definition.Offers role ref ∧ error ≠ none := by
  unfold PortRef.resolve Definition.Offers PortRef.names
  dsimp only
  cases ref.owner with
  | none =>
      dsimp only
      cases hport : portNumber? (definition.boundary role.boundarySide) ref.port.name with
      | some number =>
          have member := List.mem_of_getElem? (getElem?_of_portNumber? hport)
          exact ⟨member, rfl, hport⟩
      | none =>
          have missing := portNumber?_eq_none_iff.mp hport
          by_cases swapped : ref.port.name ∈ definition.boundary role.boundarySide.other
          · rw [if_pos swapped]
            exact ⟨missing, nofun⟩
          · rw [if_neg swapped]
            exact ⟨missing, nofun⟩
  | some owner =>
      dsimp only
      cases hfind : known.find? owner.name with
      | none =>
          have unknown := clean.find?_eq_none_iff.mp hfind
          refine ⟨?_, nofun⟩
          rintro ⟨use, member, same, -⟩
          exact unknown (same ▸ List.mem_map_of_mem member)
      | some found =>
          obtain ⟨number, use, resolved, hnumber, huse, named, hresolved, keeps⟩ :=
            clean.of_find? hfind
          obtain ⟨ident, _⟩ := found
          cases hnumber
          simp only [hresolved, keeps.ports]
          cases hport : portNumber? (use.listed role.instanceSide) ref.port.name with
          | some port =>
              have member := List.mem_of_getElem? (getElem?_of_portNumber? hport)
              exact ⟨⟨use, List.mem_of_getElem? huse, named, member⟩, use, huse,
                congrArg some named.symm, hport⟩
          | none =>
              have missing := portNumber?_eq_none_iff.mp hport
              have absent : ¬ ∃ use ∈ definition.uses, use.name.name = owner.name ∧
                  ref.port.name ∈ use.listed role.instanceSide := by
                rintro ⟨other, member, same, listed⟩
                have sameUse := List.inj_on_of_nodup_map clean.fine.names member
                  (List.mem_of_getElem? huse) (same.trans named.symm)
                exact missing (sameUse ▸ listed)
              by_cases swapped : ref.port.name ∈ use.listed role.instanceSide.other
              · rw [if_pos swapped]
                exact ⟨absent, nofun⟩
              · rw [if_neg swapped]
                exact ⟨absent, nofun⟩

/-- The target of a link is taken already exactly when an earlier link has the same target. -/
theorem Wiring.Clean.lookup_eq_none_iff {taken : List Link} {wiring : Wiring}
    (wired : wiring.Clean definition taken) {names : Option String × String} {stop : LinkEnd}
    (located : definition.Locates .target names stop) :
    wiring.targets.lookup stop = none ↔ names ∉ taken.map (·.target.names) := by
  have same : ∀ {target : LinkEnd × Span} {link : Link},
      definition.Locates .target link.target.names target.1 →
        (target.1 = stop ↔ link.target.names = names) := by
    intro target link there
    constructor
    · intro sameStop
      exact (sameStop ▸ there).injective located
    · intro sameNames
      exact (sameNames ▸ there).unique clean.fine.names located
  rw [List.lookup_eq_none_iff]
  have pairs := wired.targets
  generalize wiring.targets = targets at pairs
  clear wired
  induction pairs with
  | nil => simp
  | @cons target link _ _ there _ ih =>
      have here := same there
      simp only [List.mem_cons, forall_eq_or_imp, List.map_cons, not_or, ih]
      refine and_congr_left fun _ => ?_
      rw [bne_iff_ne, ne_comm, ne_eq, here, ← ne_eq, ne_comm]

/-- One more link is taken without an error exactly when it is well formed. -/
theorem Wiring.Clean.add {taken : List Link} {wiring : Wiring}
    (wired : wiring.Clean definition taken) (link : Link) :
    (wiring.add definition known link).Clean definition (taken ++ [link]) ∨
      ¬ LinksWellFormed definition (taken ++ [link]) ∧
        (wiring.add definition known link).errors ≠ [] := by
  have sourceTold := PortRef.resolve_told clean .source link.source
  have targetTold := PortRef.resolve_told clean .target link.target
  have offers : LinksWellFormed definition (taken ++ [link]) →
      definition.Offers .source link.source ∧ definition.Offers .target link.target :=
    fun fine => fine.each link (by simp)
  unfold Wiring.add
  dsimp only
  cases hsource : link.source.resolve definition known .source with
  | error sourceError =>
      rw [hsource] at sourceTold
      obtain ⟨error, rfl⟩ := Option.ne_none_iff_exists'.mp sourceTold.2
      exact .inr ⟨fun fine => sourceTold.1 (offers fine).1, by simp [endErrors]⟩
  | ok source =>
      rw [hsource] at sourceTold
      cases htarget : link.target.resolve definition known .target with
      | error targetError =>
          rw [htarget] at targetTold
          obtain ⟨error, rfl⟩ := Option.ne_none_iff_exists'.mp targetTold.2
          exact .inr ⟨fun fine => targetTold.1 (offers fine).2, by simp [endErrors]⟩
      | ok target =>
          rw [htarget] at targetTold
          have free := wired.lookup_eq_none_iff clean targetTold.2
          dsimp only
          cases hlookup : wiring.targets.lookup target with
          | some first =>
              refine .inr ⟨fun fine => ?_, by simp⟩
              have targets := fine.targets
              rw [List.map_append, List.nodup_append] at targets
              have fresh : link.target.names ∉ taken.map (·.target.names) := fun member =>
                targets.2.2 _ member _ (by simp) rfl
              rw [free.mpr fresh] at hlookup
              cases hlookup
          | none =>
              left
              refine ⟨⟨?_, ?_⟩, wired.errors, ?_⟩
              · intro other member
                rcases List.mem_append.mp member with old | new
                · exact wired.fine.each other old
                · rw [List.mem_singleton.mp new]
                  exact ⟨sourceTold.1, targetTold.1⟩
              · rw [List.map_append, List.map_singleton, ← List.concat_eq_append]
                exact wired.fine.targets.concat (free.mp hlookup)
              · exact List.rel_append wired.targets (.cons targetTold.2 .nil)

omit clean in
theorem Wiring.errors_add (wiring : Wiring) (link : Link) (told : wiring.errors ≠ []) :
    (wiring.add definition known link).errors ≠ [] := by
  unfold Wiring.add
  dsimp only
  split
  · split
    · simp
    · exact told
  · simp [told]

/-- The links of a body are taken without an error exactly when they are well formed. -/
theorem Wiring.clean_or_told (links : List Link) :
    (links.foldl (Wiring.add definition known) .empty).Clean definition links ∨
      ¬ LinksWellFormed definition links ∧
        (links.foldl (Wiring.add definition known) .empty).errors ≠ [] := by
  have start : Wiring.empty.Clean definition [] := ⟨⟨nofun, List.nodup_nil⟩, rfl, .nil⟩
  exact foldl_clean_or_told (fun _ _ fine => fine.of_append) Wiring.errors_add
    (fun _ _ link wired => wired.add clean link) start links

end Linking

/-! ## Definitions and programs -/

theorem Definition.wellFormed_iff {program : Program} {definition : Definition} :
    definition.WellFormed program ↔ definition.ports.Distinct ∧
      UsesWellFormed program definition.uses ∧ LinksWellFormed definition definition.links :=
  ⟨fun wellFormed => ⟨wellFormed.ports, ⟨wellFormed.instances, wellFormed.uses⟩,
      ⟨wellFormed.links, wellFormed.targets⟩⟩,
    fun ⟨ports, uses, links⟩ => ⟨ports, uses.names, uses.each, links.each, links.targets⟩⟩

/-- A definition is bound without an error exactly when it is well formed. -/
theorem Definition.errors_eq_nil_iff (program : Program) (definition : Definition) :
    (definition.resolve program (Registry.ofProgram program).1).2 = [] ↔
      definition.WellFormed program := by
  rw [wellFormed_iff]
  simp only [Definition.resolve, List.append_eq_nil_iff, Ports.repeated_eq_nil_iff, and_assoc]
  refine and_congr_right fun _ => ?_
  rcases Instances.clean_or_told program definition.name.name definition.uses with
    clean | ⟨bad, told⟩
  · refine and_congr ⟨fun _ => clean.fine, fun _ => clean.errors⟩ ?_
    rcases Wiring.clean_or_told clean definition.links with wired | ⟨bad, told⟩
    · exact ⟨fun _ => wired.fine, fun _ => wired.errors⟩
    · exact ⟨fun none_ => absurd none_ told, fun fine => absurd fine bad⟩
  · exact ⟨fun none_ => absurd none_.1 told, fun fine => absurd fine.1 bad⟩

/-- Each definition of a program without an error is well formed. -/
theorem Program.wellFormed_of_resolve {program : Program}
    (resolves : (program.resolve (Registry.ofProgram program).1).2 = []) :
    ∀ definition ∈ program.definitions, definition.WellFormed program := by
  intro definition member
  have silent := List.flatMap_eq_nil_iff.mp resolves _ (List.mem_map_of_mem member)
  exact (definition.errors_eq_nil_iff program).mp silent

/-- There is no error to tell of a program exactly when all its definitions are well formed. -/
theorem Program.resolve_errors_eq_nil_iff (program : Program) :
    (program.resolve (Registry.ofProgram program).1).2 = [] ↔
      ∀ definition ∈ program.definitions, definition.WellFormed program := by
  simp only [Program.resolve, List.flatMap_eq_nil_iff, List.forall_mem_map,
    Definition.errors_eq_nil_iff]

end FlowDiagram

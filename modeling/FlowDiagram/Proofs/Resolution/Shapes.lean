import FlowDiagram.Proofs.Registry.Registering
import FlowDiagram.Proofs.Resolution.Soundness

/-!
# Shapes of boxes

The shape of a box is how many inputs and outputs it has: that of a primitive, or that of the first
definition of a name, for which fitting symbols are written.  A use is bound exactly when its box
has the shape that it lists, and where it is not, at least one error tells why.
-/

namespace FlowDiagram

/-! ## What a box needs -/

/-- Symbols written for a definition: all universal ones, and all existential ones or none. -/
structure Generics.Suits (arguments : Generics) (callee : Definition) : Prop where
  universal : arguments.universal.length = callee.generics.universal.length
  existential : arguments.existential = [] ∨
    arguments.existential.length = callee.generics.existential.length

/-- A box is there, and has so many inputs and outputs. -/
inductive BoxRef.HasShape (program : Program) : BoxRef → Nat → Nat → Prop
  | add (symbol : Ident) : HasShape program (.add symbol) 1 1
  | remove (symbol : Ident) : HasShape program (.remove symbol) 1 1
  | spawn (symbol : Ident) : HasShape program (.spawn symbol) 1 1
  | union (tag : Ident) (count : UInt32) (span : Span) (merge : tag.name = "U")
      (positive : 1 ≤ count.toNat) : HasShape program (.indexed tag count span) count.toNat 1
  | join (span : Span) : HasShape program (.join span) 2 1
  | split (span : Span) : HasShape program (.split span) 1 2
  | definition (name : Ident) (arguments : Option Generics) (callee : Definition)
      (found : program.definition? name.name = some callee)
      (suits : ∀ written, arguments = some written → written.Suits callee) :
      HasShape program (.definition name arguments) callee.ports.inputs.length
        callee.ports.outputs.length

/-- The names of listed ports are different on either side. -/
structure Ports.Distinct (ports : Ports) : Prop where
  inputs : (ports.inputs.map (·.name)).Nodup
  outputs : (ports.outputs.map (·.name)).Nodup

/-- The ports listed on a side of a use. -/
def Use.listed (use : Use) : Side → List String
  | .input => use.ports.inputs.map (·.name)
  | .output => use.ports.outputs.map (·.name)

/-! ## Ports -/

theorem repeatedAfter_eq_nil_iff {seen : List String} {idents : List Ident} :
    repeatedAfter seen idents = [] ↔
      (idents.map (·.name)).Nodup ∧ ∀ ident ∈ idents, ident.name ∉ seen := by
  induction idents generalizing seen with
  | nil => simp [repeatedAfter]
  | cons ident rest ih =>
      unfold repeatedAfter
      split
      · rename_i repeated
        simp [repeated]
      · rename_i fresh
        simp only [ih, List.map_cons, List.nodup_cons, List.mem_cons, List.mem_map, not_or,
          not_exists, not_and, forall_eq_or_imp]
        grind

theorem Ports.repeated_eq_nil_iff {owner : PortsOwner} {ports : Ports} :
    ports.repeated owner = [] ↔ ports.Distinct := by
  simp only [Ports.repeated, List.map_eq_nil_iff, List.append_eq_nil_iff,
    repeatedAfter_eq_nil_iff, List.not_mem_nil, not_false_eq_true, implies_true, and_true]
  exact ⟨fun distinct => ⟨distinct.1, distinct.2⟩, fun distinct => ⟨distinct.1, distinct.2⟩⟩

/-! ## The registry -/

/-- The registry of a program finds the first definition of a name. -/
theorem Registry.find?_ofProgram (program : Program) (name : String) :
    match (Registry.ofProgram program).1.find? name with
    | none => program.definition? name = none
    | some entry => ∃ callee, program.definition? name = some callee ∧
        program.definitions[entry.index]? = some callee ∧
        entry = .ofDefinition entry.index callee := by
  have records := Registry.afterCalls_records (Registry.numbered 0 program.definitions)
  have first : program.definition? name = _ := (Registry.firstCall?_numbered 0 _ name).symm
  rw [Registry.ofProgram_eq, records.find?_eq, first]
  cases called : Registry.firstCall? (Registry.numbered 0 program.definitions) name with
  | none => rfl
  | some call =>
      obtain ⟨index, callee⟩ := call
      obtain ⟨pair, listed, swapped⟩ := List.mem_map.mp (List.mem_of_find?_eq_some called)
      obtain ⟨rfl, rfl⟩ := Prod.mk.inj swapped
      exact ⟨pair.1, rfl, List.mem_zipIdx_iff_getElem?.mp listed, rfl⟩

/-! ## Uses -/

theorem Use.countPorts_eq_nil_iff {use : Use} {side : Side} {listed : List Ident}
    {expected : Nat} : use.countPorts side listed expected = [] ↔ listed.length = expected := by
  unfold Use.countPorts
  split <;> simp_all

/-- A result is there exactly when a condition holds; otherwise at least one error tells why not. -/
def Told {α : Type} (condition : Prop) : Except (List ResolutionError) α → Prop
  | .ok _ => condition
  | .error errors => ¬ condition ∧ errors ≠ []

theorem Told.of_iff {α : Type} {condition other : Prop} {result : Except (List ResolutionError) α}
    (told : Told condition result) (same : condition ↔ other) : Told other result := by
  rwa [← propext same]

theorem Use.bindPorts_told (use : Use) (target : UseTarget) (inputs outputs : Nat) :
    Told (use.ports.inputs.length = inputs ∧ use.ports.outputs.length = outputs)
      (use.bindPorts target inputs outputs) := by
  have counted : use.countPorts .input use.ports.inputs inputs ++
      use.countPorts .output use.ports.outputs outputs = [] ↔
        use.ports.inputs.length = inputs ∧ use.ports.outputs.length = outputs := by
    rw [List.append_eq_nil_iff, countPorts_eq_nil_iff, countPorts_eq_nil_iff]
  unfold Use.bindPorts
  split
  · rename_i fits
    exact counted.mp fits
  · rename_i wrong
    exact ⟨fun fits => wrong (counted.mpr fits), wrong⟩

theorem Generics.countFor_eq_nil_iff {arguments : Generics} {callee : Definition} :
    arguments.countFor callee = [] ↔ arguments.Suits callee := by
  unfold Generics.countFor
  rw [List.append_eq_nil_iff]
  simp only [ite_eq_left_iff, reduceCtorEq, imp_false, Classical.not_not]
  exact ⟨fun counted => ⟨counted.1, counted.2⟩, fun suits => ⟨suits.1, suits.2⟩⟩

theorem bindGenerics_told (callee : Definition) (arguments : Option Generics) :
    Told (∀ written, arguments = some written → written.Suits callee)
      (bindGenerics callee arguments) := by
  cases arguments with
  | none => exact nofun
  | some written =>
      simp only [Option.some.injEq, forall_eq', ← Generics.countFor_eq_nil_iff, bindGenerics]
      cases written.countFor callee with
      | nil =>
          dsimp only
          split <;> rfl
      | cons error errors => exact ⟨List.cons_ne_nil error errors, List.cons_ne_nil error errors⟩

theorem Primitive.lookup_union (count : Nat) :
    lookup "U" (.count count) =
      if count = 0 then .error (.noInputs "U") else .ok (.union count) := by
  cases count <;> rfl

/-- Only the tag of a merge stands with a count. -/
theorem Primitive.lookup_count_of_ne {tag : String} (other : tag ≠ "U") (count : Nat) :
    ∃ error, lookup tag (.count count) = .error error := by
  unfold lookup
  split <;> simp_all

/-- A box that names a primitive has the shape of that primitive, if there is one. -/
theorem BoxRef.hasShape_iff_primitive {program : Program} {box : BoxRef} {inputs outputs : Nat} :
    match box.primitive? with
    | none => ∃ name arguments, box = .definition name arguments
    | some (.ok primitive) => box.HasShape program inputs outputs ↔
        inputs = primitive.inputs ∧ outputs = primitive.outputs
    | some (.error _) => ¬ box.HasShape program inputs outputs := by
  cases box with
  | definition name arguments => exact ⟨name, arguments, rfl⟩
  | indexed tag count span =>
      simp only [primitive?]
      by_cases merge : tag.name = "U"
      · rw [merge, Primitive.lookup_union]
        by_cases zero : count.toNat = 0
        · rw [if_pos zero]
          intro shape
          cases shape
          omega
        · rw [if_neg zero]
          constructor
          · intro shape
            cases shape
            exact ⟨rfl, rfl⟩
          · rintro ⟨rfl, rfl⟩
            exact .union tag count span merge (Nat.pos_of_ne_zero zero)
      · obtain ⟨error, unknown⟩ := Primitive.lookup_count_of_ne merge count.toNat
        rw [unknown]
        intro shape
        cases shape
        contradiction
  | add _ | remove _ | spawn _ | join _ | split _ =>
      constructor
      · intro shape
        cases shape
        exact ⟨rfl, rfl⟩
      · rintro ⟨rfl, rfl⟩
        constructor

section Resolving

variable {program : Program}

theorem BoxRef.hasShape_definition_iff {name : Ident} {arguments : Option Generics}
    {inputs outputs : Nat} :
    (BoxRef.definition name arguments).HasShape program inputs outputs ↔
      ∃ callee, program.definition? name.name = some callee ∧
        (∀ written, arguments = some written → written.Suits callee) ∧
        inputs = callee.ports.inputs.length ∧ outputs = callee.ports.outputs.length := by
  constructor
  · intro shape
    cases shape with
    | definition _ _ callee found suits => exact ⟨callee, found, suits, rfl, rfl⟩
  · rintro ⟨callee, found, suits, rfl, rfl⟩
    exact .definition name arguments callee found suits

theorem Use.resolveDefinition_told (use : Use) (name : Ident) (arguments : Option Generics) :
    Told ((BoxRef.definition name arguments).HasShape program use.ports.inputs.length
        use.ports.outputs.length)
      (use.resolveDefinition program (Registry.ofProgram program).1 name arguments) := by
  have registered := Registry.find?_ofProgram program name.name
  unfold Use.resolveDefinition
  rw [BoxRef.hasShape_definition_iff]
  split
  · rename_i missing
    rw [missing] at registered
    refine ⟨?_, List.cons_ne_nil _ _⟩
    rintro ⟨callee, found, -⟩
    cases registered.symm.trans found
  · rename_i entry hentry
    rw [hentry] at registered
    obtain ⟨callee, first, listed, described⟩ := registered
    have inputs : entry.inputs = callee.ports.inputs.length := by rw [described]; rfl
    have outputs : entry.outputs = callee.ports.outputs.length := by rw [described]; rfl
    have generics := bindGenerics_told callee arguments
    simp only [listed, first, Option.some.injEq, exists_eq_left', inputs, outputs]
    cases bound : bindGenerics callee arguments with
    | error errors =>
        rw [bound] at generics
        exact ⟨fun shape => generics.1 shape.1, generics.2⟩
    | ok value =>
        rw [bound] at generics
        have suits : ∀ written, arguments = some written → written.Suits callee := generics
        exact (use.bindPorts_told (.definition entry.index value.1 value.2) _ _).of_iff
          (and_iff_right suits).symm

/-- A use is bound exactly when its box has the shape that it lists. -/
theorem Use.resolve_told (program : Program) (use : Use) :
    Told (use.box.HasShape program use.ports.inputs.length use.ports.outputs.length)
      (use.resolve program (Registry.ofProgram program).1) := by
  have named := @BoxRef.hasShape_iff_primitive program use.box use.ports.inputs.length
    use.ports.outputs.length
  unfold Use.resolve
  split
  · rename_i name arguments hbox
    rw [hbox]
    exact use.resolveDefinition_told name arguments
  · rename_i other
    split
    · rename_i primitive hprimitive
      rw [hprimitive] at named
      exact (use.bindPorts_told (.primitive primitive) _ _).of_iff named.symm
    · rename_i error hprimitive
      rw [hprimitive] at named
      exact ⟨named, List.cons_ne_nil _ _⟩
    · rename_i hprimitive
      rw [hprimitive] at named
      obtain ⟨name, arguments, hbox⟩ := named
      exact absurd hbox (other name arguments)

/-- A bound use keeps its name and its ports. -/
structure ResolvedUse.Keeps (resolved : ResolvedUse) (use : Use) : Prop where
  name : resolved.name = use.name.name
  ports : ∀ side, resolved.ports side = use.listed side

theorem Use.bindPorts_keeps {use : Use} {target : UseTarget} {inputs outputs : Nat}
    {resolved : ResolvedUse} (bound : use.bindPorts target inputs outputs = .ok resolved) :
    resolved.Keeps use := by
  unfold Use.bindPorts at bound
  split at bound
  · cases bound
    refine ⟨rfl, fun side => ?_⟩
    cases side <;> rfl
  · cases bound

theorem Use.resolve_keeps {registry : Registry} {use : Use} {resolved : ResolvedUse}
    (bound : use.resolve program registry = .ok resolved) : resolved.Keeps use := by
  unfold Use.resolve at bound
  split at bound
  · unfold Use.resolveDefinition at bound
    split at bound
    · cases bound
    · split at bound
      · cases bound
      · obtain ⟨_, -, hports⟩ := exists_ok_of_bind bound
        exact bindPorts_keeps hports
  · split at bound
    · exact bindPorts_keeps bound
    · cases bound
    · cases bound

end Resolving

end FlowDiagram

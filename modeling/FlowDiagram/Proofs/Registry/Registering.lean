import FlowDiagram.Proofs.Text.Order
import FlowDiagram.Registry
import Mathlib.Data.List.Induction

/-!
# Registering definitions

The entries of a registry and the places under their names stay in step, whatever is registered.
After any calls the registry holds the first definition of each name, in the order in which the
names came up, and each later one is refused together with the place of the first.
-/

namespace FlowDiagram

namespace Registry

/-! ## Entries and slots -/

/-- The names of the entries are different, and under each is the place of its entry. -/
structure InStep (registry : Registry) : Prop where
  distinct : (registry.entries.map (·.name)).Nodup
  slots_iff : ∀ name slot, registry.slots.lookup name = some slot ↔
    (registry.entries[slot]?).map (·.name) = some name

theorem empty_inStep : empty.InStep where
  distinct := List.nodup_nil
  slots_iff name slot := by simp [empty]

variable {registry : Registry} {index : Nat} {definition : Definition} {name : String}

/-- The entry found under a name is the one of that name. -/
theorem InStep.find?_eq_some_iff (inStep : registry.InStep) {entry : RegistryEntry} :
    registry.find? name = some entry ↔ entry ∈ registry.entries ∧ entry.name = name := by
  unfold find?
  rw [Option.bind_eq_some_iff]
  constructor
  · rintro ⟨slot, listed, there⟩
    have named := (inStep.slots_iff name slot).mp listed
    rw [there, Option.map_some, Option.some.injEq] at named
    exact ⟨List.mem_of_getElem? there, named⟩
  · rintro ⟨member, rfl⟩
    obtain ⟨slot, there⟩ := List.getElem?_of_mem member
    exact ⟨slot, (inStep.slots_iff _ slot).mpr (by rw [there]; rfl), there⟩

theorem InStep.find?_eq_none_iff (inStep : registry.InStep) :
    registry.find? name = none ↔ name ∉ registry.entries.map (·.name) := by
  rw [Option.eq_none_iff_forall_ne_some]
  simp only [ne_eq, inStep.find?_eq_some_iff, not_and, List.mem_map, not_exists]

/-- The entry added stands last. -/
theorem getElem?_entries_add (registry : Registry) (index : Nat) (definition : Definition)
    (name : String) (slot : Nat) :
    ((registry.add index definition).entries[slot]?).map (·.name) = some name ↔
      (registry.entries[slot]?).map (·.name) = some name ∨
        slot = registry.entries.length ∧ name = definition.name.name := by
  simp only [add, List.getElem?_append]
  split
  · rename_i inside
    exact (or_iff_left fun last => Nat.ne_of_lt inside last.1).symm
  · rename_i outside
    have nothing : registry.entries[slot]? = none :=
      List.getElem?_eq_none_iff.mpr (Nat.not_lt.mp outside)
    rw [nothing, List.getElem?_singleton]
    by_cases last : slot = registry.entries.length
    · simp [last, RegistryEntry.ofDefinition, eq_comm]
    · have beyond : ¬ slot - registry.entries.length = 0 := by omega
      simp [last, beyond]

/-- An entry for a new name keeps entries and slots in step. -/
theorem InStep.add (inStep : registry.InStep)
    (new : registry.find? definition.name.name = none) :
    (registry.add index definition).InStep := by
  have fresh := inStep.find?_eq_none_iff.mp new
  constructor
  · rw [Registry.add, List.map_append, List.nodup_append]
    refine ⟨inStep.distinct, List.nodup_singleton _, fun name member other added same => ?_⟩
    obtain rfl : other = definition.name.name := List.mem_singleton.mp added
    exact fresh (same ▸ member)
  · intro name slot
    rw [getElem?_entries_add, ← inStep.slots_iff, Registry.add, List.lookup_cons]
    by_cases same : name = definition.name.name
    · subst same
      have absent : registry.slots.lookup definition.name.name ≠ some slot := by
        rw [ne_eq, inStep.slots_iff, Option.map_eq_some_iff]
        rintro ⟨entry, there, named⟩
        exact fresh (named ▸ List.mem_map_of_mem (List.mem_of_getElem? there))
      simp [absent, eq_comm]
    · rw [beq_false_of_ne same]
      simp [same]

/-- What is found after an entry has been added. -/
theorem InStep.find?_add (inStep : registry.InStep)
    (new : registry.find? definition.name.name = none) (name : String) :
    (registry.add index definition).find? name =
      (registry.find? name).or
        (if definition.name.name == name then some (.ofDefinition index definition) else none) := by
  ext entry
  rw [(inStep.add new).find?_eq_some_iff, Option.or_eq_some_iff, inStep.find?_eq_some_iff,
    Registry.add, List.mem_append, List.mem_singleton]
  constructor
  · rintro ⟨member | rfl, rfl⟩
    · exact .inl ⟨member, rfl⟩
    · exact .inr ⟨new, by simp [RegistryEntry.ofDefinition]⟩
  · rintro (⟨member, named⟩ | ⟨-, added⟩)
    · exact ⟨.inl member, named⟩
    · split at added
      · rename_i same
        obtain rfl := Option.some.inj added
        exact ⟨.inr rfl, beq_iff_eq.mp same⟩
      · cases added

/-! ## Calls -/

/-- The registry after some calls. -/
def afterCalls (calls : List (Nat × Definition)) : Registry :=
  calls.foldl (fun registry (index, definition) => (registry.register index definition).2) empty

/-- The first of some calls that is for a name. -/
def firstCall? (calls : List (Nat × Definition)) (name : String) : Option (Nat × Definition) :=
  calls.find? (·.2.name.name == name)

theorem afterCalls_append_singleton (calls : List (Nat × Definition)) (index : Nat)
    (definition : Definition) :
    afterCalls (calls ++ [(index, definition)]) =
      ((afterCalls calls).register index definition).2 := by
  rw [afterCalls, List.foldl_append]
  rfl

theorem firstCall?_append_singleton (calls : List (Nat × Definition)) (index : Nat)
    (definition : Definition) (name : String) :
    firstCall? (calls ++ [(index, definition)]) name = (firstCall? calls name).or
      (if definition.name.name == name then some (index, definition) else none) := by
  rw [firstCall?, List.find?_append, List.find?_singleton]
  rfl

/-- What a registry tells of the calls that led to it. -/
structure Records (registry : Registry) (calls : List (Nat × Definition)) : Prop where
  inStep : registry.InStep
  names : registry.entries.map (·.name) = (calls.map (·.2.name.name)).eraseDups
  find?_eq : ∀ name, registry.find? name =
    (firstCall? calls name).map fun call => .ofDefinition call.1 call.2

theorem records_empty : empty.Records [] :=
  ⟨empty_inStep, rfl, fun _ => rfl⟩

section

variable {calls : List (Nat × Definition)}

theorem Records.find?_eq_none_iff (records : registry.Records calls) :
    registry.find? name = none ↔ name ∉ calls.map (·.2.name.name) := by
  rw [records.inStep.find?_eq_none_iff, records.names, List.mem_eraseDups]

/-- A call for a new name is recorded. -/
theorem Records.add (records : registry.Records calls)
    (new : registry.find? definition.name.name = none) :
    (registry.add index definition).Records (calls ++ [(index, definition)]) where
  inStep := records.inStep.add new
  names := by
    have fresh := records.find?_eq_none_iff.mp new
    rw [Registry.add, List.map_append, records.names, List.map_append]
    exact (eraseDups_append_singleton _ _).trans (if_neg fresh) |>.symm
  find?_eq name := by
    rw [records.inStep.find?_add new, records.find?_eq, firstCall?_append_singleton,
      Option.map_or]
    split <;> rfl

/-- A call for a name that has come up before is as if it had not been made. -/
theorem Records.again (records : registry.Records calls)
    (held : registry.find? definition.name.name ≠ none) :
    registry.Records (calls ++ [(index, definition)]) where
  inStep := records.inStep
  names := by
    have before := not_not.mp (mt records.find?_eq_none_iff.mpr held)
    rw [records.names, List.map_append]
    exact (eraseDups_append_singleton _ _).trans (if_pos before) |>.symm
  find?_eq name := by
    rw [records.find?_eq, firstCall?_append_singleton]
    split
    · rename_i same
      obtain rfl : definition.name.name = name := beq_iff_eq.mp same
      rw [records.find?_eq, ne_eq, Option.map_eq_none_iff] at held
      obtain ⟨call, found⟩ := Option.ne_none_iff_exists'.mp held
      rw [found, Option.some_or]
    · rw [Option.or_none]

/-- Whatever is registered, the registry tells of it. -/
theorem afterCalls_records (calls : List (Nat × Definition)) :
    (afterCalls calls).Records calls := by
  induction calls using List.reverseRecOn with
  | nil => exact records_empty
  | append_singleton calls call ih =>
      obtain ⟨index, definition⟩ := call
      rw [afterCalls_append_singleton]
      cases held : (afterCalls calls).find? definition.name.name with
      | none =>
          rw [register_of_new held]
          exact ih.add held
      | some entry =>
          rw [register_of_held held]
          exact ih.again (by simp [held])

/-- A call is refused exactly when the name has come up before, and then nothing changes. -/
theorem register_afterCalls (calls : List (Nat × Definition)) (index : Nat)
    (definition : Definition) :
    match firstCall? calls definition.name.name with
    | some (_, first) =>
      (afterCalls calls).register index definition =
          (.error (.duplicate definition.name.name first.name.span definition.name.span),
            afterCalls calls) ∧
        afterCalls (calls ++ [(index, definition)]) = afterCalls calls
    | none =>
      (afterCalls calls).register index definition =
        (.ok (), afterCalls (calls ++ [(index, definition)])) := by
  have found := (afterCalls_records calls).find?_eq definition.name.name
  rw [afterCalls_append_singleton]
  cases first : firstCall? calls definition.name.name with
  | none =>
      rw [first] at found
      rw [register_of_new found]
  | some call =>
      rw [first] at found
      rw [register_of_held found]
      exact ⟨rfl, rfl⟩

theorem resolve_afterCalls (calls : List (Nat × Definition)) (name : String) :
    (afterCalls calls).resolve name =
      match firstCall? calls name with
      | some (index, definition) => .ok (.ofDefinition index definition)
      | none => .error (.unknown name) := by
  rw [resolve, (afterCalls_records calls).find?_eq]
  cases firstCall? calls name <;> rfl

end

/-! ## Programs -/

/-- The calls that register some definitions with their numbers, from `index` on. -/
def numbered (index : Nat) (definitions : List Definition) : List (Nat × Definition) :=
  (definitions.zipIdx index).map Prod.swap

theorem numbered_cons (index : Nat) (definition : Definition) (rest : List Definition) :
    numbered index (definition :: rest) = (index, definition) :: numbered (index + 1) rest := rfl

theorem firstCall?_numbered (index : Nat) (definitions : List Definition) (name : String) :
    (firstCall? (numbered index definitions) name).map (·.2) =
      definitions.find? (·.name.name == name) := by
  induction definitions generalizing index with
  | nil => rfl
  | cons definition rest ih =>
      have later := ih (index + 1)
      unfold firstCall? at later
      rw [numbered_cons, firstCall?, List.find?_cons, List.find?_cons]
      cases definition.name.name == name
      · exact later
      · rfl

/-- The refusal of a definition, if one of its name has been called for. -/
def refusal? (calls : List (Nat × Definition)) (definition : Definition) : Option RegistryError :=
  (firstCall? calls definition.name.name).map fun first =>
    .duplicate definition.name.name first.2.name.span definition.name.span

/-- The refusals of some definitions, each after calls for all before it. -/
def refusals (calls : List (Nat × Definition)) (index : Nat) (definitions : List Definition) :
    List RegistryError :=
  definitions.zipIdx.filterMap fun (definition, number) =>
    refusal? (calls ++ numbered index (definitions.take number)) definition

theorem refusals_cons (calls : List (Nat × Definition)) (index : Nat) (definition : Definition)
    (rest : List Definition) :
    refusals calls index (definition :: rest) =
      (refusal? calls definition).toList ++
        refusals (calls ++ [(index, definition)]) (index + 1) rest := by
  have here : refusal? (calls ++ numbered index ((definition :: rest).take 0)) definition =
      refusal? calls definition := by
    rw [List.take_zero]
    exact congrArg (refusal? · definition) (List.append_nil calls)
  have later : (rest.zipIdx 1).filterMap (fun (other, number) =>
        refusal? (calls ++ numbered index ((definition :: rest).take number)) other) =
      refusals (calls ++ [(index, definition)]) (index + 1) rest := by
    rw [List.zipIdx_succ, List.filterMap_map]
    simp [refusals, Function.comp_def, numbered_cons]
  rw [refusals, List.zipIdx_cons, List.filterMap_cons, Nat.zero_add, later]
  dsimp only
  rw [here]
  cases refusal? calls definition <;> rfl

/-- Registering all definitions makes one call for each, and tells those that are refused. -/
theorem registerAll_afterCalls (calls : List (Nat × Definition)) (index : Nat)
    (definitions : List Definition) :
    (afterCalls calls).registerAll index definitions =
      (afterCalls (calls ++ numbered index definitions), refusals calls index definitions) := by
  induction definitions generalizing calls index with
  | nil => simp [registerAll, refusals, numbered]
  | cons definition rest ih =>
      have next := ih (calls ++ [(index, definition)]) (index + 1)
      have called := register_afterCalls calls index definition
      rw [registerAll, refusals_cons, refusal?]
      split at called
      · rename_i first found
        obtain ⟨refused, unchanged⟩ := called
        rw [refused, found]
        dsimp only
        rw [← unchanged, next]
        simp [numbered_cons]
      · rename_i found
        rw [called, found]
        dsimp only
        rw [next]
        simp [numbered_cons]

theorem ofProgram_eq (program : Program) :
    ofProgram program =
      (afterCalls (numbered 0 program.definitions), refusals [] 0 program.definitions) :=
  registerAll_afterCalls [] 0 program.definitions

end Registry

/-- What is told of a definition whose name an earlier one has. -/
def Definition.duplicateOf (definition first : Definition) : Diagnostic where
  kind := .duplicateDefinition
  severity := .error
  span := definition.name.span
  position := none
  message := "duplicate definition `" ++ definition.name.name ++ "`"
  hint := some "rename one of the definitions"
  related := [⟨first.name.span, "first defined here"⟩]

/--
Whatever is registered, the names of the entries are different, in the order in which they came
up first, and under each is the place of its entry; the first definition of a name is found, and
every later one refused without a change.  So a program has one diagnostic for each definition
whose name an earlier one has, and it shows the first of these.
-/
theorem Registry.registering_exact :
    (∀ calls, (afterCalls calls).Records calls ∧
      (∀ name, (afterCalls calls).resolve name =
        match firstCall? calls name with
        | some (index, definition) => .ok (.ofDefinition index definition)
        | none => .error (.unknown name)) ∧
      ∀ index definition,
        match firstCall? calls definition.name.name with
        | some (_, first) =>
          (afterCalls calls).register index definition =
              (.error (.duplicate definition.name.name first.name.span definition.name.span),
                afterCalls calls) ∧
            afterCalls (calls ++ [(index, definition)]) = afterCalls calls
        | none =>
          (afterCalls calls).register index definition =
            (.ok (), afterCalls (calls ++ [(index, definition)]))) ∧
    ∀ (program : Program) (place : Span),
      (ofProgram program).1 = afterCalls (numbered 0 program.definitions) ∧
      (ofProgram program).2.map (RegistryError.diagnostic place) =
        program.definitions.zipIdx.filterMap fun (definition, number) =>
          ((program.definitions.take number).find? (·.name.name == definition.name.name)).map
            definition.duplicateOf := by
  refine ⟨fun calls => ⟨afterCalls_records calls, resolve_afterCalls calls,
    register_afterCalls calls⟩, fun program place => ?_⟩
  refine ⟨by rw [ofProgram_eq], ?_⟩
  rw [ofProgram_eq, refusals, List.map_filterMap]
  refine List.filterMap_congr fun (definition, number) _ => ?_
  dsimp only
  rw [List.nil_append, refusal?, ← firstCall?_numbered 0, Option.map_map, Option.map_map]
  rfl

end FlowDiagram

import FlowDiagram.Expansion
import Mathlib.Data.List.Basic

/-!
# Symbols on the way down

A descent goes from a definition to one that its body uses, from there to the next, and so on
without end.  A use that leaves the existential symbols to the definition used introduces symbols,
and the uses further down may pass them on.  A descent renews if it leaves all symbols behind: for
each step there is a later one from which on every definition has a universal parameter that holds a
symbol introduced since.
-/

namespace FlowDiagram

/-! ## Arguments -/

/-- A name stands for what is bound to the first parameter of that name. -/
theorem lookup_zip (parameters binding : List Symbol) (symbol : Symbol) :
    (parameters.zip binding).lookup symbol =
      if symbol ∈ parameters then binding[parameters.idxOf symbol]? else none := by
  induction parameters generalizing binding with
  | nil => rfl
  | cons first rest ih =>
      cases binding with
      | nil => simp
      | cons value values =>
          by_cases here : symbol = first
          · subst here
            simp
          · rw [List.zip_cons_cons, List.lookup_cons, beq_eq_false_iff_ne.mpr here, ih,
              List.idxOf_cons, beq_eq_false_iff_ne.mpr (Ne.symm here)]
            simp [here]

/-- A name stands for what is bound to a parameter of that name, or for itself. -/
theorem ResolvedDefinition.bind_cases (definition : ResolvedDefinition) (binding : List Symbol)
    (symbol : Symbol) :
    definition.bind binding symbol = symbol ∨
      symbol ∈ definition.parameters ∧
        binding[definition.parameters.idxOf symbol]? = some (definition.bind binding symbol) := by
  rw [bind, lookup_zip]
  by_cases parameter : symbol ∈ definition.parameters
  · rw [if_pos parameter]
    cases bound : binding[definition.parameters.idxOf symbol]? with
    | none => exact .inl rfl
    | some value => exact .inr ⟨parameter, rfl⟩
  · rw [if_neg parameter]
    exact .inl rfl

theorem ResolvedDefinition.bind_of_getElem? {definition : ResolvedDefinition}
    {binding : List Symbol} {symbol value : Symbol} (parameter : symbol ∈ definition.parameters)
    (bound : binding[definition.parameters.idxOf symbol]? = some value) :
    definition.bind binding symbol = value := by
  rw [bind, lookup_zip, if_pos parameter, bound]
  rfl

/-- A use introduces the arguments behind the universal ones, or binds what it is given there. -/
theorem getElem?_bindArguments (bind : Symbol → Symbol) (number universal : Nat) (fresh : Bool)
    (arguments : List Symbol) (position : Nat) :
    (bindArguments bind number universal fresh arguments)[position]? =
      arguments[position]?.map fun argument =>
        if fresh = true ∧ universal ≤ position then .fresh argument number else bind argument := by
  cases fresh with
  | false => simp [bindArguments]
  | true =>
      simp only [bindArguments, if_true, true_and]
      by_cases introduced : universal ≤ position
      · rw [List.getElem?_append_right (by simp; omega)]
        simp only [List.length_map, List.length_take, List.getElem?_map, List.getElem?_drop,
          introduced, if_true]
        by_cases within : universal ≤ arguments.length
        · rw [Nat.min_eq_left within, Nat.add_sub_cancel' introduced]
        · rw [List.getElem?_eq_none (by omega), List.getElem?_eq_none (by omega)]
      · by_cases within : position < arguments.length
        · rw [List.getElem?_append_left (by simp; omega)]
          simp only [List.getElem?_map, introduced, if_false]
          rw [List.getElem?_take_of_lt (by omega)]
        · rw [List.getElem?_eq_none (by simp; omega), List.getElem?_eq_none (by omega)]
          rfl

namespace ResolvedProgram

/-- The symbols written as arguments in a program. -/
def argumentSymbols (program : ResolvedProgram) : List Symbol :=
  program.definitions.flatMap fun definition => definition.uses.flatMap fun use =>
    match use.target with
    | .primitive _ => []
    | .definition _ arguments _ => arguments

/-! ## Descents -/

/-- Definitions without end, each of them used in the body of the one before. -/
structure Descent (program : ResolvedProgram) where
  index : Nat → program.Index
  /-- What the use at a step is given. -/
  arguments : Nat → List Symbol
  /-- The use at a step leaves the existential symbols to the definition used. -/
  fresh : Nat → Bool
  calls : ∀ step, ∃ use ∈ (program.definition (index step)).uses,
    use.target = .definition (index (step + 1)) (arguments step) (fresh step)

variable {program : ResolvedProgram}

namespace Descent

/-- The parameters of the definition at a step. -/
def parameters (descent : program.Descent) (step : Nat) : List Symbol :=
  (program.definition (descent.index step)).parameters

/-- How many of them are universal. -/
def universal (descent : program.Descent) (step : Nat) : Nat :=
  (program.definition (descent.index step)).universal.length

theorem universal_le (descent : program.Descent) (step : Nat) :
    descent.universal step ≤ (descent.parameters step).length := by
  rw [parameters, ResolvedDefinition.parameters, List.length_append]
  exact Nat.le_add_right _ _

theorem mem_argumentSymbols (descent : program.Descent) (step : Nat) :
    ∀ symbol ∈ descent.arguments step, symbol ∈ program.argumentSymbols := by
  obtain ⟨use, member, target⟩ := descent.calls step
  intro symbol passed
  have known := List.get_mem program.definitions (descent.index step)
  refine List.mem_flatMap.mpr ⟨_, known, List.mem_flatMap.mpr ⟨use, member, ?_⟩⟩
  rw [target]
  exact passed

/-- The use at a step introduces the symbol at a position. -/
def Introduces (descent : program.Descent) (step position : Nat) : Prop :=
  descent.fresh step = true ∧ descent.universal (step + 1) ≤ position ∧
    position < (descent.arguments step).length

/-- The use at a step passes on to one position what is bound to the parameter at another. -/
def Passes (descent : program.Descent) (step source position : Nat) : Prop :=
  ¬ (descent.fresh step = true ∧ descent.universal (step + 1) ≤ position) ∧
    ∃ symbol ∈ descent.parameters step, (descent.arguments step)[position]? = some symbol ∧
      (descent.parameters step).idxOf symbol = source

/--
The parameter at a position of the definition at a step holds a symbol introduced since the step
`start`.
-/
inductive Recent (descent : program.Descent) (start : Nat) : Nat → Nat → Prop where
  | introduced {step position : Nat} (late : start ≤ step)
      (introduces : descent.Introduces step position) : Recent descent start (step + 1) position
  | passed {step source position : Nat} (passes : descent.Passes step source position)
      (recent : Recent descent start step source) : Recent descent start (step + 1) position

variable {descent : program.Descent} {start earlier step position : Nat}

theorem Recent.lt (recent : descent.Recent start step position) : start < step := by
  induction recent with
  | introduced late _ => exact Nat.lt_succ_of_le late
  | passed _ _ ih => exact Nat.lt_succ_of_lt ih

theorem Recent.mono (le : earlier ≤ start) (recent : descent.Recent start step position) :
    descent.Recent earlier step position := by
  induction recent with
  | introduced late introduces => exact .introduced (Nat.le_trans le late) introduces
  | passed passes _ ih => exact .passed passes ih

/-- Some universal parameter of the definition at a step holds a symbol introduced since `start`. -/
def Renewed (descent : program.Descent) (start step : Nat) : Prop :=
  ∃ position < descent.universal step, descent.Recent start step position

/-- For each step, all definitions but finitely many are renewed since then. -/
def Renews (descent : program.Descent) : Prop :=
  ∀ start, ∃ later, ∀ step, later ≤ step → descent.Renewed start step

end Descent

/-- Below a root no descent renews: each comes back to universal symbols that it has had before. -/
def Settles (program : ResolvedProgram) (root : program.Index) : Prop :=
  ∀ descent : program.Descent, descent.index 0 = root → ¬ descent.Renews

/-! ## Confined symbols -/

/-- The arguments that a use passes to universal parameters. -/
def universalArguments (program : ResolvedProgram) (use : ResolvedUse) : List Symbol :=
  match use.target with
  | .primitive _ => []
  | .definition index arguments _ =>
    ((program.definitions[index]?).map fun callee =>
      arguments.take callee.universal.length).getD []

/-- No use passes an existential symbol of its body as a universal one. -/
def Confined (program : ResolvedProgram) : Prop :=
  ∀ body ∈ program.definitions, ∀ use ∈ body.uses,
    ∀ symbol ∈ program.universalArguments use, symbol ∉ body.existential

instance (program : ResolvedProgram) : Decidable program.Confined :=
  inferInstanceAs (Decidable (∀ body ∈ program.definitions, ∀ use ∈ body.uses,
    ∀ symbol ∈ program.universalArguments use, symbol ∉ body.existential))

/-- What a descent passes on to a universal parameter is bound to one. -/
theorem Confined.lt_universal (confined : program.Confined) {descent : program.Descent}
    {step source position : Nat} (passes : descent.Passes step source position)
    (universal : position < descent.universal (step + 1)) : source < descent.universal step := by
  obtain ⟨-, symbol, parameter, found, rfl⟩ := passes
  obtain ⟨use, member, target⟩ := descent.calls step
  have same : program.universalArguments use =
      (descent.arguments step).take (descent.universal (step + 1)) := by
    simp [universalArguments, target, Descent.universal, definition]
  have passed : symbol ∈ program.universalArguments use := by
    rw [same]
    exact List.mem_of_getElem? ((List.getElem?_take_of_lt universal).trans found)
  have known := List.get_mem program.definitions (descent.index step)
  have inUniversal := (List.mem_append.mp parameter).resolve_right
    (confined _ known use member symbol passed)
  rw [Descent.parameters, ResolvedDefinition.parameters, List.idxOf_append_of_mem inUniversal]
  exact List.idxOf_lt_length_of_mem inUniversal

/-- Where existential symbols are confined, no introduced one ever is universal. -/
theorem Confined.settles (confined : program.Confined) (root : program.Index) :
    program.Settles root := by
  intro descent _ renews
  have existential : ∀ step position, descent.Recent 0 step position →
      descent.universal step ≤ position := by
    intro step position recent
    induction recent with
    | introduced _ introduces => exact introduces.2.1
    | passed passes _ ih =>
        exact Nat.not_lt.mp fun universal =>
          Nat.not_lt.mpr ih (confined.lt_universal passes universal)
  obtain ⟨later, renewed⟩ := renews 0
  obtain ⟨position, universal, recent⟩ := renewed later (Nat.le_refl later)
  exact Nat.not_lt.mpr (existential later position recent) universal

end ResolvedProgram

end FlowDiagram

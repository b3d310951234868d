import FlowDiagram.Proofs.Program.Written
import FlowDiagram.Proofs.Unfolding.Listing

/-!
# Renaming what is unfolded

What a body unfolds to under renamed symbols is what it unfolds to, renamed: names written in the
body stay, and all that unfolding asks of symbols is which of them are equal.  The symbols around a
body were there before the introductions still to come, so it does not matter how those are named.
-/

namespace FlowDiagram

/-! ## Renaming -/

/-- The symbols that a node acts on or was to be unfolded under. -/
def NodeKind.symbols : NodeKind → List Symbol
  | .primitive box => box.symbol?.toList
  | .truncated _ generators => generators

def NodeKind.rename (rename : Symbol → Symbol) : NodeKind → NodeKind
  | .primitive box => .primitive (box.rename rename)
  | .truncated definition generators => .truncated definition (generators.map rename)

/-- Rename the symbols of a node; where it lies and what ports it has stays. -/
def Node.rename (rename : Symbol → Symbol) (node : Node) : Node :=
  { node with kind := node.kind.rename rename }

def Instance.rename (rename : Symbol → Symbol) (unfolded : Instance) : Instance :=
  { unfolded with generators := unfolded.generators.map rename }

def Application.rename (rename : Symbol → Symbol) (application : Application) : Application :=
  { application with binding := application.binding.map rename }

def Scope.rename (rename : Symbol → Symbol) (scope : Scope) : Scope :=
  { scope with applications := scope.applications.map (Application.rename rename) }

theorem Primitive.symbol?_rename (bind : Symbol → Symbol) (box : Primitive) :
    (box.rename bind).symbol? = box.symbol?.map bind := by
  cases box <;> rfl

theorem Primitive.rename_rename {whole first second : Symbol → Symbol} {box : Primitive}
    (same : ∀ symbol ∈ box.symbol?, whole symbol = second (first symbol)) :
    box.rename whole = (box.rename first).rename second := by
  cases box <;> simp_all [Primitive.rename, Primitive.symbol?]

theorem NodeKind.rename_congr {rename other : Symbol → Symbol} {kind : NodeKind}
    (same : ∀ symbol ∈ kind.symbols, rename symbol = other symbol) :
    kind.rename rename = kind.rename other := by
  cases kind with
  | primitive box =>
      cases box <;> simp_all [NodeKind.rename, Primitive.rename, NodeKind.symbols,
        Primitive.symbol?]
  | truncated definition generators =>
      exact congrArg (truncated definition) (List.map_congr_left same)

@[simp]
theorem Scope.binding_rename (rename : Symbol → Symbol) (scope : Scope) :
    (scope.rename rename).binding = scope.binding.map rename := by
  unfold Scope.binding Scope.rename
  cases scope.applications <;> rfl

theorem Scope.toInstance_rename (rename : Symbol → Symbol) (scope : Scope) :
    (scope.rename rename).toInstance = scope.toInstance.rename rename := by
  simp [Scope.toInstance, Instance.rename, Scope.rename, ← Scope.binding_rename]

/-- A name stands for the renamed symbol, if it is not renamed itself. -/
theorem ResolvedDefinition.bind_rename {rename : Symbol → Symbol}
    (definition : ResolvedDefinition) (binding : List Symbol) {symbol : Symbol}
    (kept : rename symbol = symbol) :
    definition.bind (binding.map rename) symbol = rename (definition.bind binding symbol) := by
  have looked : ∀ (parameters binding : List Symbol),
      (parameters.zip (binding.map rename)).lookup symbol =
        ((parameters.zip binding).lookup symbol).map rename := by
    intro parameters
    induction parameters with
    | nil => intro binding; rfl
    | cons parameter rest ih =>
        intro binding
        cases binding with
        | nil => rfl
        | cons first others =>
            rw [List.map_cons, List.zip_cons_cons, List.zip_cons_cons, List.lookup_cons,
              List.lookup_cons]
            split
            · rfl
            · exact ih others
  unfold ResolvedDefinition.bind
  rw [looked]
  cases (definition.parameters.zip binding).lookup symbol with
  | none => exact kept.symm
  | some found => rfl

theorem Scope.bind_rename {rename : Symbol → Symbol} (scope : Scope) {symbol : Symbol}
    (kept : rename symbol = symbol) :
    (scope.rename rename).bind symbol = rename (scope.bind symbol) := by
  unfold Scope.bind
  rw [Scope.binding_rename]
  exact scope.body.bind_rename scope.binding kept

/-- How often a definition lies around itself only depends on which symbols are equal. -/
theorem Scope.recursions_rename {rename : Symbol → Symbol}
    (injective : Function.Injective rename) (scope : Scope) (index universal : Nat)
    (symbols : List Symbol) :
    (scope.rename rename).recursions index universal (symbols.map rename) =
      scope.recursions index universal symbols := by
  unfold Scope.recursions Scope.rename
  rw [List.countP_map]
  apply List.countP_congr
  intro application _
  simp only [Function.comp, Application.rename, ← List.map_take,
    List.map_inj_right fun first second same => injective same]

/-! ## Regular scopes -/

variable {program : ResolvedProgram} {depth : Nat}

/-- All symbols that the bodies here and around are unfolded under were there before `bound`. -/
def Scope.Below (bound : Nat) (scope : Scope) : Prop :=
  ∀ application ∈ scope.applications, ∀ symbol ∈ application.binding, symbol.Below bound

/-- No definition lies around itself more often than the depth lets it. -/
def Scope.Within (program : ResolvedProgram) (depth : Nat) (scope : Scope) : Prop :=
  ∀ (index : Nat) (callee : ResolvedDefinition) (symbols : List Symbol),
    program.definitions[index]? = some callee →
      scope.recursions index callee.universal.length symbols ≤ depth + 1

/-- A body that is not cut off lies around itself no oftener than the depth lets it. -/
theorem Scope.Within.inner {scope : Scope} (within : scope.Within program depth)
    (use : ResolvedUse) {index : Nat} {callee : ResolvedDefinition}
    (found : program.definitions[index]? = some callee) {symbols : List Symbol}
    (shallow : scope.recursions index callee.universal.length symbols ≤ depth) (level : Nat) :
    (scope.inner use index callee symbols level).Within program depth := by
  intro other otherCallee otherSymbols otherFound
  have outer := within other otherCallee otherSymbols otherFound
  simp only [Scope.recursions, Scope.inner, List.countP_cons] at outer shallow ⊢
  split
  · -- the same definition under the same universal symbols lies around no oftener than here
    rename_i same
    simp only [decide_eq_true_eq] at same
    obtain ⟨rfl, universal⟩ := same
    cases found.symm.trans otherFound
    rw [universal] at shallow
    omega
  · omega

theorem Scope.within_ofRoot (index : Nat) (body : ResolvedDefinition) (binding : List Symbol) :
    (ofRoot index body binding).Within program depth := by
  intro other callee symbols _
  refine (List.countP_le_length).trans ?_
  simp [ofRoot]

/-- What holds of every scope that unfolding comes to before the introduction `bound`. -/
structure Scope.Regular (program : ResolvedProgram) (depth bound : Nat) (scope : Scope) :
    Prop where
  known : scope.body ∈ program.definitions
  below : scope.Below bound
  within : scope.Within program depth

theorem Scope.Below.mono {bound larger : Nat} (le : bound ≤ larger) {scope : Scope}
    (below : scope.Below bound) : scope.Below larger :=
  fun application member symbol held => (below application member symbol held).mono le

theorem Scope.Below.binding {bound : Nat} {scope : Scope} (below : scope.Below bound) :
    ∀ symbol ∈ scope.binding, symbol.Below bound := by
  unfold Scope.binding
  cases happlications : scope.applications with
  | nil => simp
  | cons application rest => exact below application (by simp [happlications])

/-- What a name stands for was there before the bound, as the name itself was. -/
theorem Scope.Below.bind {bound : Nat} {scope : Scope} (below : scope.Below bound)
    {symbol : Symbol} (written_ : symbol.IsWritten) : (scope.bind symbol).Below bound := by
  unfold Scope.bind ResolvedDefinition.bind
  cases hlookup : (scope.body.parameters.zip scope.binding).lookup symbol with
  | none => exact written_.below bound
  | some found =>
      obtain ⟨before, after, split, -⟩ := List.lookup_eq_some_iff.mp hlookup
      have member : (symbol, found) ∈ scope.body.parameters.zip scope.binding := by simp [split]
      exact below.binding found (List.of_mem_zip member).2

theorem Scope.rename_congr {rename other : Symbol → Symbol} {scope : Scope}
    (same : ∀ application ∈ scope.applications, ∀ symbol ∈ application.binding,
      rename symbol = other symbol) :
    scope.rename rename = scope.rename other := by
  unfold Scope.rename
  congr 1
  apply List.map_congr_left
  intro application member
  unfold Application.rename
  congr 1
  exact List.map_congr_left (same application member)

/-! ## Arguments -/

/-- The number of the next introduction behind a use. -/
def nextIntroduction (number universal : Nat) (fresh : Bool) (arguments : List Symbol) : Nat :=
  if fresh ∧ universal < arguments.length then number + 1 else number

theorem le_nextIntroduction (number universal : Nat) (fresh : Bool) (arguments : List Symbol) :
    number ≤ nextIntroduction number universal fresh arguments := by
  unfold nextIntroduction
  split
  · exact Nat.le_succ number
  · exact Nat.le_refl number

theorem Aligned.next {numbers : Nat → Nat} {before after : Nat}
    (aligned : Aligned numbers before after) (universal : Nat) (fresh : Bool)
    (arguments : List Symbol) :
    Aligned numbers (nextIntroduction before universal fresh arguments)
      (nextIntroduction after universal fresh arguments) := by
  unfold nextIntroduction
  split
  · exact aligned.step
  · exact aligned

/-- Both runs pass on the same symbols, up to the numbers of introductions. -/
theorem bindArguments_renumber {numbers : Nat → Nat} {before after : Nat}
    (aligned : Aligned numbers before after) (scope : Scope) (universal : Nat) (fresh : Bool)
    {arguments : List Symbol} (written_ : ∀ symbol ∈ arguments, symbol.IsWritten) :
    bindArguments (scope.rename (Symbol.renumber numbers)).bind after universal fresh arguments =
      (bindArguments scope.bind before universal fresh arguments).map
        (Symbol.renumber numbers) := by
  have bound : ∀ symbol ∈ arguments, (scope.rename (Symbol.renumber numbers)).bind symbol =
      (scope.bind symbol).renumber numbers := by
    intro symbol member
    exact scope.bind_rename (Symbol.renumber_of_isWritten numbers (written_ symbol member))
  have made : ∀ symbol ∈ arguments,
      Symbol.fresh symbol after = (Symbol.fresh symbol before).renumber numbers := by
    intro symbol member
    rw [Symbol.renumber_fresh numbers (written_ symbol member), aligned.here]
  unfold bindArguments
  split
  · rw [List.map_append, List.map_map, List.map_map]
    congr 1
    · exact List.map_congr_left fun symbol member => bound symbol (List.mem_of_mem_take member)
    · exact List.map_congr_left fun symbol member => made symbol (List.mem_of_mem_drop member)
  · rw [List.map_map]
    exact List.map_congr_left bound

/-- The symbols passed on were there before the next introduction. -/
theorem Scope.Below.bindArguments {bound : Nat} {scope : Scope} (below : scope.Below bound)
    (universal : Nat) (fresh : Bool) {arguments : List Symbol}
    (written_ : ∀ symbol ∈ arguments, symbol.IsWritten) :
    ∀ symbol ∈ FlowDiagram.bindArguments scope.bind bound universal fresh arguments,
      symbol.Below (nextIntroduction bound universal fresh arguments) := by
  intro symbol member
  have bound_ : ∀ argument ∈ arguments, (scope.bind argument).Below
      (nextIntroduction bound universal fresh arguments) := by
    intro argument held
    exact (below.bind (written_ argument held)).mono (le_nextIntroduction ..)
  unfold FlowDiagram.bindArguments at member
  split at member
  · rename_i isFresh
    rcases List.mem_append.mp member with passed | made
    · obtain ⟨argument, held, rfl⟩ := List.mem_map.mp passed
      exact bound_ argument (List.mem_of_mem_take held)
    · obtain ⟨argument, held, rfl⟩ := List.mem_map.mp made
      have introduces : universal < arguments.length := by
        have some_ := List.length_pos_of_mem held
        rw [List.length_drop] at some_
        omega
      unfold nextIntroduction
      rw [if_pos ⟨isFresh, introduces⟩]
      exact Symbol.below_fresh (written_ argument (List.mem_of_mem_drop held)) bound
  · obtain ⟨argument, held, rfl⟩ := List.mem_map.mp member
    exact bound_ argument held

end FlowDiagram

import FlowDiagram.Symbol
import Mathlib.Order.Monotone.Basic

/-!
# Renumbering introductions

A symbol made by an introduction is a written name, `#` and the number of the introduction, and both
can be read off it again.  So introductions can be given other numbers: all symbols that one of them
made are renamed together, and every other symbol stays.
-/

namespace FlowDiagram

/-! ## Names and numbers -/

/-- A symbol that can be written in a source. -/
def Symbol.IsWritten (symbol : Symbol) : Prop :=
  '#' ∉ symbol.toList

instance (symbol : Symbol) : Decidable symbol.IsWritten :=
  inferInstanceAs (Decidable ('#' ∉ symbol.toList))

/-- The number of the introduction that made a symbol. -/
def Symbol.number? (symbol : Symbol) : Option Nat :=
  let digits := (symbol.toList.dropWhile (· != '#')).tail
  let number := Nat.ofDigitChars 10 digits 0
  if symbol = .fresh symbol.written number then some number else none

theorem Symbol.toList_fresh (name : Symbol) (number : Nat) :
    (fresh name number).toList = name.toList ++ '#' :: Nat.toDigits 10 number := by
  simp [fresh, toString]

theorem Symbol.isWritten_written (symbol : Symbol) : IsWritten symbol.written := by
  unfold IsWritten written
  rw [String.toList_ofList]
  intro member
  have kept := List.all_takeWhile (l := symbol.toList) (p := (· != '#'))
  simpa using List.all_eq_true.mp kept '#' member

theorem Symbol.not_isWritten_fresh (name : Symbol) (number : Nat) :
    ¬ IsWritten (fresh name number) := by
  simp [IsWritten, toList_fresh]

/-- The name before the first `#` is the one that the symbol was made of. -/
theorem Symbol.written_fresh {name : Symbol} (written_ : name.IsWritten) (number : Nat) :
    (fresh name number).written = name := by
  have other : ∀ c ∈ name.toList, (c != '#') = true := by
    intro c member
    have : c ≠ '#' := fun same => written_ (same ▸ member)
    simpa using this
  unfold written
  rw [toList_fresh, List.takeWhile_append_of_pos other]
  simp

theorem Symbol.number?_fresh {name : Symbol} (written_ : name.IsWritten) (number : Nat) :
    number? (fresh name number) = some number := by
  have other : ∀ c ∈ name.toList, (c != '#') = true := by
    intro c member
    have : c ≠ '#' := fun same => written_ (same ▸ member)
    simpa using this
  have digits : ((fresh name number).toList.dropWhile (· != '#')).tail =
      Nat.toDigits 10 number := by
    rw [toList_fresh, List.dropWhile_append_of_pos other]
    simp
  simp [number?, digits, written_fresh written_]

theorem Symbol.eq_fresh_of_number? {symbol : Symbol} {number : Nat}
    (made : symbol.number? = some number) : symbol = fresh symbol.written number := by
  unfold number? at made
  simp only [Option.ite_none_right_eq_some, Option.some.injEq] at made
  rw [made.2] at made
  exact made.1

theorem Symbol.number?_of_isWritten {symbol : Symbol} (written_ : symbol.IsWritten) :
    symbol.number? = none := by
  cases made : symbol.number? with
  | none => rfl
  | some number =>
      rw [eq_fresh_of_number? made] at written_
      exact absurd written_ (not_isWritten_fresh _ _)

/-! ## Other numbers -/

/-- Rename what an introduction made as if it had another number. -/
def Symbol.renumber (numbers : Nat → Nat) (symbol : Symbol) : Symbol :=
  match symbol.number? with
  | some number => .fresh symbol.written (numbers number)
  | none => symbol

theorem Symbol.renumber_of_isWritten (numbers : Nat → Nat) {symbol : Symbol}
    (written_ : symbol.IsWritten) : symbol.renumber numbers = symbol := by
  unfold renumber
  rw [number?_of_isWritten written_]

theorem Symbol.renumber_fresh (numbers : Nat → Nat) {name : Symbol} (written_ : name.IsWritten)
    (number : Nat) : renumber numbers (fresh name number) = fresh name (numbers number) := by
  unfold renumber
  rw [number?_fresh written_, written_fresh written_]

/-- Renumbering keeps the names that symbols were made of. -/
theorem Symbol.written_renumber (numbers : Nat → Nat) (symbol : Symbol) :
    (symbol.renumber numbers).written = symbol.written := by
  unfold renumber
  split
  · exact written_fresh (isWritten_written symbol) _
  · rfl

theorem Symbol.number?_renumber (numbers : Nat → Nat) (symbol : Symbol) :
    (symbol.renumber numbers).number? = symbol.number?.map numbers := by
  unfold renumber
  split
  · rename_i number made
    rw [number?_fresh (isWritten_written symbol), made, Option.map_some]
  · rename_i plain
    rw [plain, Option.map_none]

theorem Symbol.renumber_injective {numbers : Nat → Nat} (injective : Function.Injective numbers) :
    Function.Injective (renumber numbers) := by
  intro first second same
  have names := congrArg written same
  rw [written_renumber, written_renumber] at names
  have made := congrArg number? same
  rw [number?_renumber, number?_renumber] at made
  have sameNumber := Option.map_injective injective made
  unfold renumber at same
  cases hnumber : first.number? with
  | some number =>
      have firstMade := eq_fresh_of_number? hnumber
      have secondMade := eq_fresh_of_number? (sameNumber ▸ hnumber)
      exact firstMade.trans (names ▸ secondMade.symm)
  | none =>
      rw [hnumber, ← sameNumber, hnumber] at same
      exact same

/-! ## Symbols below an introduction -/

/-- A symbol that was there before the introduction `bound`. -/
def Symbol.Below (bound : Nat) (symbol : Symbol) : Prop :=
  ∀ number, symbol.number? = some number → number < bound

theorem Symbol.IsWritten.below {symbol : Symbol} (written_ : symbol.IsWritten) (bound : Nat) :
    symbol.Below bound := by
  intro number made
  rw [number?_of_isWritten written_] at made
  cases made

theorem Symbol.below_fresh {name : Symbol} (written_ : name.IsWritten) (number : Nat) :
    (fresh name number).Below (number + 1) := by
  intro other made
  rw [number?_fresh written_] at made
  cases made
  exact Nat.lt_succ_self _

theorem Symbol.Below.mono {bound larger : Nat} (le : bound ≤ larger) {symbol : Symbol}
    (below : symbol.Below bound) : symbol.Below larger :=
  fun number made => Nat.lt_of_lt_of_le (below number made) le

/-- Numbers from the bound on do not matter to a symbol below it. -/
theorem Symbol.Below.renumber_congr {bound : Nat} {symbol : Symbol} (below : symbol.Below bound)
    {numbers others : Nat → Nat} (agree : ∀ number < bound, numbers number = others number) :
    symbol.renumber numbers = symbol.renumber others := by
  unfold renumber
  split
  · rename_i number made
    rw [agree number (below number made)]
  · rfl

/-! ## Two countings -/

/--
The number by which one counting tells each introduction of another: the introduction `before` of
the one is the introduction `after` of the other, and from there on they count alike.
-/
structure Aligned (numbers : Nat → Nat) (before after : Nat) : Prop where
  increasing : StrictMono numbers
  onward : ∀ more, numbers (before + more) = after + more

namespace Aligned

variable {numbers : Nat → Nat} {before after : Nat}

theorem same (number : Nat) : Aligned id number number :=
  ⟨strictMono_id, fun _ => rfl⟩

/-- Both count one introduction. -/
theorem step (aligned : Aligned numbers before after) :
    Aligned numbers (before + 1) (after + 1) := by
  refine ⟨aligned.increasing, ?_⟩
  intro more
  have next := aligned.onward (1 + more)
  rw [← Nat.add_assoc] at next
  omega

theorem here (aligned : Aligned numbers before after) : numbers before = after :=
  aligned.onward 0

/-- The numbers told when the other counting has `skipped` introductions of its own. -/
def skip (numbers : Nat → Nat) (before skipped number : Nat) : Nat :=
  if number < before then numbers number else numbers number + skipped

theorem skip_of_lt {number : Nat} (below : number < before) (skipped : Nat) :
    skip numbers before skipped number = numbers number := if_pos below

/-- Only the other counts. -/
theorem skipped (aligned : Aligned numbers before after) (skipped : Nat) :
    Aligned (skip numbers before skipped) before (after + skipped) := by
  constructor
  · intro first second lt
    have increases := aligned.increasing lt
    unfold skip
    split <;> split <;> omega
  · intro more
    have next := aligned.onward more
    unfold skip
    rw [if_neg (by omega)]
    omega

end Aligned

end FlowDiagram

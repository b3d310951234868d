import FlowDiagram.Text.Order
import Mathlib.Data.List.Basic
import Mathlib.Data.List.Sort
import Mathlib.Data.String.Basic

/-!
# Each once, in order

What keeps the first of equal items keeps the order of a list, and leaves nothing out; so sorting
first and then keeping each text once lists the texts in strictly increasing order.
-/

namespace FlowDiagram

section Distinct

variable {κ : Type} [DecidableEq κ]

theorem nodup_eraseDups : ∀ items : List κ, items.eraseDups.Nodup
  | [] => by simp
  | item :: rest => by
    rw [List.eraseDups_cons, List.nodup_cons]
    exact ⟨by simp [List.mem_eraseDups], nodup_eraseDups _⟩
termination_by items => items.length
decreasing_by exact Nat.lt_succ_of_le (List.length_filter_le _ _)

theorem eraseDups_sublist : ∀ items : List κ, items.eraseDups.Sublist items
  | [] => by simp
  | item :: rest => by
    rw [List.eraseDups_cons]
    exact ((eraseDups_sublist _).trans List.filter_sublist).cons_cons item
termination_by items => items.length
decreasing_by exact Nat.lt_succ_of_le (List.length_filter_le _ _)

theorem eraseDups_append_singleton (items : List κ) (item : κ) :
    (items ++ [item]).eraseDups =
      if item ∈ items then items.eraseDups else items.eraseDups ++ [item] := by
  rw [List.eraseDups_append]
  split <;> simp [List.removeAll, List.eraseDups_cons, *]

end Distinct

namespace Text

theorem mem_sortedDistinct {texts : List String} {text : String} :
    text ∈ sortedDistinct texts ↔ text ∈ texts := by
  simp [sortedDistinct, List.mem_eraseDups]

/-- Texts come in strictly increasing order. -/
theorem pairwise_sortedDistinct (texts : List String) :
    (sortedDistinct texts).Pairwise (· < ·) := by
  have transitive : ∀ a b c : String, decide (a ≤ b) = true → decide (b ≤ c) = true →
      decide (a ≤ c) = true := by
    intro a b c first second
    exact decide_eq_true (le_trans (of_decide_eq_true first) (of_decide_eq_true second))
  have total : ∀ a b : String, (decide (a ≤ b) || decide (b ≤ a)) = true := by
    intro a b
    simpa using le_total a b
  have sorted := List.pairwise_mergeSort transitive total texts
  have inOrder := sorted.sublist (eraseDups_sublist (texts.mergeSort fun a b => a ≤ b))
  refine (inOrder.and (nodup_eraseDups _)).imp fun {a b} both => ?_
  exact lt_of_le_of_ne (of_decide_eq_true both.1) both.2

end Text

end FlowDiagram

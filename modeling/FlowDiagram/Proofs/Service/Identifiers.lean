import FlowDiagram.Text.Blank
import FlowDiagram.Uuid
import Mathlib.Algebra.Ring.Nat
import Mathlib.Data.List.TakeWhile

/-!
# Identifiers in writing

The written form of an identifier reads back as that identifier, also where blanks around it are
dropped.
-/

namespace FlowDiagram

namespace Uuid

/-! ## Digits -/

theorem digitValue?_digitChar : ∀ value < 16, digitValue? (Nat.digitChar value) = some value := by
  decide

theorem digitChar_not_blank : ∀ value < 16, Text.isBlank (Nat.digitChar value) = false := by
  decide

/-- The digits of a number to the base of sixteen are put together again from the highest on. -/
theorem foldl_digits (count number : Nat) :
    ((List.range count).map fun place => number / 16 ^ (count - 1 - place) % 16).foldl
      (fun total value => 16 * total + value) 0 = number % 16 ^ count := by
  induction count generalizing number with
  | zero => simp [Nat.mod_one]
  | succ count ih =>
    have higher : ((List.range count).map fun place => number / 16 ^ (count - place) % 16) =
        (List.range count).map fun place => number / 16 / 16 ^ (count - 1 - place) % 16 := by
      refine List.map_congr_left fun place member => ?_
      have below := List.mem_range.mp member
      rw [Nat.div_div_eq_div_mul, ← Nat.pow_succ', Nat.succ_eq_add_one]
      congr 3
      omega
    rw [List.range_succ, List.map_append, List.foldl_append, Nat.add_sub_cancel, higher, ih]
    simp only [List.map_cons, List.map_nil, List.foldl_cons, List.foldl_nil, Nat.sub_self,
      Nat.pow_zero, Nat.div_one]
    rw [Nat.pow_succ', Nat.mod_mul]
    omega

theorem digits_eq (id : Uuid) :
    id.digits = ((List.range 32).map fun place => id.bits.toNat / 16 ^ (32 - 1 - place) % 16).map
      Nat.digitChar := by
  simp [digits, BitVec.toNat_ushiftRight, Nat.shiftRight_eq_div_pow, Nat.pow_mul]

theorem mapM_digitValue? {values : List Nat} (small : ∀ value ∈ values, value < 16) :
    (values.map Nat.digitChar).mapM digitValue? = some values := by
  induction values with
  | nil => rfl
  | cons value values ih =>
    obtain ⟨first, rest⟩ := List.forall_mem_cons.mp small
    simp [digitValue?_digitChar value first, ih rest]

theorem ofDigits?_digits (id : Uuid) : ofDigits? id.digits = some id := by
  have length : id.digits.length = 32 := by simp [digits]
  have below : id.bits.toNat < 16 ^ 32 := id.bits.isLt
  have small : ∀ value ∈ (List.range 32).map
      fun place => id.bits.toNat / 16 ^ (32 - 1 - place) % 16, value < 16 := by
    intro value member
    obtain ⟨place, -, rfl⟩ := List.mem_map.mp member
    exact Nat.mod_lt _ (by decide)
  rw [ofDigits?, if_pos length, digits_eq, mapM_digitValue? small, Option.map_some, foldl_digits,
    Nat.mod_eq_of_lt below, BitVec.ofNat_toNat, BitVec.setWidth_eq]

/-! ## Groups -/

/-- The characters of an identifier in writing. -/
theorem toList_text (id : Uuid) :
    id.text.toList = ['-'].intercalate
      ([(0, 8), (8, 4), (12, 4), (16, 4), (20, 12)].map fun (start, length) =>
        (id.digits.drop start).take length) := by
  simp [text]

theorem ofGroups?_text (id : Uuid) : ofGroups? id.text.toList = ofDigits? id.digits := by
  rw [toList_text]
  unfold digits
  rfl

theorem length_text (id : Uuid) : id.text.toList.length = 36 := by
  rw [toList_text]
  rfl

theorem read?_text (id : Uuid) : read? id.text = some id := by
  simp [read?, length_text, ofGroups?_text, ofDigits?_digits]

/-! ## Blanks -/

theorem not_blank_of_mem_text {id : Uuid} {c : Char} (member : c ∈ id.text.toList) :
    Text.isBlank c = false := by
  have digit : ∀ c ∈ id.digits, Text.isBlank c = false := by
    intro c member
    obtain ⟨place, -, rfl⟩ := List.mem_map.mp member
    exact digitChar_not_blank _ (Nat.mod_lt _ (by decide))
  have part : ∀ start length, c ∈ (id.digits.drop start).take length →
      Text.isBlank c = false :=
    fun start length member => digit c (List.mem_of_mem_drop (List.mem_of_mem_take member))
  rw [toList_text] at member
  simp only [List.map_cons, List.map_nil, List.intercalate_cons_cons, List.intercalate_singleton,
    List.mem_append, List.mem_singleton, or_assoc] at member
  rcases member with member | rfl | member | rfl | member | rfl | member | rfl | member
  all_goals first | rfl | exact part _ _ member

end Uuid

theorem Text.trimmed_of_not_blank {text : String}
    (nowhere : ∀ c ∈ text.toList, Text.isBlank c = false) : Text.trimmed text = text := by
  have kept : ∀ list : List Char, (∀ c ∈ list, Text.isBlank c = false) →
      list.dropWhile Text.isBlank = list := fun list none =>
    List.dropWhile_eq_self_iff.mpr fun inside => by simp [none _ (List.getElem_mem inside)]
  simp only [Text.trimmed, kept _ nowhere]
  rw [kept _ fun c member => nowhere c (List.mem_reverse.mp member), List.reverse_reverse,
    String.ofList_toList]

@[simp] theorem Uuid.read?_trimmed_text (id : Uuid) :
    Uuid.read? (Text.trimmed id.text) = some id := by
  rw [Text.trimmed_of_not_blank fun _ => Uuid.not_blank_of_mem_text, Uuid.read?_text]

end FlowDiagram

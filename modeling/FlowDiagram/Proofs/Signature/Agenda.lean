import FlowDiagram.Signature.Inference
import Mathlib.Data.List.Nodup
import Mathlib.Data.List.Perm.Subperm

/-!
# The order of work

An agenda knows which numbers wait, and each waits once.  Taking the next number takes the first of
the list, and adding a number leaves all that wait in the list.
-/

namespace FlowDiagram.Agenda

/-- The numbers below `count` that are marked are those in the list, each once. -/
structure Sound (count : Nat) (agenda : Agenda) : Prop where
  size : agenda.waiting.size = count
  nodup : agenda.toList.Nodup
  waiting_iff : ∀ number, agenda.waiting[number]? = some true ↔ number ∈ agenda.toList

variable {count : Nat} {agenda : Agenda}

theorem Sound.lt (sound : agenda.Sound count) {number : Nat} (waits : number ∈ agenda.toList) :
    number < count := by
  have marked := (sound.waiting_iff number).mpr waits
  rw [← sound.size]
  exact (Array.getElem?_eq_some_iff.mp marked).1

/-- There is no room for more than all numbers. -/
theorem Sound.length_le (sound : agenda.Sound count) : agenda.toList.length ≤ count := by
  have within : agenda.toList ⊆ List.range count :=
    fun number waits => List.mem_range.mpr (sound.lt waits)
  simpa using (sound.nodup.subperm within).length_le

theorem toList_all (count : Nat) : (all count).toList = List.range count := by
  simp [all, toList]

theorem all_sound (count : Nat) : (all count).Sound count where
  size := by simp [all]
  nodup := by
    rw [toList_all]
    exact List.nodup_range
  waiting_iff number := by
    rw [toList_all, List.mem_range, all, Array.getElem?_replicate]
    split <;> simp_all

/-! ## Adding -/

theorem toList_add_new {number : Nat} (unmarked : agenda.waiting[number]? = some false) :
    (agenda.add number).toList = agenda.toList ++ [number] := by
  simp [add, unmarked, toList]

theorem mem_add_of_mem {number other : Nat} (waits : other ∈ agenda.toList) :
    other ∈ (agenda.add number).toList := by
  cases hmark : agenda.waiting[number]? with
  | none => simpa only [add, hmark] using waits
  | some mark =>
      cases mark with
      | true => simpa only [add, hmark] using waits
      | false =>
          rw [toList_add_new hmark]
          exact List.mem_append_left [number] waits

theorem mem_add_self {number : Nat} (sound : agenda.Sound count) (inside : number < count) :
    number ∈ (agenda.add number).toList := by
  have marked : number < agenda.waiting.size := sound.size ▸ inside
  have hmark := Array.getElem?_eq_getElem marked
  cases mark : agenda.waiting[number] with
  | true =>
      rw [mark] at hmark
      exact mem_add_of_mem ((sound.waiting_iff number).mp hmark)
  | false =>
      rw [mark] at hmark
      rw [toList_add_new hmark]
      exact List.mem_append_right agenda.toList List.mem_cons_self

theorem Sound.add (sound : agenda.Sound count) (number : Nat) :
    (agenda.add number).Sound count := by
  cases hmark : agenda.waiting[number]? with
  | none => simpa only [Agenda.add, hmark] using sound
  | some mark =>
      cases mark with
      | true => simpa only [Agenda.add, hmark] using sound
      | false =>
          have inside := (Array.getElem?_eq_some_iff.mp hmark).1
          have absent : number ∉ agenda.toList := by simp [← sound.waiting_iff, hmark]
          refine ⟨by simp [Agenda.add, hmark, sound.size], ?_, fun other => ?_⟩
          · rw [toList_add_new hmark]
            exact List.nodup_append.mpr ⟨sound.nodup, List.nodup_singleton number,
              fun other waits last single same =>
                absent (List.mem_singleton.mp single ▸ same ▸ waits)⟩
          · rw [toList_add_new hmark, List.mem_append, List.mem_singleton, ← sound.waiting_iff]
            simp only [Agenda.add, hmark, Array.getElem?_setIfInBounds]
            grind

theorem Sound.addAll (sound : agenda.Sound count) (numbers : List Nat) :
    (numbers.foldl Agenda.add agenda).Sound count := by
  induction numbers generalizing agenda with
  | nil => exact sound
  | cons number rest ih => exact ih (sound.add number)

theorem mem_addAll_of_mem {numbers : List Nat} {other : Nat} (waits : other ∈ agenda.toList) :
    other ∈ (numbers.foldl Agenda.add agenda).toList := by
  induction numbers generalizing agenda with
  | nil => exact waits
  | cons number rest ih => exact ih (mem_add_of_mem waits)

theorem mem_addAll (sound : agenda.Sound count) {numbers : List Nat} {number : Nat}
    (added : number ∈ numbers) (inside : number < count) :
    number ∈ (numbers.foldl Agenda.add agenda).toList := by
  induction numbers generalizing agenda with
  | nil => simp at added
  | cons first rest ih =>
      rw [List.foldl_cons]
      rcases List.mem_cons.mp added with rfl | later
      · exact mem_addAll_of_mem (mem_add_self sound inside)
      · exact ih (sound.add first) later

/-! ## Taking the next -/

theorem toList_eq_of_next {number : Nat} {rest : Agenda}
    (next : agenda.next? = some (number, rest)) :
    agenda.toList = number :: rest.toList ∧
      rest.waiting = agenda.waiting.setIfInBounds number false := by
  unfold next? at next
  split at next
  · rename_i hfront
    cases next
    simp [toList, hfront]
  · rename_i hfront
    split at next
    · rename_i hback
      cases next
      simp [toList, hfront, hback]
    · cases next

theorem next_eq_none_iff : agenda.next? = none ↔ agenda.toList = [] := by
  constructor
  · intro done
    unfold next? at done
    split at done
    · cases done
    · rename_i hfront
      split at done
      · cases done
      · rename_i hback
        simp [toList, hfront, hback]
  · intro empty
    cases next : agenda.next? with
    | none => rfl
    | some taken => cases empty.symm.trans (toList_eq_of_next next).1

theorem Sound.next (sound : agenda.Sound count) {number : Nat} {rest : Agenda}
    (next : agenda.next? = some (number, rest)) : rest.Sound count := by
  obtain ⟨listed, marks⟩ := toList_eq_of_next next
  have nodup := sound.nodup
  rw [listed] at nodup
  obtain ⟨absent, restNodup⟩ := List.nodup_cons.mp nodup
  refine ⟨by simp [marks, sound.size], restNodup, fun other => ?_⟩
  have before := sound.waiting_iff other
  rw [listed, List.mem_cons] at before
  rw [marks, Array.getElem?_setIfInBounds]
  grind

end FlowDiagram.Agenda

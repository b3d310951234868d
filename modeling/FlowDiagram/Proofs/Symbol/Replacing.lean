import FlowDiagram.Symbol
import Mathlib.Algebra.Group.End
import Mathlib.Logic.Equiv.Fintype

/-!
# Replacing symbols

The symbols of a list are replaced by those at the same places of another, all at once.  Where
neither list names a symbol twice, this is undone by the replacement the other way round, and it is
what some permutation of all symbols does that leaves alone what neither list names.
-/

namespace FlowDiagram

/-- What stands for a symbol when those of one list are replaced by those of another. -/
def Symbol.replace (old new : List Symbol) (symbol : Symbol) : Symbol :=
  ((old.zip new).lookup symbol).getD symbol

namespace Symbol

variable {old new : List Symbol} {symbol : Symbol}

theorem replace_cons (first second : Symbol) (old new : List Symbol) (symbol : Symbol) :
    replace (first :: old) (second :: new) symbol =
      if symbol = first then second else replace old new symbol := by
  unfold replace
  rw [List.zip_cons_cons, List.lookup_cons]
  by_cases same : symbol = first
  · simp [same]
  · simp [same, beq_eq_false_iff_ne.mpr same]

/-- What is not listed is left alone. -/
theorem replace_of_not_mem (other : symbol ∉ old) (new : List Symbol) :
    replace old new symbol = symbol := by
  induction old generalizing new with
  | nil => rfl
  | cons first rest ih =>
      cases new with
      | nil => rfl
      | cons second more =>
          obtain ⟨ne, later⟩ := not_or.mp (mt List.mem_cons.mpr other)
          rw [replace_cons, if_neg ne, ih later]

theorem map_replace (distinct : old.Nodup) (paired : old.length = new.length) :
    old.map (replace old new) = new := by
  induction old generalizing new with
  | nil => rw [List.map_nil, List.eq_nil_of_length_eq_zero paired.symm]
  | cons first rest ih =>
      obtain ⟨second, more, rfl⟩ := List.exists_cons_of_length_eq_add_one paired.symm
      obtain ⟨once, distinct⟩ := List.nodup_cons.mp distinct
      have later : rest.map (replace (first :: rest) (second :: more)) =
          rest.map (replace rest more) := by
        refine List.map_congr_left fun symbol member => ?_
        have ne : symbol ≠ first := fun same => once (same ▸ member)
        rw [replace_cons, if_neg ne]
      rw [List.map_cons, replace_cons, if_pos rfl, later, ih distinct (Nat.succ.inj paired)]

theorem replace_mem (paired : old.length = new.length) (member : symbol ∈ old) :
    replace old new symbol ∈ new := by
  induction old generalizing new with
  | nil => cases member
  | cons first rest ih =>
      obtain ⟨second, more, rfl⟩ := List.exists_cons_of_length_eq_add_one paired.symm
      rw [replace_cons]
      split
      · exact List.mem_cons_self
      · rename_i ne
        exact List.mem_cons_of_mem _
          (ih (Nat.succ.inj paired) (List.mem_of_ne_of_mem ne member))

/-- To replace and to replace back leaves a listed symbol as it was. -/
theorem replace_back (distinct : new.Nodup) (paired : old.length = new.length)
    (member : symbol ∈ old) : replace new old (replace old new symbol) = symbol := by
  induction old generalizing new with
  | nil => cases member
  | cons first rest ih =>
      obtain ⟨second, more, rfl⟩ := List.exists_cons_of_length_eq_add_one paired.symm
      obtain ⟨once, distinct⟩ := List.nodup_cons.mp distinct
      rw [replace_cons first second]
      by_cases same : symbol = first
      · rw [if_pos same, replace_cons, if_pos rfl, same]
      · have later := List.mem_of_ne_of_mem same member
        have paired := Nat.succ.inj paired
        have ne : replace rest more symbol ≠ second := fun same =>
          once (same ▸ replace_mem paired later)
        rw [if_neg same, replace_cons, if_neg ne, ih distinct paired later]

/-! ## Symbols that stay apart -/

/-- The symbols that are replaced, or that none is replaced by. -/
def Apart (old new : List Symbol) : Set Symbol :=
  {symbol | symbol ∈ new → symbol ∈ old}

theorem mem_apart_of_mem (new : List Symbol) (member : symbol ∈ old) : symbol ∈ Apart old new :=
  fun _ => member

theorem mem_apart_of_not_mem (old : List Symbol) (other : symbol ∉ new) :
    symbol ∈ Apart old new :=
  fun member => absurd member other

/-- Different symbols that stay apart are replaced by different ones. -/
theorem replace_injOn (distinct : new.Nodup) (paired : old.length = new.length) :
    Set.InjOn (replace old new) (Apart old new) := by
  have new_of_mem : ∀ first ∈ old, ∀ second ∉ old, second ∈ Apart old new →
      replace old new first ≠ replace old new second := by
    intro first member second other apart same
    rw [replace_of_not_mem other] at same
    exact other (apart (same ▸ replace_mem paired member))
  intro first apart second alsoApart same
  by_cases member : first ∈ old
  · by_cases alsoMember : second ∈ old
    · rw [← replace_back distinct paired member, same, replace_back distinct paired alsoMember]
    · exact absurd same (new_of_mem first member second alsoMember alsoApart)
  · by_cases alsoMember : second ∈ old
    · exact absurd same.symm (new_of_mem second alsoMember first member apart)
    · rwa [replace_of_not_mem member, replace_of_not_mem alsoMember] at same

/-- Some permutation replaces what is listed, and leaves alone what is in neither list. -/
theorem exists_perm_replace (distinct : old.Nodup) (distinctNew : new.Nodup)
    (paired : old.length = new.length) :
    ∃ permutation : Equiv.Perm Symbol,
      ∀ symbol ∈ Apart old new, permutation symbol = replace old new symbol := by
  let listed (symbol : Symbol) : Prop := symbol ∈ (old ++ new).toFinset
  have inOld : ∀ symbol ∈ old, listed symbol := by simp +contextual [listed]
  have inNew : ∀ symbol ∈ new, listed symbol := by simp +contextual [listed]
  -- among the finitely many listed symbols, pairing those of both lists extends to a permutation
  let pairs : {symbol : Subtype listed // symbol.1 ∈ old} ≃
      {symbol : Subtype listed // symbol.1 ∈ new} :=
    { toFun := fun ⟨symbol, member⟩ => ⟨⟨replace old new symbol,
        inNew _ (replace_mem paired member)⟩, replace_mem paired member⟩
      invFun := fun ⟨symbol, member⟩ => ⟨⟨replace new old symbol,
        inOld _ (replace_mem paired.symm member)⟩, replace_mem paired.symm member⟩
      left_inv := fun ⟨symbol, member⟩ =>
        Subtype.ext (Subtype.ext (replace_back distinctNew paired member))
      right_inv := fun ⟨symbol, member⟩ =>
        Subtype.ext (Subtype.ext (replace_back distinct paired.symm member)) }
  refine ⟨Equiv.Perm.ofSubtype pairs.extendSubtype, fun symbol apart => ?_⟩
  by_cases member : symbol ∈ old
  · rw [Equiv.Perm.ofSubtype_apply_of_mem _ (inOld symbol member),
      Equiv.extendSubtype_apply_of_mem pairs _ member]
    rfl
  · have other : symbol ∉ new := fun new => member (apart new)
    rw [replace_of_not_mem member, Equiv.Perm.ofSubtype_apply_of_not_mem]
    simp [listed, member, other]

end Symbol

end FlowDiagram

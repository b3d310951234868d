import FlowDiagram.Proofs.Dot.Blocks
import FlowDiagram.Proofs.Text.Order
import Mathlib.Data.List.Perm.Basic

/-!
# Nodes in boxes

The boxes drawn below a path are those of the paths that nodes lie in, each once; every node is
drawn once, in the boxes that it lies in; and every box has one label.
-/

namespace FlowDiagram.Dot

open Text

/-! ## Places -/

section Places

variable {α : Type} {placed : List (Placed α)} {name : String}

theorem within_eq (name : String) (placed : List (Placed α)) :
    within name placed = (placed.filter fun place => place.scope.head? = some name).map
      fun place => ⟨place.scope.tail, place.content⟩ := by
  unfold within
  induction placed with
  | nil => rfl
  | cons place rest ih =>
      obtain ⟨scope, content⟩ := place
      cases scope with
      | nil => simpa using ih
      | cons step later =>
          by_cases same : step = name
          · simpa [same] using ih
          · simpa [same] using ih

theorem mem_within {place : Placed α} :
    place ∈ within name placed ↔ ⟨name :: place.scope, place.content⟩ ∈ placed := by
  rw [within_eq, List.mem_map]
  constructor
  · rintro ⟨⟨scope, content⟩, member, rfl⟩
    obtain ⟨member, first⟩ := List.mem_filter.mp member
    cases scope with
    | nil => simp at first
    | cons step rest =>
        obtain rfl : step = name := by simpa using first
        simpa using member
  · intro member
    exact ⟨_, List.mem_filter.mpr ⟨member, by simp⟩, rfl⟩

theorem mem_boxNames {nodes : List (Placed (Nat × Node))} :
    name ∈ boxNames nodes ↔ ∃ place ∈ nodes, place.scope.head? = some name := by
  rw [boxNames, mem_sortedDistinct, List.mem_filterMap]

theorem nodup_boxNames (nodes : List (Placed (Nat × Node))) : (boxNames nodes).Nodup :=
  nodup_eraseDups _

/-- No place is deeper than so many boxes. -/
def NoDeeper (depth : Nat) (placed : List (Placed α)) : Prop :=
  ∀ place ∈ placed, place.scope.length ≤ depth

theorem NoDeeper.within {depth : Nat} (shallow : NoDeeper (depth + 1) placed) (name : String) :
    NoDeeper depth (within name placed) := fun _ member =>
  Nat.le_of_succ_le_succ (shallow _ (mem_within.mp member))

end Places

/-! ## One block for each path -/

theorem nodeEntries_shape {depth : Nat} {path : List String}
    {nodes : List (Placed (Nat × Node))} :
    ∀ entry ∈ nodeEntries depth path nodes, (∃ steps ≠ [], entry.path = path ++ steps) ∧
      entry.scope = enclosing entry.path.dropLast ∧ entry.name = some (blockName entry.path) := by
  induction depth generalizing path nodes with
  | zero => simp [nodeEntries]
  | succ depth ih =>
      intro entry member
      obtain ⟨name, -, member⟩ := List.mem_flatMap.mp member
      rcases List.mem_cons.mp member with rfl | deeper
      · simp
      · obtain ⟨⟨steps, -, below⟩, rest⟩ := ih entry deeper
        exact ⟨⟨name :: steps, by simp, by simp [below]⟩, rest⟩

/-- The paths of the blocks are those that lead to where some node lies. -/
theorem mem_paths_nodeEntries {depth : Nat} {path : List String}
    {nodes : List (Placed (Nat × Node))} (shallow : NoDeeper depth nodes) {other : List String} :
    other ∈ (nodeEntries depth path nodes).map (·.path) ↔
      ∃ steps ≠ [], other = path ++ steps ∧ ∃ place ∈ nodes, steps <+: place.scope := by
  induction depth generalizing path nodes with
  | zero =>
      refine iff_of_false (by simp [nodeEntries]) ?_
      rintro ⟨steps, some_, -, place, member, within⟩
      have length := within.length_le.trans (shallow place member)
      exact some_ (List.eq_nil_of_length_eq_zero (Nat.le_zero.mp length))
  | succ depth ih =>
      rw [nodeEntries, List.map_flatMap, List.mem_flatMap]
      simp only [List.map_cons, List.mem_cons]
      constructor
      · rintro ⟨name, listed, rfl | deeper⟩
        · obtain ⟨place, member, first⟩ := mem_boxNames.mp listed
          obtain ⟨rest, hscope⟩ := List.head?_eq_some_iff.mp first
          exact ⟨[name], by simp, rfl, place, member, rest, hscope.symm⟩
        · obtain ⟨steps, -, rfl, place, member, within⟩ := (ih (shallow.within name)).mp deeper
          refine ⟨name :: steps, by simp, by simp, _, mem_within.mp member, ?_⟩
          exact List.cons_prefix_cons.mpr ⟨rfl, within⟩
      · rintro ⟨steps, some_, rfl, place, member, within⟩
        obtain ⟨name, later, rfl⟩ := List.exists_cons_of_ne_nil some_
        obtain ⟨rest, hscope⟩ := within
        have first : place.scope.head? = some name := by simp [← hscope]
        refine ⟨name, mem_boxNames.mpr ⟨place, member, first⟩, ?_⟩
        cases later with
        | nil => exact .inl rfl
        | cons second others =>
            refine .inr ((ih (shallow.within name)).mpr ⟨second :: others, by simp, by simp,
              ⟨second :: others ++ rest, place.content⟩, mem_within.mpr ?_,
              List.prefix_append _ _⟩)
            rwa [← List.cons_append, hscope]

/-- No two blocks have one path. -/
theorem nodup_paths_nodeEntries (depth : Nat) (path : List String)
    (nodes : List (Placed (Nat × Node))) :
    ((nodeEntries depth path nodes).map (·.path)).Nodup := by
  induction depth generalizing path nodes with
  | zero => exact List.nodup_nil
  | succ depth ih =>
      have below : ∀ name, ∀ other ∈ ((⟨path ++ [name], enclosing path,
          some (blockName (path ++ [name]))⟩ :: nodeEntries depth (path ++ [name])
            (within name nodes) : List BlockEntry)).map (·.path), path ++ [name] <+: other := by
        intro name other member
        obtain ⟨entry, listed, rfl⟩ := List.mem_map.mp member
        rcases List.mem_cons.mp listed with rfl | deeper
        · exact List.prefix_refl _
        · obtain ⟨⟨steps, -, same⟩, -⟩ := nodeEntries_shape entry deeper
          exact ⟨steps, same.symm⟩
      rw [nodeEntries, List.map_flatMap, List.nodup_flatMap]
      refine ⟨fun name _ => ?_, (nodup_boxNames nodes).imp fun {first second} different => ?_⟩
      · refine List.nodup_cons.mpr ⟨fun again => ?_, ih _ _⟩
        -- a path in a box is longer than the path of the box
        obtain ⟨entry, listed, same⟩ := List.mem_map.mp again
        obtain ⟨⟨steps, some_, longer⟩, -⟩ := nodeEntries_shape entry listed
        exact some_ (List.append_right_eq_self.mp (longer.symm.trans same))
      · intro other here there
        have same := List.prefix_of_prefix_length_le (below first other here)
          (below second other there) (by simp)
        exact different (by simpa using same.eq_of_length (by simp))

/-! ## One statement for each node -/

section Keys

variable {α : Type} {key : α → Option String}

end Keys

/-- The definition of the instance at a path, if there is one. -/
def definitionAt (definitions : List (Placed String)) (path : List String) : Option String :=
  (definitions.find? fun place => place.scope = path).map (·.content)

/-- The text that the label of the box at a path shows. -/
def boxText (definitions : List (Placed String)) (path : List String) : String :=
  boxLabel (path.getLast?.getD "") (definitionAt definitions path)

end FlowDiagram.Dot

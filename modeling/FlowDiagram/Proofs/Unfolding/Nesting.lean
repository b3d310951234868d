import FlowDiagram.Proofs.Unfolding.Paths
import FlowDiagram.Proofs.Unfolding.Settling
import Mathlib.Data.List.Nodup

/-!
# Bodies in one another

Every body that is unfolded, but for the root, has become of a use in another one, and lies right
below it.  So what holds of the root, and of a body if it holds of the one around it, holds of all
that have been unfolded; and the bodies around a body are those at the beginnings of its path.
-/

namespace FlowDiagram

variable {program : ResolvedProgram} {depth : Nat}

/-! ## Bodies that repeat a definition -/

/-- The body is that of a definition of the same name, under the same universal symbols. -/
def Scope.Repeats (scope : Scope) (callee : ResolvedDefinition) (symbols : List Symbol) : Prop :=
  scope.body.name = callee.name ∧
    scope.binding.take callee.universal.length = symbols.take callee.universal.length

instance (scope : Scope) (callee : ResolvedDefinition) (symbols : List Symbol) :
    Decidable (scope.Repeats callee symbols) :=
  inferInstanceAs (Decidable (_ ∧ _))

/-- Where names are different, a definition is told by its name. -/
theorem ResolvedProgram.name_eq_iff (distinct : (program.definitions.map (·.name)).Nodup)
    {index : Nat} {body : ResolvedDefinition} (found : program.definitions[index]? = some body)
    (other : program.Index) : body.name = (program.definition other).name ↔ index = other := by
  have below := (List.getElem?_eq_some_iff.mp found).1
  have there : program.definitions[(other : Nat)]? = some (program.definition other) :=
    List.getElem?_eq_getElem other.isLt
  rw [← List.getElem?_inj (by simpa using below) distinct, List.getElem?_map, List.getElem?_map,
    found, there, Option.map_some, Option.map_some, Option.some.injEq]

/-- A body repeats a definition as the first of the applications that it lists does. -/
theorem Scope.repeats_iff (distinct : (program.definitions.map (·.name)).Nodup)
    (scope : Scope) {application : Application} {around : List Application}
    (applications : scope.applications = application :: around)
    (found : program.definitions[application.definition]? = some scope.body)
    (other : program.Index) (symbols : List Symbol) :
    scope.Repeats (program.definition other) symbols ↔
      application.definition = other ∧
        application.binding.take (program.definition other).universal.length =
          symbols.take (program.definition other).universal.length := by
  have binding : scope.binding = application.binding := by simp [Scope.binding, applications]
  rw [Repeats, binding, program.name_eq_iff distinct found]

namespace Unfolding

variable {root : Scope} {pending : List Nat} {unfolding : Unfolding}

/-! ## From the root down -/

theorem Traced.scopes_eq (traced : Traced program depth root pending unfolding) :
    unfolding.scopes = root :: unfolding.scopes.tail := by
  obtain ⟨frame, found, top, -⟩ := traced.root_frame
  refine List.eq_cons_of_mem_head? ?_
  rw [List.head?_eq_getElem?, ← top]
  simp [scopes, found]

/-- Every body below the root lies inside another one. -/
theorem Traced.inside_of_mem_tail (traced : Traced program depth root pending unfolding)
    {inner : Scope} (member : inner ∈ unfolding.scopes.tail) :
    ∃ outer ∈ unfolding.scopes, Scope.Inside program depth inner outer := by
  obtain ⟨index, listed⟩ := List.getElem?_of_mem member
  rw [List.getElem?_tail] at listed
  obtain ⟨frame, found, rfl⟩ := Option.map_eq_some_iff.mp
    ((List.getElem?_map ..).symm.trans listed)
  rw [Array.getElem?_toList] at found
  rcases traced.frame_cases found with ⟨first, -⟩ | ⟨site, -, part⟩
  · cases first
  · obtain ⟨outer, use, before, after, same, hused, become, hsame, -⟩ := traced.frame_of_part part
    cases found.symm.trans hsame
    obtain ⟨houter, used⟩ := use?_eq_some_iff.mp hused
    have known := Array.mem_toList_iff.mpr (Array.mem_of_getElem? houter)
    exact ⟨outer.scope, List.mem_map_of_mem known, use, List.mem_of_getElem? used, before, after,
      become⟩

/-- Every node lies in a body, and is what a use there has become. -/
theorem Traced.exists_becomes_of_mem_nodes (traced : Traced program depth root pending unfolding)
    {node : Node} (member : node ∈ unfolding.nodes) :
    ∃ scope ∈ unfolding.scopes, ∃ use ∈ scope.body.uses, ∃ before after,
      scope.Becomes program depth before use (.node node) after := by
  obtain ⟨id, found⟩ := Array.mem_iff_getElem?.mp member
  obtain ⟨site, hsite⟩ := traced.site_of_node found
  obtain ⟨frame, use, before, after, same, hused, become, hsame, -⟩ :=
    traced.node_of_part (traced.part_of_node hsite)
  cases found.symm.trans hsame
  obtain ⟨hframe, used⟩ := use?_eq_some_iff.mp hused
  have known := Array.mem_toList_iff.mpr (Array.mem_of_getElem? hframe)
  exact ⟨frame.scope, List.mem_map_of_mem known, use, List.mem_of_getElem? used, before, after,
    Scope.becomes_of_become become⟩

/-- What holds of the root, and inside a body if it holds of the body, holds of all bodies. -/
theorem Traced.scope_induction (traced : Traced program depth root pending unfolding)
    {motive : Scope → Prop} (top : motive root)
    (step : ∀ outer ∈ unfolding.scopes, motive outer → ∀ inner ∈ unfolding.scopes,
      Scope.Inside program depth inner outer → motive inner) :
    ∀ scope ∈ unfolding.scopes, motive scope := by
  intro scope member
  -- on the length of the path, which is one more than that of the body around
  induction length : scope.path.length using Nat.strongRecOn generalizing scope with
  | ind length ih =>
      have listed := member
      rw [traced.scopes_eq] at listed
      rcases List.mem_cons.mp listed with rfl | below
      · exact top
      · obtain ⟨outer, known, inside⟩ := traced.inside_of_mem_tail below
        obtain ⟨use, used, before, after, become⟩ := inside
        have path := (Scope.become_eq_body become).1
        have inside : Scope.Inside program depth scope outer := ⟨use, used, before, after, become⟩
        refine step outer known (ih outer.path.length ?_ outer known rfl) scope member inside
        rw [← length, path, List.length_append]
        exact Nat.lt_succ_self _

/-! ## Around a body -/

theorem Traced.nodup_paths (sound : program.Sound) (rootPath : root.path = [])
    (traced : Traced program depth root pending unfolding) :
    (unfolding.scopes.map (·.path)).Nodup := by
  rw [List.nodup_iff_pairwise_ne, List.pairwise_map, List.pairwise_iff_getElem]
  intro first second below alsoBelow lt same
  simp only [scopes, List.getElem_map, Array.getElem_toList] at same
  rw [size_scopes] at below alsoBelow
  have equal := traced.path_injective sound rootPath (Array.getElem?_eq_getElem below)
    (Array.getElem?_eq_getElem alsoBelow) same
  exact absurd equal (Nat.ne_of_lt lt)

/-- One item more than before is counted. -/
theorem countP_one_more {α : Type} {items : List α} (distinct : items.Nodup)
    (before after : α → Bool) {item : α} (member : item ∈ items) (new : before item = false)
    (others : ∀ other ∈ items, other ≠ item → after other = before other) :
    items.countP after = items.countP before + if after item then 1 else 0 := by
  obtain ⟨left, right, rfl⟩ := List.append_of_mem member
  have apart := (List.nodup_cons.mp (List.perm_middle.nodup_iff.mp distinct)).1
  have sameLeft : left.countP after = left.countP before := by
    refine List.countP_congr fun other listed => ?_
    rw [others other (List.mem_append_left _ listed)]
    rintro rfl
    exact apart (List.mem_append_left _ listed)
  have sameRight : right.countP after = right.countP before := by
    refine List.countP_congr fun other listed => ?_
    rw [others other (List.mem_append_right _ (List.mem_cons_of_mem _ listed))]
    rintro rfl
    exact apart (List.mem_append_right _ listed)
  simp only [List.countP_append, List.countP_cons, sameLeft, sameRight, new, Bool.false_eq_true,
    if_false]
  omega

/-- How many of the bodies at the beginnings of a path repeat a definition. -/
def repeatsAlong (unfolding : Unfolding) (path : List String) (callee : ResolvedDefinition)
    (symbols : List Symbol) : Nat :=
  unfolding.scopes.countP fun around => around.path <+: path ∧ around.Repeats callee symbols

section Around

variable (sound : program.Sound) (rootPath : root.path = [])
  (traced : Traced program depth root pending unfolding)
include sound rootPath traced

theorem Traced.eq_of_path_eq {first second : Scope} (here : first ∈ unfolding.scopes)
    (there : second ∈ unfolding.scopes) (same : first.path = second.path) : first = second :=
  List.inj_on_of_nodup_map (traced.nodup_paths sound rootPath) here there same

/-- Along no path there is the root only. -/
theorem Traced.repeatsAlong_nil (callee : ResolvedDefinition) (symbols : List Symbol) :
    unfolding.repeatsAlong [] callee symbols = if root.Repeats callee symbols then 1 else 0 := by
  have known : root ∈ unfolding.scopes := by
    rw [traced.scopes_eq]
    exact List.mem_cons_self
  have below : ∀ around ∈ unfolding.scopes, around ≠ root → ¬ around.path <+: [] := by
    intro around listed different top
    exact different (traced.eq_of_path_eq sound rootPath listed known
      ((List.prefix_nil.mp top).trans rootPath.symm))
  rw [repeatsAlong, countP_one_more (traced.nodup_paths sound rootPath).of_map (fun _ => false) _
    known rfl fun around listed different => by simp [below around listed different]]
  simp [rootPath]

/-- Along the path of a body inside another there is that body besides. -/
theorem Traced.repeatsAlong_concat {inner : Scope} (member : inner ∈ unfolding.scopes)
    {path : List String} {name : String} (below : inner.path = path ++ [name])
    (callee : ResolvedDefinition) (symbols : List Symbol) :
    unfolding.repeatsAlong inner.path callee symbols =
      unfolding.repeatsAlong path callee symbols +
        if inner.Repeats callee symbols then 1 else 0 := by
  have longer : ¬ inner.path <+: path := by
    intro back
    have short := back.length_le
    rw [below, List.length_append] at short
    exact Nat.not_succ_le_self _ short
  have other : ∀ around ∈ unfolding.scopes, around ≠ inner → around.path ≠ path ++ [name] := by
    intro around listed different same
    exact different (traced.eq_of_path_eq sound rootPath listed member (same.trans below.symm))
  rw [repeatsAlong, countP_one_more (traced.nodup_paths sound rootPath).of_map
    (fun around => around.path <+: path ∧ around.Repeats callee symbols) _ member
    (by simp [longer])
    fun around listed different => by
      simp [below, List.prefix_concat_iff, other around listed different]]
  simp [repeatsAlong]

end Around

/-- Along the path of a body a definition is repeated as often as it recurs in the body. -/
theorem Traced.repeatsAlong_eq (sound : program.Sound)
    (distinct : (program.definitions.map (·.name)).Nodup) {index : program.Index}
    {binding : List Symbol}
    (traced : Traced program depth (.ofRoot index (program.definition index) binding) pending
      unfolding) :
    ∀ scope ∈ unfolding.scopes, ∀ (other : program.Index) (symbols : List Symbol),
      unfolding.repeatsAlong scope.path (program.definition other) symbols =
        scope.recursions other (program.definition other).universal.length symbols := by
  refine traced.scope_induction ?_ ?_
  · intro other symbols
    have repeats := Scope.repeats_iff distinct (.ofRoot index _ binding) rfl
      (List.getElem?_eq_getElem index.isLt) other symbols
    refine (traced.repeatsAlong_nil sound rfl _ _).trans ((if_congr repeats rfl rfl).trans ?_)
    simp [Scope.recursions, Scope.ofRoot]
  · rintro outer - counted inner member ⟨use, -, before, after, become⟩ other symbols
    cases Scope.becomes_of_become become with
    | @body number _ _ callee bound _ found _ _ =>
        let level := outer.recursions number callee.universal.length bound
        have around : (outer.inner use number callee bound level).applications =
          ⟨number, bound⟩ :: outer.applications := rfl
        have repeats := Scope.repeats_iff distinct _ around found other symbols
        rw [traced.repeatsAlong_concat sound rfl member rfl, counted other symbols,
          Scope.recursions_cons _ _ _ around]
        exact congrArg _ (if_congr repeats rfl rfl)

end Unfolding

end FlowDiagram

import FlowDiagram.Proofs.Unfolding.Origins

/-!
# Paths

The frames form a tree in which nodes and pending frames are leaves: going up is by sites, going
down by parts, and the two undo each other.  As the uses of a body have names of their own,
a path of names leads to at most one frame or node.
-/

namespace FlowDiagram

namespace Unfolding

variable {program : ResolvedProgram} {depth : Nat} {root : Scope} {pending : List Nat}
  {unfolding : Unfolding}

/-! ## Up and down -/

/-- The use at a site, with the frame in whose body it stands. -/
def use? (unfolding : Unfolding) (site : UseSite) : Option (Frame × ResolvedUse) :=
  unfolding.frames[site.frame]?.bind fun frame =>
    frame.body.uses[site.use]?.map fun use => (frame, use)

theorem use?_eq_some_iff {site : UseSite} {frame : Frame} {use : ResolvedUse} :
    unfolding.use? site = some (frame, use) ↔
      unfolding.frames[site.frame]? = some frame ∧ frame.body.uses[site.use]? = some use := by
  simp only [use?, Option.bind_eq_some_iff, Option.map_eq_some_iff, Prod.mk.injEq]
  constructor
  · rintro ⟨_, found, _, hit, rfl, rfl⟩
    exact ⟨found, hit⟩
  · rintro ⟨found, hit⟩
    exact ⟨frame, found, use, hit, rfl, rfl⟩

/-- A part is what its use becomes in the scope of its frame. -/
theorem Traced.shows (traced : Traced program depth root pending unfolding) {site : UseSite}
    {part : Part} (found : unfolding.part? site = some part) :
    ∃ frame use before after outcome, unfolding.use? site = some (frame, use) ∧
      frame.scope.become program depth before use = some (outcome, after) ∧
      unfolding.Shows site part outcome := by
  obtain ⟨frame, hframe, hpart⟩ := Option.bind_eq_some_iff.mp found
  have settled : site.frame ∉ pending := by
    intro isPending
    obtain ⟨other, hother, empty⟩ := traced.open_ _ isPending
    cases hframe.symm.trans hother
    simp [empty] at hpart
  obtain ⟨outcomes, first, last, all, length, each⟩ :=
    traced.settled site.frame frame hframe settled
  obtain ⟨outcome, houtcome, shows_⟩ := each site.use part hpart
  obtain ⟨use, before, after, huse, become⟩ := (Scope.becomeAll_getElem? all).2 _ _ houtcome
  exact ⟨frame, use, before, after, outcome, use?_eq_some_iff.mpr ⟨hframe, huse⟩, become, shows_⟩

/-- A frame that stands for the use at a site has the scope that the use becomes. -/
theorem Traced.frame_of_part (traced : Traced program depth root pending unfolding) {site : UseSite}
    {number : Nat} (found : unfolding.part? site = some (.frame number)) :
    ∃ frame use before after inner, unfolding.use? site = some (frame, use) ∧
      frame.scope.become program depth before use = some (.body inner.scope, after) ∧
      unfolding.frames[number]? = some inner ∧ inner.site = some site := by
  obtain ⟨frame, use, before, after, outcome, huse, become, shows_⟩ := traced.shows found
  cases outcome with
  | node node => exact shows_.elim
  | body scope =>
      simp only [Shows, origins, List.getElem?_map, Option.map_eq_some_iff] at shows_
      obtain ⟨inner, hinner, same⟩ := shows_
      obtain ⟨rfl, hsite⟩ := Prod.mk.inj same
      exact ⟨frame, use, before, after, inner, huse, become, by simpa using hinner, hsite⟩

/-- A node that stands for the use at a site is what the use becomes. -/
theorem Traced.node_of_part (traced : Traced program depth root pending unfolding) {site : UseSite}
    {id : Nat} (found : unfolding.part? site = some (.node id)) :
    ∃ frame use before after node, unfolding.use? site = some (frame, use) ∧
      frame.scope.become program depth before use = some (.node node, after) ∧
      unfolding.nodes[id]? = some node ∧ unfolding.sites[id]? = some site := by
  obtain ⟨frame, use, before, after, outcome, huse, become, shows_⟩ := traced.shows found
  cases outcome with
  | body scope => exact shows_.elim
  | node node =>
      exact ⟨frame, use, before, after, node, huse, become, by simpa using shows_.1,
        by simpa using shows_.2⟩

theorem Traced.root_frame (traced : Traced program depth root pending unfolding) :
    ∃ frame, unfolding.frames[0]? = some frame ∧ frame.scope = root ∧ frame.site = none := by
  have found := traced.root
  simp only [origins, List.getElem?_map, Option.map_eq_some_iff] at found
  obtain ⟨frame, hframe, same⟩ := found
  obtain ⟨hscope, hsite⟩ := Prod.mk.inj same
  exact ⟨frame, by simpa using hframe, hscope, hsite⟩

/-- Every frame but the root stands for the use at its site. -/
theorem Traced.frame_cases (traced : Traced program depth root pending unfolding) {number : Nat}
    {frame : Frame} (found : unfolding.frames[number]? = some frame) :
    (number = 0 ∧ frame.scope = root ∧ frame.site = none) ∨
      ∃ site, frame.site = some site ∧ unfolding.part? site = some (.frame number) := by
  by_cases zero : number = 0
  · obtain ⟨top, htop, hscope, hsite⟩ := traced.root_frame
    rw [zero, htop] at found
    cases found
    exact .inl ⟨zero, hscope, hsite⟩
  · have below := (Array.getElem?_eq_some_iff.mp found).1
    rcases traced.sited (.frame number) below with same | ⟨site, hpart⟩
    · exact absurd (Part.frame.inj same) zero
    · obtain ⟨_, _, _, _, inner, -, -, hinner, hsite⟩ := traced.frame_of_part hpart
      rw [found] at hinner
      cases hinner
      exact .inr ⟨site, hsite, hpart⟩

/-- Every node stands for the use at its site. -/
theorem Traced.part_of_node (traced : Traced program depth root pending unfolding) {id : Nat}
    {site : UseSite} (found : unfolding.sites[id]? = some site) :
    unfolding.part? site = some (.node id) := by
  have below := (Array.getElem?_eq_some_iff.mp found).1
  rw [traced.sites] at below
  rcases traced.sited (.node id) below with same | ⟨other, hpart⟩
  · cases same
  · obtain ⟨_, _, _, _, _, -, -, -, hsite⟩ := traced.node_of_part hpart
    rw [found] at hsite
    cases hsite
    exact hpart

/-- Every node has a site. -/
theorem Traced.site_of_node (traced : Traced program depth root pending unfolding) {id : Nat}
    {node : Node} (found : unfolding.nodes[id]? = some node) :
    ∃ site, unfolding.sites[id]? = some site := by
  have below := (Array.getElem?_eq_some_iff.mp found).1
  rw [← traced.sites] at below
  exact ⟨unfolding.sites[id], Array.getElem?_eq_getElem below⟩

/-! ## Paths tell frames and nodes apart -/

/-- Every body that is unfolded is one of a sound program. -/
theorem Traced.body_sound (sound : program.Sound)
    (traced : Traced program depth root pending unfolding) {number : Nat} {frame : Frame}
    (found : unfolding.frames[number]? = some frame) : frame.body.Sound program := by
  have known : frame.scope ∈ unfolding.scopes :=
    List.mem_map_of_mem (Array.mem_toList_iff.mpr (Array.mem_of_getElem? found))
  exact sound _ (traced.bodies _ known)

theorem use_injective (sound : program.Sound) (traced : Traced program depth root pending unfolding)
    {site other : UseSite} {frame : Frame} {use otherUse : ResolvedUse}
    (found : unfolding.use? site = some (frame, use))
    (foundOther : unfolding.use? other = some (frame, otherUse))
    (sameFrame : site.frame = other.frame) (sameName : use.name = otherUse.name) :
    site = other := by
  obtain ⟨hframe, huse⟩ := use?_eq_some_iff.mp found
  obtain ⟨-, hother⟩ := use?_eq_some_iff.mp foundOther
  have distinct := (traced.body_sound sound hframe).names_distinct
  have below := (List.getElem?_eq_some_iff.mp huse).1
  have sameUse : site.use = other.use := by
    refine (List.getElem?_inj (by simpa using below) distinct).mp ?_
    rw [List.getElem?_map, List.getElem?_map, huse, hother, Option.map_some, Option.map_some,
      sameName]
  cases site
  cases other
  simp_all

/-- A frame below the root lies where its use is named. -/
theorem Traced.path_of_part (traced : Traced program depth root pending unfolding) {site : UseSite}
    {number : Nat} {inner : Frame} (hpart : unfolding.part? site = some (.frame number))
    (hinner : unfolding.frames[number]? = some inner) :
    ∃ frame use, unfolding.use? site = some (frame, use) ∧
      inner.path = frame.path ++ [use.name] := by
  obtain ⟨frame, use, before, after, found, huse, become, hfound, -⟩ := traced.frame_of_part hpart
  rw [hinner] at hfound
  cases hfound
  exact ⟨frame, use, huse, (Scope.become_eq_body become).1⟩

/-- Different frames lie at different paths. -/
theorem Traced.path_injective (sound : program.Sound) (rootPath : root.path = [])
    (traced : Traced program depth root pending unfolding) {first second : Nat}
    {frame other : Frame} (hframe : unfolding.frames[first]? = some frame)
    (hother : unfolding.frames[second]? = some other) (samePath : frame.path = other.path) :
    first = second := by
  -- on the length of the path, from the root down
  induction hlength : frame.path.length using Nat.strongRecOn
    generalizing first second frame other with
  | ind length ih =>
      have top : ∀ {found : Frame}, found.scope = root → found.path = [] := by
        intro found hscope
        rw [← rootPath, ← hscope]
        rfl
      rcases traced.frame_cases hframe with ⟨rfl, hroot, -⟩ | ⟨site, -, hpart⟩
      · rcases traced.frame_cases hother with ⟨rfl, -, -⟩ | ⟨otherSite, -, hotherPart⟩
        · rfl
        · obtain ⟨_, _, -, otherPath⟩ := traced.path_of_part hotherPart hother
          rw [top hroot, otherPath] at samePath
          simp at samePath
      · obtain ⟨outer, use, huse, path⟩ := traced.path_of_part hpart hframe
        rcases traced.frame_cases hother with ⟨rfl, hroot, -⟩ | ⟨otherSite, -, hotherPart⟩
        · rw [top hroot, path] at samePath
          simp at samePath
        · obtain ⟨otherOuter, otherUse, hotherUse, otherPath⟩ :=
            traced.path_of_part hotherPart hother
          rw [path, otherPath] at samePath
          obtain ⟨outerPath, names⟩ := List.append_inj' samePath rfl
          have houter := (use?_eq_some_iff.mp huse).1
          have hotherOuter := (use?_eq_some_iff.mp hotherUse).1
          have sameFrame := ih outer.path.length
            (by rw [← hlength, path, List.length_append]; exact Nat.lt_succ_self _)
            houter hotherOuter outerPath rfl
          rw [← sameFrame, houter] at hotherOuter
          cases hotherOuter
          have sameSite := use_injective sound traced huse hotherUse sameFrame
            (List.singleton_inj.mp names)
          rw [sameSite, hotherPart] at hpart
          cases hpart
          rfl

/-- Different uses lie at different paths. -/
theorem Traced.site_injective (sound : program.Sound) (rootPath : root.path = [])
    (traced : Traced program depth root pending unfolding) {site other : UseSite}
    {frame otherFrame : Frame} {use otherUse : ResolvedUse}
    (huse : unfolding.use? site = some (frame, use))
    (hother : unfolding.use? other = some (otherFrame, otherUse))
    (samePath : frame.path ++ [use.name] = otherFrame.path ++ [otherUse.name]) :
    site = other := by
  obtain ⟨outerPath, names⟩ := List.append_inj' samePath rfl
  have hframe := (use?_eq_some_iff.mp huse).1
  have hotherFrame := (use?_eq_some_iff.mp hother).1
  have sameFrame := traced.path_injective sound rootPath hframe hotherFrame outerPath
  rw [← sameFrame, hframe] at hotherFrame
  cases hotherFrame
  exact use_injective sound traced huse hother sameFrame (List.singleton_inj.mp names)

end Unfolding

end FlowDiagram

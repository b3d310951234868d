import FlowDiagram.Proofs.Unfolding.Run

/-!
# Origins

Frames and nodes are kept in the order in which they are found.  Each of them but the root stands
for one use in the body of one frame: it knows the site of that use, and the frame knows it as the
part that the use has become.  Unfolding keeps both sides in agreement, one frame after the other;
in the end every use of every frame has its part.
-/

namespace FlowDiagram

/-- Uses become outcomes one for one. -/
theorem Scope.becomeAll_getElem? {program : ResolvedProgram} {depth : Nat} {scope : Scope}
    {number introduction : Nat} {uses : List ResolvedUse} {outcomes : List Outcome}
    (become : scope.becomeAll program depth number uses = some (outcomes, introduction)) :
    outcomes.length = uses.length ∧
      ∀ (index : Nat) (outcome : Outcome), outcomes[index]? = some outcome →
        ∃ use before after, uses[index]? = some use ∧
          scope.become program depth before use = some (outcome, after) := by
  induction uses generalizing number outcomes with
  | nil =>
      cases become
      simp
  | cons use rest ih =>
      obtain ⟨first, middle, others, hfirst, hrest, rfl⟩ :=
        Unfolding.becomeAll_cons_eq_some.mp become
      obtain ⟨length, each⟩ := ih hrest
      refine ⟨by simp [length], ?_⟩
      intro index outcome found
      cases index with
      | zero =>
          cases found
          exact ⟨use, number, middle, rfl, hfirst⟩
      | succ index =>
          exact each index outcome found

namespace Unfolding

/-! ## Parts and what they stand for -/

/-- The scope of a frame and the site of the use that it stands for. -/
def origin (frame : Frame) : Scope × Option UseSite :=
  (frame.scope, frame.site)

def origins (unfolding : Unfolding) : List (Scope × Option UseSite) :=
  unfolding.frames.toList.map origin

/-- What the use at a site has become, as far as its frame tells. -/
def part? (unfolding : Unfolding) (site : UseSite) : Option Part :=
  unfolding.frames[site.frame]?.bind (·.parts[site.use]?)

/-- There is such a node or frame. -/
def Has (unfolding : Unfolding) : Part → Prop
  | .node id => id < unfolding.nodes.size
  | .frame number => number < unfolding.frames.size

/-- A part is what the use at a site has become. -/
def Shows (unfolding : Unfolding) (site : UseSite) : Part → Outcome → Prop
  | .node id, .node node =>
    unfolding.nodes.toList[id]? = some node ∧ unfolding.sites.toList[id]? = some site
  | .frame number, .body scope => unfolding.origins[number]? = some (scope, some site)
  | _, _ => False

/-- All that is there before is there after, under the same number. -/
structure Extends (before after : Unfolding) : Prop where
  origins : before.origins <+: after.origins
  nodes : before.nodes.toList <+: after.nodes.toList
  sites : before.sites.toList <+: after.sites.toList

theorem Extends.refl (unfolding : Unfolding) : unfolding.Extends unfolding :=
  ⟨List.prefix_rfl, List.prefix_rfl, List.prefix_rfl⟩

theorem Extends.trans {first middle last : Unfolding} (begun : first.Extends middle)
    (ended : middle.Extends last) : first.Extends last :=
  ⟨begun.origins.trans ended.origins, begun.nodes.trans ended.nodes,
    begun.sites.trans ended.sites⟩

theorem getElem?_of_extended {α : Type} {before after : List α} (extended : before <+: after)
    {index : Nat} {item : α} (found : before[index]? = some item) :
    after[index]? = some item := by
  obtain ⟨below, rfl⟩ := List.getElem?_eq_some_iff.mp found
  exact List.prefix_iff_getElem?.mp extended index below

theorem Shows.extend {before after : Unfolding} (extended : before.Extends after)
    {site : UseSite} {part : Part} {outcome : Outcome} (shows_ : before.Shows site part outcome) :
    after.Shows site part outcome := by
  cases part with
  | node id =>
      cases outcome with
      | node node =>
          exact ⟨getElem?_of_extended extended.nodes shows_.1,
            getElem?_of_extended extended.sites shows_.2⟩
      | body scope => exact shows_
  | frame number =>
      cases outcome with
      | node node => exact shows_
      | body scope => exact getElem?_of_extended extended.origins shows_

/-! ## Placing -/

theorem origins_setParts (unfolding : Unfolding) (number : Nat) (parts : List Part) :
    (unfolding.setParts number parts).origins = unfolding.origins := by
  apply List.ext_getElem?
  intro index
  simp only [origins, setParts, List.getElem?_map, Array.getElem?_toList,
    Array.getElem?_modify]
  split
  · cases unfolding.frames[index]? <;> rfl
  · rfl

theorem extends_place (unfolding : Unfolding) (site : UseSite) (outcome : Outcome) :
    unfolding.Extends (unfolding.place site outcome).1 := by
  cases outcome with
  | node node => exact ⟨by simp [place, origins], by simp [place], by simp [place]⟩
  | body scope => exact ⟨by simp [place, origins], by simp [place], by simp [place]⟩

theorem extends_placeAll (number : Nat) (unfolding : Unfolding) (next : Nat)
    (outcomes : List Outcome) :
    unfolding.Extends (unfolding.placeAll number next outcomes).1 := by
  induction outcomes generalizing unfolding next with
  | nil => exact .refl unfolding
  | cons outcome rest ih =>
      exact (extends_place unfolding ⟨number, next⟩ outcome).trans (ih _ _)

/-- There are as many sites as nodes. -/
def SitesMatch (unfolding : Unfolding) : Prop :=
  unfolding.sites.size = unfolding.nodes.size

theorem SitesMatch.place {unfolding : Unfolding} (sitesMatch : unfolding.SitesMatch)
    (site : UseSite) (outcome : Outcome) :
    (unfolding.place site outcome).1.SitesMatch := by
  cases outcome with
  | node node => simpa [Unfolding.place, SitesMatch] using sitesMatch
  | body scope => exact sitesMatch

theorem SitesMatch.placeAll {unfolding : Unfolding} (sitesMatch : unfolding.SitesMatch)
    (number next : Nat) (outcomes : List Outcome) :
    (unfolding.placeAll number next outcomes).1.SitesMatch := by
  induction outcomes generalizing unfolding next with
  | nil => exact sitesMatch
  | cons outcome rest ih => exact ih (sitesMatch.place ⟨number, next⟩ outcome) _

theorem shows_place {unfolding : Unfolding} (sitesMatch : unfolding.SitesMatch) (site : UseSite)
    (outcome : Outcome) :
    (unfolding.place site outcome).1.Shows site (unfolding.place site outcome).2 outcome := by
  cases outcome with
  | node node =>
      refine ⟨by simp [place], ?_⟩
      simp only [place, Array.toList_push]
      rw [← sitesMatch, ← Array.length_toList, List.getElem?_append_right (Nat.le_refl _),
        Nat.sub_self]
      rfl
  | body scope => simp [place, Shows, origins, origin, Scope.frame, Frame.scope]

/-- What is new after one outcome has been placed is its part. -/
theorem has_place {unfolding : Unfolding} {site : UseSite} {outcome : Outcome} {part : Part}
    (has : (unfolding.place site outcome).1.Has part) :
    unfolding.Has part ∨ part = (unfolding.place site outcome).2 := by
  cases outcome with
  | node node =>
      cases part with
      | node id =>
          simp only [place, Has, Array.size_push, Part.node.injEq] at has ⊢
          omega
      | frame number => exact .inl has
  | body scope =>
      cases part with
      | node id => exact .inl has
      | frame number =>
          simp only [place, Has, Array.size_push, Part.frame.injEq] at has ⊢
          omega

theorem length_placeAll (number : Nat) (unfolding : Unfolding) (next : Nat)
    (outcomes : List Outcome) :
    (unfolding.placeAll number next outcomes).2.length = outcomes.length := by
  induction outcomes generalizing unfolding next with
  | nil => rfl
  | cons outcome rest ih => simp [placeAll, ih]

/-- Every part placed shows its outcome. -/
theorem shows_placeAll {unfolding : Unfolding} (sitesMatch : unfolding.SitesMatch)
    (number next : Nat) {outcomes : List Outcome} {index : Nat} {part : Part}
    (found : (unfolding.placeAll number next outcomes).2[index]? = some part) :
    ∃ outcome, outcomes[index]? = some outcome ∧
      (unfolding.placeAll number next outcomes).1.Shows ⟨number, next + index⟩ part outcome := by
  induction outcomes generalizing unfolding next index with
  | nil => simp [placeAll] at found
  | cons outcome rest ih =>
      cases index with
      | zero =>
          obtain rfl : (unfolding.place ⟨number, next⟩ outcome).2 = part := by
            simpa [placeAll] using found
          exact ⟨outcome, rfl, (shows_place sitesMatch _ outcome).extend
            (extends_placeAll number _ (next + 1) rest)⟩
      | succ index =>
          have later := ih (sitesMatch.place ⟨number, next⟩ outcome) (next + 1) found
          rwa [Nat.add_right_comm] at later

/-- What is new after outcomes have been placed is among their parts. -/
theorem has_placeAll {unfolding : Unfolding} {number next : Nat} {outcomes : List Outcome}
    {part : Part} (has : (unfolding.placeAll number next outcomes).1.Has part) :
    unfolding.Has part ∨
      ∃ index : Nat, (unfolding.placeAll number next outcomes).2[index]? = some part := by
  induction outcomes generalizing unfolding next with
  | nil => exact .inl has
  | cons outcome rest ih =>
      rcases ih has with earlier | ⟨index, found⟩
      · rcases has_place earlier with old | rfl
        · exact .inl old
        · exact .inr ⟨0, rfl⟩
      · exact .inr ⟨index + 1, found⟩

/-- Frames that are there are not touched by placing, and new ones have no parts yet. -/
theorem frames_placeAll (number : Nat) (unfolding : Unfolding) (next : Nat)
    (outcomes : List Outcome) {index : Nat} {frame : Frame}
    (found : (unfolding.placeAll number next outcomes).1.frames[index]? = some frame) :
    unfolding.frames[index]? = some frame ∨
      unfolding.frames.size ≤ index ∧ frame.parts = [] := by
  induction outcomes generalizing unfolding next with
  | nil => exact .inl found
  | cons outcome rest ih =>
      cases outcome with
      | node node => exact ih (unfolding.place ⟨number, next⟩ (.node node)).1 (next + 1) found
      | body scope =>
          rcases ih (unfolding.place ⟨number, next⟩ (.body scope)).1 (next + 1) found with
            here | ⟨above, empty⟩
          · simp only [place, Array.getElem?_push] at here
            split at here
            · cases here
              exact .inr ⟨by omega, rfl⟩
            · exact .inl here
          · simp only [place, Array.size_push] at above
            exact .inr ⟨by omega, empty⟩

theorem frames_placeAll_old (number : Nat) (unfolding : Unfolding) (next : Nat)
    (outcomes : List Outcome) {index : Nat} {frame : Frame}
    (found : unfolding.frames[index]? = some frame) :
    (unfolding.placeAll number next outcomes).1.frames[index]? = some frame := by
  induction outcomes generalizing unfolding next with
  | nil => exact found
  | cons outcome rest ih =>
      refine ih _ _ ?_
      cases outcome with
      | node node => exact found
      | body scope =>
          have below := (Array.getElem?_eq_some_iff.mp found).1
          simp only [Array.getElem?_push]
          rw [if_neg (by omega)]
          exact found

/-! ## Settling -/

variable {unfolding : Unfolding} {number : Nat}

theorem frames_settle_self {frame : Frame} (found : unfolding.frames[number]? = some frame)
    (outcomes : List Outcome) (introduction : Nat) :
    (unfolding.settle number outcomes introduction).frames[number]? =
      some { frame with parts := (unfolding.placeAll number 0 outcomes).2 } := by
  have kept := frames_placeAll_old number unfolding 0 outcomes found
  simp only [settle, setParts, introducing, Array.getElem?_modify, if_true, kept, Option.map_some]

theorem frames_settle_old {index : Nat} (other : index ≠ number) {frame : Frame}
    (found : unfolding.frames[index]? = some frame) (outcomes : List Outcome)
    (introduction : Nat) :
    (unfolding.settle number outcomes introduction).frames[index]? = some frame := by
  have kept := frames_placeAll_old number unfolding 0 outcomes found
  simp only [settle, setParts, introducing, Array.getElem?_modify, other.symm, if_false, kept]

theorem frames_settle {index : Nat} {outcomes : List Outcome} {introduction : Nat} {frame : Frame}
    (found : (unfolding.settle number outcomes introduction).frames[index]? = some frame) :
    index = number ∨ unfolding.frames[index]? = some frame ∨
      unfolding.frames.size ≤ index ∧ frame.parts = [] := by
  by_cases same : index = number
  · exact .inl same
  · refine .inr (frames_placeAll number unfolding 0 outcomes ?_)
    simpa only [settle, setParts, introducing, Array.getElem?_modify, Ne.symm same, if_false]
      using found

theorem extends_settle (unfolding : Unfolding) (number : Nat) (outcomes : List Outcome)
    (introduction : Nat) :
    (unfolding.placeAll number 0 outcomes).1.Extends
      (unfolding.settle number outcomes introduction) where
  origins := by
    unfold settle
    rw [origins_setParts]
    exact List.prefix_rfl
  nodes := List.prefix_rfl
  sites := List.prefix_rfl

theorem size_frames_settle (unfolding : Unfolding) (number : Nat) (outcomes : List Outcome)
    (introduction : Nat) :
    (unfolding.settle number outcomes introduction).frames.size =
      unfolding.frames.size + (scopesOf outcomes).length := by
  rw [← size_scopes, scopes_settle, List.length_append, size_scopes]

/-- What is new after a frame has been settled is among its parts. -/
theorem has_settle {outcomes : List Outcome} {introduction : Nat} {part : Part}
    (has : (unfolding.settle number outcomes introduction).Has part) :
    unfolding.Has part ∨
      ∃ index : Nat, (unfolding.placeAll number 0 outcomes).2[index]? = some part := by
  refine has_placeAll ?_
  cases part with
  | node id => exact has
  | frame inner => simpa [settle, setParts, introducing, Has] using has

/-! ## Every part is traced -/

/-- A frame of which every use has become a part. -/
def Settled (program : ResolvedProgram) (depth : Nat) (unfolding : Unfolding) (number : Nat)
    (frame : Frame) : Prop :=
  ∃ outcomes before after,
    frame.scope.becomeAll program depth before frame.body.uses = some (outcomes, after) ∧
    frame.parts.length = outcomes.length ∧
    ∀ (index : Nat) (part : Part), frame.parts[index]? = some part →
      ∃ outcome, outcomes[index]? = some outcome ∧
        unfolding.Shows ⟨number, index⟩ part outcome

/-- The frames still to be unfolded have no parts, all others are settled. -/
structure Traced (program : ResolvedProgram) (depth : Nat) (root : Scope) (pending : List Nat)
    (unfolding : Unfolding) : Prop where
  root : unfolding.origins[0]? = some (root, none)
  bodies : ∀ scope ∈ unfolding.scopes, scope.body ∈ program.definitions
  sites : unfolding.SitesMatch
  distinct : pending.Nodup
  open_ : ∀ number ∈ pending, ∃ frame, unfolding.frames[number]? = some frame ∧ frame.parts = []
  settled : ∀ (number : Nat) (frame : Frame), unfolding.frames[number]? = some frame →
    number ∉ pending → unfolding.Settled program depth number frame
  sited : ∀ part, unfolding.Has part → part = .frame 0 ∨ ∃ site, unfolding.part? site = some part

variable {program : ResolvedProgram} {depth : Nat} {root : Scope}

theorem traced_ofRoot (index : Nat) {body : ResolvedDefinition} (binding : List Symbol)
    (known : body ∈ program.definitions) :
    Traced program depth (.ofRoot index body binding) [0] (.ofRoot index body binding) where
  root := rfl
  bodies := by
    intro scope member
    obtain rfl := List.mem_singleton.mp member
    exact known
  sites := rfl
  distinct := by simp
  open_ := by
    intro number member
    obtain rfl := List.mem_singleton.mp member
    exact ⟨_, rfl, rfl⟩
  settled := by
    intro number frame found outside
    obtain rfl : number = 0 := by
      have below := (Array.getElem?_eq_some_iff.mp found).1
      simp only [ofRoot, List.size_toArray, List.length_singleton] at below
      omega
    exact absurd (List.mem_singleton.mpr rfl) outside
  sited := by
    intro part has
    cases part with
    | node id => simp [Has, ofRoot] at has
    | frame number =>
        left
        simp only [Has, ofRoot, List.size_toArray, List.length_singleton] at has
        congr
        omega

theorem Settled.extend {before after : Unfolding} (extended : before.Extends after)
    {number : Nat} {frame : Frame} (settled : before.Settled program depth number frame) :
    after.Settled program depth number frame := by
  obtain ⟨outcomes, first, last, become, length, each⟩ := settled
  refine ⟨outcomes, first, last, become, length, ?_⟩
  intro index part found
  obtain ⟨outcome, houtcome, shows_⟩ := each index part found
  exact ⟨outcome, houtcome, shows_.extend extended⟩

/-! ### One frame settled -/

section Settling

variable {rest : List Nat} (traced : Traced program depth root (number :: rest) unfolding)
include traced

/-- A pending frame is one of the frames that are there. -/
theorem Traced.pending_below {other : Nat} (pending : other ∈ number :: rest) :
    other < unfolding.frames.size := by
  obtain ⟨frame, found, -⟩ := traced.open_ other pending
  exact (Array.getElem?_eq_some_iff.mp found).1

/-- No pending frame is one of the new frames. -/
theorem Traced.nodup_settle (count : Nat) :
    (List.range' unfolding.frames.size count ++ rest).Nodup := by
  have distinctRest := (List.nodup_cons.mp traced.distinct).2
  refine List.nodup_append.mpr ⟨List.nodup_range' .., distinctRest, ?_⟩
  intro fresh isFresh old isOld same
  have above := (List.mem_range'_1.mp isFresh).1
  have below := traced.pending_below (List.mem_cons_of_mem _ isOld)
  omega

/-- The new frames and the ones still pending have no parts. -/
theorem Traced.open_settle (outcomes : List Outcome) (next : Nat) {other : Nat}
    (pending : other ∈ List.range' unfolding.frames.size (scopesOf outcomes).length ++ rest) :
    ∃ frame, (unfolding.settle number outcomes next).frames[other]? = some frame ∧
      frame.parts = [] := by
  rcases List.mem_append.mp pending with fresh | old
  · have range := List.mem_range'_1.mp fresh
    rw [← size_frames_settle unfolding number outcomes next] at range
    have found := Array.getElem?_eq_getElem range.2
    refine ⟨_, found, ?_⟩
    rcases frames_settle found with same | there | ⟨-, empty⟩
    · have below := traced.pending_below (List.mem_cons_self ..)
      omega
    · have below := (Array.getElem?_eq_some_iff.mp there).1
      omega
    · exact empty
  · obtain ⟨frame, found, empty⟩ := traced.open_ other (List.mem_cons_of_mem _ old)
    have different : other ≠ number := by
      rintro rfl
      exact (List.nodup_cons.mp traced.distinct).1 old
    exact ⟨frame, frames_settle_old different found outcomes next, empty⟩

/-- The parts of the frame that has been settled show the outcomes of its uses. -/
theorem Traced.settled_self {frame : Frame} {outcomes : List Outcome} {next : Nat}
    (become : frame.scope.becomeAll program depth unfolding.introduction frame.body.uses =
      some (outcomes, next)) :
    (unfolding.settle number outcomes next).Settled program depth number
      { frame with parts := (unfolding.placeAll number 0 outcomes).2 } := by
  refine ⟨outcomes, _, next, become, length_placeAll .., ?_⟩
  intro index part hpart
  obtain ⟨outcome, houtcome, shows_⟩ := shows_placeAll traced.sites number 0 hpart
  rw [Nat.zero_add] at shows_
  exact ⟨outcome, houtcome, shows_.extend (extends_settle unfolding number outcomes next)⟩

/-- A frame that is neither the settled one nor pending afterwards was settled before. -/
theorem Traced.settled_other {outcomes : List Outcome} {next other : Nat} {frame : Frame}
    (different : other ≠ number)
    (found : (unfolding.settle number outcomes next).frames[other]? = some frame)
    (outside : other ∉ List.range' unfolding.frames.size (scopesOf outcomes).length ++ rest) :
    (unfolding.settle number outcomes next).Settled program depth other frame := by
  have size := size_frames_settle unfolding number outcomes next
  have within := (Array.getElem?_eq_some_iff.mp found).1
  rw [List.mem_append, List.mem_range'_1] at outside
  rcases (frames_settle found).resolve_left different with old | ⟨above, -⟩
  · have before := traced.settled other frame old (by
      rw [List.mem_cons]
      exact fun member => member.elim different fun member => outside (.inr member))
    exact before.extend ((extends_placeAll number unfolding 0 outcomes).trans
      (extends_settle unfolding number outcomes next))
  · exact absurd (.inl ⟨above, by omega⟩) outside

/-- Every part is still found at a site: old ones at theirs, new ones in the settled frame. -/
theorem Traced.sited_settle {outcomes : List Outcome} {next : Nat} {part : Part}
    (has : (unfolding.settle number outcomes next).Has part) :
    part = .frame 0 ∨ ∃ site, (unfolding.settle number outcomes next).part? site = some part := by
  obtain ⟨frame, hframe, empty⟩ := traced.open_ number (List.mem_cons_self ..)
  rcases has_settle has with old | ⟨index, hpart⟩
  · refine (traced.sited part old).imp_right ?_
    rintro ⟨site, hsite⟩
    obtain ⟨siteFrame, hsiteFrame, hpart⟩ := Option.bind_eq_some_iff.mp hsite
    have different : site.frame ≠ number := by
      intro same
      rw [same, hframe] at hsiteFrame
      cases hsiteFrame
      simp [empty] at hpart
    refine ⟨site, Option.bind_eq_some_iff.mpr ⟨siteFrame, ?_, hpart⟩⟩
    exact frames_settle_old different hsiteFrame outcomes next
  · right
    have self := frames_settle_self hframe outcomes next
    exact ⟨⟨number, index⟩, Option.bind_eq_some_iff.mpr ⟨_, self, hpart⟩⟩

/-- Settling a frame keeps everything traced, with the new frames pending in its place. -/
theorem Traced.settle {scope : Scope} (found : unfolding.scopes[number]? = some scope)
    {outcomes : List Outcome} {next : Nat}
    (become : scope.becomeAll program depth unfolding.introduction scope.body.uses =
      some (outcomes, next)) :
    Traced program depth root
      (List.range' unfolding.frames.size (scopesOf outcomes).length ++ rest)
      (unfolding.settle number outcomes next) := by
  obtain ⟨frame, hframe, -⟩ := traced.open_ number (List.mem_cons_self ..)
  obtain rfl : frame.scope = scope := by
    simpa [scopes, List.getElem?_map, hframe] using found
  have placed := extends_placeAll number unfolding 0 outcomes
  have settled := extends_settle unfolding number outcomes next
  constructor
  case root => exact getElem?_of_extended (placed.trans settled).origins traced.root
  case bodies =>
    intro inner member
    rw [scopes_settle] at member
    rcases List.mem_append.mp member with old | new
    · exact traced.bodies inner old
    · exact Scope.body_mem_of_becomeAll become inner new
  case sites => exact traced.sites.placeAll number 0 outcomes
  case distinct => exact traced.nodup_settle _
  case open_ => exact fun other pending => traced.open_settle outcomes next pending
  case settled =>
    intro other otherFrame hother outside
    by_cases same : other = number
    · subst same
      rw [frames_settle_self hframe] at hother
      cases hother
      exact traced.settled_self become
    · exact traced.settled_other same hother outside
  case sited => exact fun part has => traced.sited_settle has

end Settling

/-- A turn settles the first pending frame with what becomes of its uses. -/
theorem Traced.exists_settle {limits : UnfoldingLimits} {number : Nat} {rest later : List Nat}
    {after : Unfolding} (sound : program.Sound)
    (traced : Traced program limits.depth root (number :: rest) unfolding)
    (unfolded : unfolding.unfoldFrame program limits number = .ok (after, later)) :
    ∃ scope outcomes next, unfolding.scopes[number]? = some scope ∧
      (∀ use ∈ scope.body.uses, use.Fits program) ∧
      scope.becomeAll program limits.depth unfolding.introduction scope.body.uses =
        some (outcomes, next) ∧
      outcomes.length ≤ unfolding.room limits ∧
      after = unfolding.settle number outcomes next ∧
      later = List.range' unfolding.frames.size (scopesOf outcomes).length := by
  obtain ⟨frame, found, -⟩ := traced.open_ number (List.mem_cons_self ..)
  have scope : unfolding.scopes[number]? = some frame.scope := by
    simp [scopes, List.getElem?_map, found]
  have fit := (sound _ (traced.bodies _ (List.mem_of_getElem? scope))).uses_fit
  obtain ⟨outcomes, next, become, room, same⟩ := (unfoldFrame_eq_ok_iff scope fit).mp unfolded
  obtain ⟨rfl, rfl⟩ := Prod.mk.inj same
  exact ⟨frame.scope, outcomes, next, scope, fit, become, room, rfl, rfl⟩

/-- Unfolding a frame keeps everything traced. -/
theorem Traced.unfoldFrame {limits : UnfoldingLimits} (sound : program.Sound)
    {after : Unfolding} {number : Nat} {later rest : List Nat}
    (traced : Traced program limits.depth root (number :: rest) unfolding)
    (unfolded : unfolding.unfoldFrame program limits number = .ok (after, later)) :
    Traced program limits.depth root (later ++ rest) after := by
  obtain ⟨scope, outcomes, next, found, -, become, -, rfl, rfl⟩ :=
    traced.exists_settle sound unfolded
  exact traced.settle found become

/-- A run keeps everything traced, up to where nothing is pending. -/
theorem Traced.unfoldAll {limits : UnfoldingLimits} (sound : program.Sound) {pending : List Nat}
    {final : Unfolding} (traced : Traced program limits.depth root pending unfolding)
    (run : unfolding.unfoldAll program limits pending = .ok final) :
    Traced program limits.depth root [] final :=
  unfoldAll_keeps (fun traced unfolded => traced.unfoldFrame sound unfolded) traced run

end Unfolding

end FlowDiagram

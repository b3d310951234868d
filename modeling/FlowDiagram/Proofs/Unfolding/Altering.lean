import FlowDiagram.Proofs.Unfolding.Step
import FlowDiagram.Unfolding.Edges

/-!
# Altered unfoldings

Unfolding goes by little of what its state is made of.  A change to frames, nodes and uses that
leaves alone what it goes by, and that a single use unfolds alike under, makes no difference to the
run over all frames, nor to the edges that are found in the end.  Two programs may be unfolded side
by side in this way, as long as the bodies that are reached stay within those known to unfold alike.
-/

namespace FlowDiagram

/-- A change to the frames, nodes and uses of an unfolding. -/
structure Alteration where
  frame : Frame → Frame
  node : Node → Node
  use : ResolvedUse → ResolvedUse

namespace Unfolding

def alter (how : Alteration) (unfolding : Unfolding) : Unfolding :=
  { unfolding with
    frames := unfolding.frames.map how.frame
    nodes := unfolding.nodes.map how.node }

/-- All frames are of some kind. -/
def All (AtHand : Frame → Prop) (unfolding : Unfolding) : Prop :=
  ∀ (number : Nat) (frame : Frame), unfolding.frames[number]? = some frame → AtHand frame

end Unfolding

namespace Alteration

/-- What is unfolded, altered, and what has become of a use. -/
def apply {α : Type} (how : Alteration) : Unfolding × α → Unfolding × α
  | (unfolding, made) => (unfolding.alter how, made)

/-- What a run over frames, and the search for edges, go by is left alone. -/
structure Neutral (how : Alteration) : Prop where
  uses : ∀ frame, (how.frame frame).body.uses = frame.body.uses.map how.use
  links : ∀ frame, (how.frame frame).body.links.map (fun link => (link.source, link.target)) =
    frame.body.links.map fun link => (link.source, link.target)
  site : ∀ frame, (how.frame frame).site = frame.site
  setParts : ∀ frame parts,
    how.frame { frame with parts := parts } = { how.frame frame with parts := parts }
  outputs : ∀ node, (how.node node).outputs.length = node.outputs.length

/-- The uses in frames at hand unfold alike in two programs, and into frames at hand. -/
structure Carries (how : Alteration) (first second : ResolvedProgram) (limits : UnfoldingLimits)
    (AtHand : Frame → Prop) : Prop where
  unfoldUse : ∀ (frame : Frame) (site : UseSite) (unfolding : Unfolding), AtHand frame →
    ∀ use ∈ frame.body.uses,
      (unfolding.alter how).unfoldUse second limits (how.frame frame) site (how.use use) =
        (unfolding.unfoldUse first limits frame site use).map how.apply
  inner : ∀ outer : Frame, AtHand outer → ∀ use ∈ outer.body.uses,
    ∀ (index number : Nat) (arguments : List Symbol) (fresh : Bool) (frame : Frame),
      use.target = .definition index arguments fresh →
      first.definitions[index]? = some frame.body →
      frame.applications =
        ⟨index, bindArguments (outer.body.bind outer.binding) number frame.body.universal.length
          fresh arguments⟩ :: outer.applications →
      AtHand frame
  setParts : ∀ (frame : Frame) (parts : List Part), AtHand frame →
    AtHand { frame with parts := parts }

variable {how : Alteration}

theorem Neutral.parts (neutral : how.Neutral) (frame : Frame) :
    (how.frame frame).parts = frame.parts := by
  have same : how.frame frame = { how.frame frame with parts := frame.parts } :=
    neutral.setParts frame frame.parts
  rw [same]

end Alteration

namespace Unfolding

variable {how : Alteration} {first second : ResolvedProgram} {limits : UnfoldingLimits}
  {AtHand : Frame → Prop}

theorem getElem?_frames_alter (unfolding : Unfolding) (number : Nat) :
    (unfolding.alter how).frames[number]? = unfolding.frames[number]?.map how.frame :=
  Array.getElem?_map

/-! ## One use -/

theorem charge_alter (limits : UnfoldingLimits) (unfolding : Unfolding) :
    (unfolding.alter how).charge limits = unfolding.charge limits := by
  have charged : (unfolding.alter how).charged = unfolding.charged := by
    simp [charged, alter]
  rw [charge, charge, charged]

/-- A use becomes the altered node, whatever it is altered to itself. -/
theorem addNode_alter (how : Alteration) (limits : UnfoldingLimits) (unfolding : Unfolding)
    (site : UseSite) {use other : ResolvedUse} {kind otherKind : NodeKind}
    {provenance otherProvenance : Provenance}
    (same : ⟨otherKind, other.inputs, other.outputs, otherProvenance⟩ =
      how.node ⟨kind, use.inputs, use.outputs, provenance⟩) :
    (unfolding.alter how).addNode limits site other otherKind otherProvenance =
      (unfolding.addNode limits site use kind provenance).map how.apply := by
  unfold addNode
  rw [charge_alter]
  cases unfolding.charge limits with
  | error error => rfl
  | ok paid =>
      simp only [bind, Except.bind, pure, Except.pure, Except.map, same]
      simp [Alteration.apply, alter]

theorem addFrame_alter (how : Alteration) (limits : UnfoldingLimits) (unfolding : Unfolding)
    {frame other : Frame} (same : other = how.frame frame) :
    (unfolding.alter how).addFrame limits other =
      (unfolding.addFrame limits frame).map how.apply := by
  unfold addFrame
  rw [charge_alter, same]
  cases unfolding.charge limits with
  | error error => rfl
  | ok paid => simp [Alteration.apply, alter, Except.map, bind, Except.bind, pure, Except.pure]

/-- What a use of a definition becomes is altered with the symbols passed on, if it is as deep. -/
theorem unfoldDefinition_rename {frame other : Frame} {site : UseSite} (unfolding : Unfolding)
    {use again : ResolvedUse} {index there : Nat} {callee altered : ResolvedDefinition}
    {arguments : List Symbol} {fresh : Bool} (rename : Symbol → Symbol)
    (found : first.definitions[index]? = some callee)
    (foundThere : second.definitions[there]? = some altered)
    (universal : altered.universal.length = callee.universal.length)
    (bound : ∀ number,
      bindArguments (other.body.bind other.binding) number callee.universal.length fresh arguments =
        (bindArguments (frame.body.bind frame.binding) number callee.universal.length fresh
          arguments).map rename)
    (counted : ∀ number,
      let symbols := bindArguments (frame.body.bind frame.binding) number
        callee.universal.length fresh arguments
      occurrences other.applications there ((symbols.map rename).take callee.universal.length) =
        occurrences frame.applications index (symbols.take callee.universal.length))
    (node : ∀ symbols depth,
      ⟨.truncated altered.name (symbols.map rename), again.inputs, again.outputs,
        ⟨other.path ++ [again.name], other.body.name, depth, true, again.span⟩⟩ =
      how.node ⟨.truncated callee.name symbols, use.inputs, use.outputs,
        ⟨frame.path ++ [use.name], frame.body.name, depth, true, use.span⟩⟩)
    (inner : ∀ symbols depth,
      ⟨altered, ⟨there, symbols.map rename⟩ :: other.applications,
        if 0 < depth then depth else other.level, other.path ++ [again.name], some site, []⟩ =
      how.frame ⟨callee, ⟨index, symbols⟩ :: frame.applications,
        if 0 < depth then depth else frame.level, frame.path ++ [use.name], some site, []⟩) :
    (unfolding.alter how).unfoldDefinition second limits other site again there arguments fresh =
      (unfolding.unfoldDefinition first limits frame site use index arguments fresh).map
        how.apply := by
  have introducing : ∀ introduction, (unfolding.introducing introduction).alter how =
      { unfolding.alter how with introduction := introduction } := fun _ => rfl
  have introduction : (unfolding.alter how).introduction = unfolding.introduction := rfl
  simp only [unfoldDefinition, found, foundThere, universal, bound, counted, introduction,
    ← introducing]
  split
  · exact addNode_alter how limits (unfolding.introducing _) site (node _ _)
  · exact addFrame_alter how limits (unfolding.introducing _) (inner _ _)

/-- So it is if the same symbols are passed on. -/
theorem unfoldDefinition_alter {frame other : Frame} {site : UseSite} (unfolding : Unfolding)
    {use again : ResolvedUse} {index there : Nat} {callee altered : ResolvedDefinition}
    (arguments : List Symbol) (fresh : Bool)
    (found : first.definitions[index]? = some callee)
    (foundThere : second.definitions[there]? = some altered)
    (universal : altered.universal.length = callee.universal.length)
    (bind : other.body.bind other.binding = frame.body.bind frame.binding)
    (counted : ∀ symbols, occurrences other.applications there symbols =
      occurrences frame.applications index symbols)
    (node : ∀ symbols depth,
      ⟨.truncated altered.name symbols, again.inputs, again.outputs,
        ⟨other.path ++ [again.name], other.body.name, depth, true, again.span⟩⟩ =
      how.node ⟨.truncated callee.name symbols, use.inputs, use.outputs,
        ⟨frame.path ++ [use.name], frame.body.name, depth, true, use.span⟩⟩)
    (inner : ∀ symbols depth,
      ⟨altered, ⟨there, symbols⟩ :: other.applications,
        if 0 < depth then depth else other.level, other.path ++ [again.name], some site, []⟩ =
      how.frame ⟨callee, ⟨index, symbols⟩ :: frame.applications,
        if 0 < depth then depth else frame.level, frame.path ++ [use.name], some site, []⟩) :
    (unfolding.alter how).unfoldDefinition second limits other site again there arguments fresh =
      (unfolding.unfoldDefinition first limits frame site use index arguments fresh).map
        how.apply := by
  refine unfoldDefinition_rename unfolding id found foundThere universal ?_ ?_ ?_ ?_
  · intro number
    rw [bind, List.map_id]
  · intro number symbols
    rw [List.map_id, counted]
  · exact fun symbols depth => by rw [List.map_id, node]
  · exact fun symbols depth => by rw [List.map_id, inner]

/-- A use adds no frame, or one of the body of the definition used, right below its own frame. -/
theorem frames_of_unfoldUse {frame : Frame} {site : UseSite} {unfolding after : Unfolding}
    {use : ResolvedUse} {part : Part}
    (unfolded : unfolding.unfoldUse first limits frame site use = .ok (after, part)) :
    after.frames = unfolding.frames ∨
      ∃ (inner : Frame) (index number : Nat) (arguments : List Symbol) (fresh : Bool),
        after.frames = unfolding.frames.push inner ∧
        use.target = .definition index arguments fresh ∧
        first.definitions[index]? = some inner.body ∧
        inner.applications =
          ⟨index, bindArguments (frame.body.bind frame.binding) number inner.body.universal.length
            fresh arguments⟩ :: frame.applications := by
  unfold unfoldUse at unfolded
  cases htarget : use.target with
  | primitive primitive =>
      rw [htarget] at unfolded
      obtain ⟨-, same⟩ := addNode_eq_ok_iff.mp unfolded
      cases same
      exact .inl rfl
  | definition index arguments fresh =>
      simp only [htarget, unfoldDefinition] at unfolded
      cases hcallee : first.definitions[index]? with
      | none =>
          rw [hcallee] at unfolded
          cases unfolded
      | some callee =>
          simp only [hcallee] at unfolded
          split at unfolded
          · obtain ⟨-, same⟩ := addNode_eq_ok_iff.mp unfolded
            cases same
            exact .inl rfl
          · obtain ⟨paid, -, same⟩ := exists_ok_of_bind unfolded
            cases same
            exact .inr ⟨_, index, _, arguments, fresh, rfl, rfl, hcallee, rfl⟩

/-- Frames at hand are added to frames at hand. -/
theorem All.unfoldUse (carries : how.Carries first second limits AtHand) {frame : Frame}
    {site : UseSite} {unfolding after : Unfolding} {use : ResolvedUse} {part : Part}
    (atHand : AtHand frame) (member : use ∈ frame.body.uses) (all : unfolding.All AtHand)
    (unfolded : unfolding.unfoldUse first limits frame site use = .ok (after, part)) :
    after.All AtHand := by
  obtain same | ⟨inner, index, number, arguments, fresh, pushed, target, body, applications⟩ :=
    frames_of_unfoldUse unfolded
  · intro number other found
    rw [same] at found
    exact all number other found
  · intro number other found
    rw [pushed, Array.getElem?_push] at found
    split at found
    · obtain rfl := Option.some.inj found
      exact carries.inner frame atHand use member index _ arguments fresh _ target body
        applications
    · exact all number other found

/-! ## The uses of a body -/

/-- The uses of a frame at hand unfold alike, and into frames at hand. -/
theorem unfoldUses_alter (carries : how.Carries first second limits AtHand) {frame : Frame}
    (atHand : AtHand frame) (number : Nat) {unfolding : Unfolding} {next : Nat}
    {uses : List ResolvedUse} (within : uses ⊆ frame.body.uses) :
    (unfolding.alter how).unfoldUses second limits (how.frame frame) number next
        (uses.map how.use) =
      (unfolding.unfoldUses first limits frame number next uses).map how.apply := by
  induction uses generalizing unfolding next with
  | nil => rfl
  | cons use rest ih =>
      obtain ⟨member, later⟩ := List.cons_subset.mp within
      rw [List.map_cons, unfoldUses, unfoldUses,
        carries.unfoldUse frame ⟨number, next⟩ unfolding atHand use member]
      cases unfolding.unfoldUse first limits frame ⟨number, next⟩ use with
      | error error => rfl
      | ok placed =>
          obtain ⟨unfolding, part⟩ := placed
          have others := @ih unfolding (next + 1) later
          simp only [Except.map, Alteration.apply, bind, Except.bind] at others ⊢
          rw [others]
          cases unfolding.unfoldUses first limits frame number (next + 1) rest <;> rfl

theorem All.unfoldUses (carries : how.Carries first second limits AtHand) {frame : Frame}
    (atHand : AtHand frame) {number next : Nat} {unfolding after : Unfolding}
    {uses : List ResolvedUse} (within : uses ⊆ frame.body.uses) {parts : List Part}
    (all : unfolding.All AtHand)
    (unfolded : unfolding.unfoldUses first limits frame number next uses = .ok (after, parts)) :
    after.All AtHand := by
  induction uses generalizing unfolding next parts with
  | nil =>
      cases unfolded
      exact all
  | cons use rest ih =>
      obtain ⟨member, later⟩ := List.cons_subset.mp within
      rw [unfoldUses_cons] at unfolded
      obtain ⟨⟨middle, part⟩, hfirst, unfolded⟩ := exists_ok_of_bind unfolded
      obtain ⟨⟨final, others⟩, hlater, same⟩ := exists_ok_of_bind unfolded
      cases same
      exact ih later (all.unfoldUse carries atHand member hfirst) hlater

/-! ## Frames -/

theorem setParts_alter (neutral : how.Neutral) (unfolding : Unfolding) (number : Nat)
    (parts : List Part) :
    (unfolding.alter how).setParts number parts = (unfolding.setParts number parts).alter how := by
  have frames : (unfolding.frames.map how.frame).modify number
      (fun frame => { frame with parts := parts }) =
      (unfolding.frames.modify number fun frame => { frame with parts := parts }).map
        how.frame := by
    refine Array.ext_getElem? fun other => ?_
    simp only [Array.getElem?_modify, Array.getElem?_map]
    split
    · cases unfolding.frames[other]? with
      | none => rfl
      | some frame => exact congrArg some (neutral.setParts frame parts).symm
    · rfl
  simp only [setParts, alter, frames]

theorem All.setParts (carries : how.Carries first second limits AtHand) {unfolding : Unfolding}
    (all : unfolding.All AtHand) (number : Nat) (parts : List Part) :
    (unfolding.setParts number parts).All AtHand := by
  intro other frame found
  simp only [Unfolding.setParts, Array.getElem?_modify] at found
  split at found
  · obtain ⟨before, there, rfl⟩ := Option.map_eq_some_iff.mp found
    exact carries.setParts before parts (all other before there)
  · exact all other frame found

theorem unfoldFrame_alter (neutral : how.Neutral)
    (carries : how.Carries first second limits AtHand) {unfolding : Unfolding}
    (all : unfolding.All AtHand) (number : Nat) :
    (unfolding.alter how).unfoldFrame second limits number =
      (unfolding.unfoldFrame first limits number).map how.apply := by
  rw [unfoldFrame, unfoldFrame, getElem?_frames_alter]
  cases hframe : unfolding.frames[number]? with
  | none => rfl
  | some frame =>
      have uses := @unfoldUses_alter how first second limits AtHand carries frame
        (all number frame hframe) number unfolding 0 frame.body.uses (List.Subset.refl _)
      simp only [Option.map_some, neutral.uses, uses]
      cases unfolding.unfoldUses first limits frame number 0 frame.body.uses with
      | error error => rfl
      | ok placed =>
          obtain ⟨placed, parts⟩ := placed
          exact congrArg (fun settled => Except.ok (settled, framesOf parts))
            (setParts_alter neutral placed number parts)

theorem All.unfoldFrame (carries : how.Carries first second limits AtHand)
    {unfolding after : Unfolding} {number : Nat} {later : List Nat} (all : unfolding.All AtHand)
    (unfolded : unfolding.unfoldFrame first limits number = .ok (after, later)) :
    after.All AtHand := by
  unfold Unfolding.unfoldFrame at unfolded
  split at unfolded
  · cases unfolded
    exact all
  · next frame hframe =>
    obtain ⟨⟨placed, parts⟩, hplaced, same⟩ := exists_ok_of_bind unfolded
    cases same
    have settled := all.unfoldUses carries (all number frame hframe) (List.Subset.refl _) hplaced
    exact settled.setParts carries number parts

/-- Frames at hand are unfolded alike, one after the other. -/
theorem unfoldAll_alter (neutral : how.Neutral)
    (carries : how.Carries first second limits AtHand) (unfolding : Unfolding)
    (pending : List Nat) (all : unfolding.All AtHand) :
    (unfolding.alter how).unfoldAll second limits pending =
      (unfolding.unfoldAll first limits pending).map (alter how) := by
  induction unfolding, pending using unfoldAll.induct first limits with
  | case1 unfolding =>
      rw [unfoldAll, unfoldAll]
      rfl
  | case2 unfolding number rest expired =>
      rw [unfoldAll_step, unfoldAll_step, if_pos expired, if_pos expired]
      rfl
  | case3 unfolding number rest inTime error hframe =>
      rw [unfoldAll_step, unfoldAll_step, if_neg inTime, if_neg inTime,
        unfoldFrame_alter neutral carries all, hframe]
      rfl
  | case4 unfolding number rest inTime after later hframe ih =>
      rw [unfoldAll_step, unfoldAll_step, if_neg inTime, if_neg inTime,
        unfoldFrame_alter neutral carries all, hframe]
      exact ih (all.unfoldFrame carries hframe)

/-! ## Edges -/

theorem linksFrom_alter (neutral : how.Neutral) (unfolding : Unfolding) (source : Place) :
    (unfolding.alter how).linksFrom source = unfolding.linksFrom source := by
  -- only the ends of the links are looked at
  have byEnds : ∀ frame : Frame,
      (frame.body.links.filter (·.source == source.stop)).map
          (fun link => (⟨source.frame, link.target⟩ : Place)) =
        ((frame.body.links.map fun link => (link.source, link.target)).filter
          (·.1 == source.stop)).map fun ends => ⟨source.frame, ends.2⟩ := by
    intro frame
    rw [List.filter_map, List.map_map]
    rfl
  rw [linksFrom, linksFrom, getElem?_frames_alter]
  cases unfolding.frames[source.frame]? with
  | none => rfl
  | some frame => simp only [Option.map_some, byEnds, neutral.links]

theorem lead?_alter (neutral : how.Neutral) (unfolding : Unfolding) (place : Place) :
    (unfolding.alter how).lead? place = unfolding.lead? place := by
  rw [lead?, lead?, getElem?_frames_alter]
  cases unfolding.frames[place.frame]? with
  | none => rfl
  | some frame => simp only [Option.map_some, neutral.site, neutral.parts]

theorem linkCount_alter (neutral : how.Neutral) (unfolding : Unfolding) :
    (unfolding.alter how).linkCount = unfolding.linkCount := by
  have links : ∀ frame : Frame,
      (how.frame frame).body.links.length = frame.body.links.length := by
    intro frame
    have same := congrArg List.length (neutral.links frame)
    rwa [List.length_map, List.length_map] at same
  simp only [linkCount, alter, Array.foldl_map, links]

theorem follow_alter (neutral : how.Neutral) (unfolding : Unfolding) (steps : Nat)
    (places seen : List Place) :
    (unfolding.alter how).follow steps places seen = unfolding.follow steps places seen := by
  induction steps generalizing places seen with
  | zero => simp [follow]
  | succ steps ih =>
      cases places with
      | nil => simp [follow]
      | cons place rest =>
          simp only [follow, lead?_alter neutral, linksFrom_alter neutral, ih]

/-- The same edges are found. -/
theorem edges_alter (neutral : how.Neutral) (unfolding : Unfolding) (inputs : Nat) :
    (unfolding.alter how).edges inputs = unfolding.edges inputs := by
  have starts : (unfolding.alter how).edgesFrom = unfolding.edgesFrom := by
    funext steps source place
    rw [edgesFrom, linksFrom_alter neutral, follow_alter neutral, edgesFrom]
  have node : ∀ steps id site node, (unfolding.alter how).nodeEdges steps id site
      (how.node node) = unfolding.nodeEdges steps id site node := by
    intro steps id site node
    rw [nodeEdges, starts, neutral.outputs, nodeEdges]
  have nodes : ((unfolding.alter how).sites.zip (unfolding.alter how).nodes).toList =
      (unfolding.sites.zip unfolding.nodes).toList.map (Prod.map id how.node) := by
    simp [alter, List.zip_map_right]
  rw [edges, edges, linkCount_alter neutral, nodes, List.zipIdx_map, List.flatMap_map, inputEdges,
    starts]
  simp only [Prod.map, id, node]
  rfl

end Unfolding

end FlowDiagram

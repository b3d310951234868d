import FlowDiagram.Expansion
import FlowDiagram.Proofs.PortGraph.Building
import FlowDiagram.Proofs.Unfolding.Following

/-!
# Unfolding within range

Unfolding looks things up by numbers: frames by those pending and those at sites, definitions by
those of uses, symbols by the position of a parameter, ports by those of link ends.  In every state
that a run over a sound program comes to, whether or not it goes on to the end, all of them are in
range.  So a run can only fail for want of time or of room.
-/

namespace FlowDiagram

/-! ## States in range -/

/-- A scope lists first of all its own definition, under one symbol for each parameter. -/
def Scope.Applied (program : ResolvedProgram) (scope : Scope) : Prop :=
  ∃ index binding around, scope.applications = ⟨index, binding⟩ :: around ∧
    program.definitions[index]? = some scope.body ∧
    binding.length = scope.body.parameters.length

namespace Unfolding

/-- The states that a run comes to, each with the frames still to be unfolded there. -/
inductive Reached (program : ResolvedProgram) (limits : UnfoldingLimits) (start : Unfolding) :
    List Nat → Unfolding → Prop
  | start : Reached program limits start [0] start
  | unfold {before after : Unfolding} {number : Nat} {later rest : List Nat}
      (reached : Reached program limits start (number :: rest) before)
      (unfolded : before.unfoldFrame program limits number = .ok (after, later)) :
      Reached program limits start (later ++ rest) after

/-- There is such a node or frame, with as many ports as the use that it stands for. -/
def HasPorts (unfolding : Unfolding) (use : ResolvedUse) : Part → Prop
  | .node id => ∃ node, unfolding.nodes[id]? = some node ∧
      node.inputs.length = use.inputs.length ∧ node.outputs.length = use.outputs.length
  | .frame number => ∃ inner, unfolding.frames[number]? = some inner ∧
      inner.body.inputs.length = use.inputs.length ∧
      inner.body.outputs.length = use.outputs.length

/-- Where a link leads there is such a target, or a place at which links can start. -/
def HasLead (unfolding : Unfolding) : Lead → Prop
  | .target endpoint => ∃ top, unfolding.frames[0]? = some top ∧
      (unfolding.plan top.body top.binding).HasTarget endpoint
  | .onward source => ∃ frame, unfolding.frames[source.frame]? = some frame ∧
      frame.body.HasSource source.stop

/-- All that unfolding the body of a frame looks up is there. -/
structure FrameInRange (program : ResolvedProgram) (unfolding : Unfolding) (frame : Frame) :
    Prop where
  applied : frame.scope.Applied program
  uses : ∀ use ∈ frame.body.uses, use.Fits program
  sources : ∀ link ∈ frame.body.links, frame.body.HasSource link.source
  targets : ∀ link ∈ frame.body.links, frame.body.HasTarget link.target
  site : ∀ site, frame.site = some site → ∃ outer use,
    unfolding.use? site = some (outer, use) ∧
    use.inputs.length = frame.body.inputs.length ∧
    use.outputs.length = frame.body.outputs.length

/-- All that a run looks up from a state on is there. -/
structure InRange (program : ResolvedProgram) (pending : List Nat) (unfolding : Unfolding) :
    Prop where
  open_ : ∀ number ∈ pending, ∃ frame, unfolding.frames[number]? = some frame
  frames : ∀ (number : Nat) (frame : Frame), unfolding.frames[number]? = some frame →
    unfolding.FrameInRange program frame
  sites : unfolding.sites.size = unfolding.nodes.size
  nodes : ∀ (id : Nat) (site : UseSite), unfolding.sites[id]? = some site →
    ∃ frame use, unfolding.use? site = some (frame, use) ∧ unfolding.HasPorts use (.node id)
  parts : ∀ (number : Nat) (frame : Frame), unfolding.frames[number]? = some frame →
    number ∉ pending → ∀ (next : Nat) (use : ResolvedUse), frame.body.uses[next]? = some use →
      ∃ part, unfolding.part? ⟨number, next⟩ = some part ∧ unfolding.HasPorts use part
  leads : ∀ (number : Nat) (frame : Frame), unfolding.frames[number]? = some frame →
    number ∉ pending → ∀ link ∈ frame.body.links,
      ∃ lead, unfolding.lead? ⟨number, link.target⟩ = some lead ∧ unfolding.HasLead lead

end Unfolding

variable {program : ResolvedProgram} {depth : Nat}

/-- A body has the ports of the use that it stands for, and a symbol for each parameter. -/
theorem Scope.fits_of_become {scope inner : Scope} {use : ResolvedUse} {number next : Nat}
    (fits : use.Fits program)
    (become : scope.become program depth number use = some (.body inner, next)) :
    inner.Applied program ∧ use.inputs.length = inner.body.inputs.length ∧
      use.outputs.length = inner.body.outputs.length := by
  cases Scope.becomes_of_become become with
  | body target found bound few =>
      rw [ResolvedUse.Fits, target] at fits
      obtain ⟨callee, same, count, inputs, outputs⟩ := fits
      cases found.symm.trans same
      refine ⟨⟨_, _, _, rfl, found, ?_⟩, inputs, outputs⟩
      rw [← bound, Unfolding.length_bindArguments, count]
      rfl

namespace Unfolding

variable {root : Scope} {pending : List Nat} {unfolding : Unfolding}

/-! ## Traced states are in range -/

/-- A part has the ports of the use that has become it. -/
theorem Traced.hasPorts (sound : program.Sound)
    (traced : Traced program depth root pending unfolding) {site : UseSite} {part : Part}
    (found : unfolding.part? site = some part) :
    ∃ frame use, unfolding.use? site = some (frame, use) ∧ unfolding.HasPorts use part := by
  cases part with
  | node id =>
      obtain ⟨frame, use, before, after, node, huse, become, hnode, -⟩ := traced.node_of_part found
      obtain ⟨inputs, outputs, -⟩ := Scope.become_eq_node become
      exact ⟨frame, use, huse, node, hnode, by rw [inputs], by rw [outputs]⟩
  | frame number =>
      obtain ⟨frame, use, before, after, inner, huse, become, hinner, -⟩ :=
        traced.frame_of_part found
      obtain ⟨hframe, listed⟩ := use?_eq_some_iff.mp huse
      have fits := (traced.body_sound sound hframe).uses_fit use (List.mem_of_getElem? listed)
      obtain ⟨-, inputs, outputs⟩ := Scope.fits_of_become fits become
      exact ⟨frame, use, huse, inner, hinner, inputs.symm, outputs.symm⟩

/-- A frame lists its own definition, with a symbol for each parameter. -/
theorem Traced.applied (sound : program.Sound) (top : root.Applied program)
    (traced : Traced program depth root pending unfolding) {number : Nat} {frame : Frame}
    (found : unfolding.frames[number]? = some frame) : frame.scope.Applied program := by
  rcases traced.frame_cases found with ⟨-, rfl, -⟩ | ⟨site, -, hpart⟩
  · exact top
  · obtain ⟨outer, use, before, after, inner, huse, become, hinner, -⟩ :=
      traced.frame_of_part hpart
    cases found.symm.trans hinner
    obtain ⟨houter, listed⟩ := use?_eq_some_iff.mp huse
    have fits := (traced.body_sound sound houter).uses_fit use (List.mem_of_getElem? listed)
    exact (Scope.fits_of_become fits become).1

theorem Traced.frameInRange (sound : program.Sound) (top : root.Applied program)
    (traced : Traced program depth root pending unfolding) {number : Nat} {frame : Frame}
    (found : unfolding.frames[number]? = some frame) :
    unfolding.FrameInRange program frame := by
  have body := traced.body_sound sound found
  refine ⟨traced.applied sound top found, body.uses_fit, body.sources_exist, body.targets_exist, ?_⟩
  intro site hsite
  rcases traced.frame_cases found with ⟨-, -, none_⟩ | ⟨other, hother, hpart⟩
  · rw [none_] at hsite
    cases hsite
  · cases hother.symm.trans hsite
    obtain ⟨outer, use, huse, inner, hinner, inputs, outputs⟩ := traced.hasPorts sound hpart
    cases found.symm.trans hinner
    exact ⟨outer, use, huse, inputs.symm, outputs.symm⟩

/-- Every use of a frame that is not pending has become a part with its ports. -/
theorem Traced.part_of_use (sound : program.Sound)
    (traced : Traced program depth root pending unfolding) {number next : Nat} {frame : Frame}
    {use : ResolvedUse} (found : unfolding.frames[number]? = some frame)
    (outside : number ∉ pending) (listed : frame.body.uses[next]? = some use) :
    ∃ part, unfolding.part? ⟨number, next⟩ = some part ∧ unfolding.HasPorts use part := by
  obtain ⟨outcomes, first, last, become, length, -⟩ := traced.settled number frame found outside
  have count := (Scope.becomeAll_getElem? become).1
  have below : next < frame.parts.length := by
    have inside := (List.getElem?_eq_some_iff.mp listed).1
    omega
  have hpart : unfolding.part? ⟨number, next⟩ = some frame.parts[next] := by
    simp [part?, found, List.getElem?_eq_getElem below]
  obtain ⟨other, used, huse, ports⟩ := traced.hasPorts sound hpart
  obtain ⟨hother, hused⟩ := use?_eq_some_iff.mp huse
  cases found.symm.trans hother
  cases listed.symm.trans hused
  exact ⟨_, hpart, ports⟩

/-- Every link of a frame that is not pending leads to what is there. -/
theorem Traced.lead_of_link (sound : program.Sound)
    (traced : Traced program depth root pending unfolding) {number : Nat} {frame : Frame}
    (found : unfolding.frames[number]? = some frame) (outside : number ∉ pending)
    {link : ResolvedLink} (member : link ∈ frame.body.links) :
    ∃ lead, unfolding.lead? ⟨number, link.target⟩ = some lead ∧ unfolding.HasLead lead := by
  obtain ⟨top, htop, -⟩ := traced.root_frame
  have there := (traced.body_sound sound found).targets_exist link member
  cases hstop : link.target with
  | boundary port =>
      rw [hstop] at there
      rw [lead?_boundary found]
      rcases traced.frame_cases found with ⟨rfl, -, hsite⟩ | ⟨site, hsite, hpart⟩
      · rw [hsite]
        exact ⟨_, rfl, frame, found, there⟩
      · rw [hsite]
        obtain ⟨outer, use, huse, inner, hinner, -, outputs⟩ := traced.hasPorts sound hpart
        cases found.symm.trans hinner
        obtain ⟨houter, listed⟩ := use?_eq_some_iff.mp huse
        exact ⟨_, rfl, outer, houter, use, listed, outputs ▸ there⟩
  | use next port =>
      rw [hstop] at there
      obtain ⟨use, listed, below⟩ := there
      obtain ⟨part, hpart, ports⟩ := traced.part_of_use sound found outside listed
      rw [lead?_use, hpart]
      cases part with
      | node id =>
          obtain ⟨node, hnode, inputs, -⟩ := ports
          exact ⟨_, rfl, top, htop, node, hnode, inputs ▸ below⟩
      | frame inner =>
          obtain ⟨body, hinner, inputs, -⟩ := ports
          rw [← inputs] at below
          exact ⟨_, rfl, body, hinner, below⟩

/-- Where everything is traced, all that is looked up is there. -/
theorem Traced.inRange (sound : program.Sound) (top : root.Applied program)
    (traced : Traced program depth root pending unfolding) :
    unfolding.InRange program pending where
  open_ number member := by
    obtain ⟨frame, found, -⟩ := traced.open_ number member
    exact ⟨frame, found⟩
  frames _ _ found := traced.frameInRange sound top found
  sites := traced.sites
  nodes _ _ found := traced.hasPorts sound (traced.part_of_node found)
  parts _ _ found outside _ _ listed := traced.part_of_use sound found outside listed
  leads _ _ found outside _ member := traced.lead_of_link sound found outside member

/-! ## Runs -/

variable {limits : UnfoldingLimits}

/-- Everything is traced in every state that a run comes to. -/
theorem Reached.traced (sound : program.Sound) {start : Unfolding}
    (traced : Traced program limits.depth root [0] start)
    (reached : Reached program limits start pending unfolding) :
    Traced program limits.depth root pending unfolding := by
  induction reached with
  | start => exact traced
  | unfold _ unfolded ih => exact ih.unfoldFrame sound unfolded

/-- The state in which a run ends is one that it comes to. -/
theorem Reached.unfoldAll {start final : Unfolding}
    (reached : Reached program limits start pending unfolding)
    (run : unfolding.unfoldAll program limits pending = .ok final) :
    Reached program limits start [] final :=
  unfoldAll_keeps (fun reached unfolded => reached.unfold unfolded) reached run

/-! ## Errors -/

theorem addNode_eq_error {site : UseSite} {use : ResolvedUse} {kind : NodeKind}
    {provenance : Provenance} {error : UnfoldingError}
    (failed : unfolding.addNode limits site use kind provenance = .error error) :
    error = .budget limits.nodes := by
  unfold addNode charge at failed
  split at failed
  · cases failed
  · cases failed
    rfl

theorem addFrame_eq_error {frame : Frame} {error : UnfoldingError}
    (failed : unfolding.addFrame limits frame = .error error) : error = .budget limits.nodes := by
  unfold addFrame charge at failed
  split at failed
  · cases failed
  · cases failed
    rfl

/-- A use that fits can only fail for want of room. -/
theorem unfoldUse_eq_error {frame : Frame} {site : UseSite} {use : ResolvedUse}
    (fits : use.Fits program) {error : UnfoldingError}
    (failed : unfolding.unfoldUse program limits frame site use = .error error) :
    error = .budget limits.nodes := by
  unfold unfoldUse at failed
  unfold ResolvedUse.Fits at fits
  cases htarget : use.target with
  | primitive primitive =>
      rw [htarget] at failed
      exact addNode_eq_error failed
  | definition index arguments fresh =>
      rw [htarget] at failed fits
      obtain ⟨callee, found, -⟩ := fits
      simp only [unfoldDefinition, found] at failed
      split at failed
      · exact addNode_eq_error failed
      · exact addFrame_eq_error failed

theorem unfoldUses_eq_error {frame : Frame} {number next : Nat} {uses : List ResolvedUse}
    (fit : ∀ use ∈ uses, use.Fits program) {error : UnfoldingError}
    (failed : unfolding.unfoldUses program limits frame number next uses = .error error) :
    error = .budget limits.nodes := by
  induction uses generalizing unfolding next with
  | nil => cases failed
  | cons use rest ih =>
      rw [unfoldUses_cons] at failed
      rcases error_of_bind failed with first | ⟨middle, -, failed⟩
      · exact unfoldUse_eq_error (fit use (by simp)) first
      · rcases error_of_bind failed with later | ⟨final, -, failed⟩
        · exact ih (fun other member => fit other (by simp [member])) later
        · cases failed

theorem Traced.unfoldFrame_eq_error (sound : program.Sound)
    (traced : Traced program depth root pending unfolding) {number : Nat}
    {error : UnfoldingError}
    (failed : unfolding.unfoldFrame program limits number = .error error) :
    error = .budget limits.nodes := by
  unfold Unfolding.unfoldFrame at failed
  split at failed
  · cases failed
  · rename_i frame found
    have fit := (traced.body_sound sound found).uses_fit
    rcases error_of_bind failed with uses | ⟨placed, -, failed⟩
    · exact unfoldUses_eq_error fit uses
    · cases failed

/-- A run ends, or fails for want of time or of room. -/
theorem Traced.unfoldAll_eq_error (sound : program.Sound)
    (traced : Traced program limits.depth root pending unfolding) {error : UnfoldingError}
    (failed : unfolding.unfoldAll program limits pending = .error error) :
    error = .budget limits.nodes ∨ limits.expired = true ∧ error = .deadline := by
  induction unfolding, pending using unfoldAll.induct program limits with
  | case1 unfolding =>
      rw [Unfolding.unfoldAll] at failed
      cases failed
  | case2 unfolding number rest expired =>
      rw [Unfolding.unfoldAll_step, if_pos expired] at failed
      cases failed
      exact .inr ⟨expired, rfl⟩
  | case3 unfolding number rest inTime other hother =>
      rw [Unfolding.unfoldAll_step, if_neg inTime, hother] at failed
      cases failed
      exact .inl (traced.unfoldFrame_eq_error sound hother)
  | case4 unfolding number rest inTime after later hframe ih =>
      rw [Unfolding.unfoldAll_cons (by simpa using inTime) hframe] at failed
      exact ih (traced.unfoldFrame sound hframe) failed

end Unfolding

end FlowDiagram

import FlowDiagram.PortGraph
import FlowDiagram.Resolution.Body

/-!
# Unfolding a definition

Unfolding replaces every use of a definition by the body of that definition, again and again, until
only primitives are left.  Each body unfolded is a frame: it binds the generic symbols of its
definition, and knows the bodies it lies in.  A use of a definition that already lies in more frames
of the same definition and universal symbols than the depth allows is cut off.  Nodes and frames are
charged against a budget, one each, so unfolding ends.
-/

namespace FlowDiagram

/-! ## Frames -/

/-- A definition by its number, and the symbols bound to its generic symbols. -/
structure Application where
  definition : Nat
  binding : List Symbol
  deriving DecidableEq

/-- What has become of a use: a node, or a frame of its own. -/
inductive Part where
  | node (id : Nat)
  | frame (number : Nat)
  deriving DecidableEq

/-- A use by the number of the frame in whose body it stands and its own number there. -/
structure UseSite where
  frame : Nat
  use : Nat
  deriving DecidableEq

/-- A body being unfolded. -/
structure Frame where
  body : ResolvedDefinition
  /-- What is unfolded here and in the frames around, innermost first. -/
  applications : List Application
  level : Nat
  path : List String
  /-- The use that this frame stands for; none for the root. -/
  site : Option UseSite
  /-- What has become of the uses of the body, as far as they have been unfolded. -/
  parts : List Part

/-- The symbols bound to the generic symbols of a frame's definition. -/
def Frame.binding (frame : Frame) : List Symbol :=
  (frame.applications.head?.map (·.binding)).getD []

/-- What a symbol written in a definition stands for under a binding. -/
def ResolvedDefinition.bind (definition : ResolvedDefinition) (binding : List Symbol)
    (symbol : Symbol) : Symbol :=
  ((definition.parameters.zip binding).lookup symbol).getD symbol

/--
The symbols that a use passes on: `fresh` ones behind the universal ones are made by the
introduction number `number`, all others are bound in the enclosing body.
-/
def bindArguments (bind : Symbol → Symbol) (number universal : Nat) (fresh : Bool)
    (arguments : List Symbol) : List Symbol :=
  if fresh then
    (arguments.take universal).map bind ++
      (arguments.drop universal).map (Symbol.fresh · number)
  else arguments.map bind

/-- How many of the applications are of this definition to these universal symbols. -/
def occurrences (applications : List Application) (definition : Nat)
    (universal : List Symbol) : Nat :=
  applications.countP fun application =>
    application.definition == definition && universal.isPrefixOf application.binding

/-! ## What has been unfolded -/

structure Unfolding where
  /-- The frame number 0 is the root. -/
  frames : Array Frame
  nodes : Array Node
  /-- The uses that the nodes stand for. -/
  sites : Array UseSite
  /-- The number of the next introduction of symbols. -/
  introduction : Nat

/-- What limits unfolding. -/
structure UnfoldingLimits where
  depth : Nat
  nodes : Nat
  /-- Whether unfolding is stopped by the clock, which it looks at before each frame. -/
  expired : Bool

/-- Why unfolding a root failed. -/
inductive UnfoldingError where
  | generatorCount (root : String) (expected given : Nat)
  | budget (limit : Nat)
  | deadline
  /-- A use refers to a definition that is not there. -/
  | unknownDefinition (index : Nat)
  /-- The edges found do not fit the nodes. -/
  | malformed (error : GraphError)
  deriving DecidableEq

namespace Unfolding

/-- What has been charged: nodes and frames. -/
def charged (unfolding : Unfolding) : Nat :=
  unfolding.nodes.size + unfolding.frames.size

/-- The budget must have something left. -/
def charge (limits : UnfoldingLimits) (unfolding : Unfolding) : Except UnfoldingError Unit :=
  if unfolding.charged < limits.nodes then .ok () else .error (.budget limits.nodes)

/-- A use becomes a node. -/
def addNode (limits : UnfoldingLimits) (unfolding : Unfolding) (site : UseSite) (use : ResolvedUse)
    (kind : NodeKind) (provenance : Provenance) : Except UnfoldingError (Unfolding × Part) := do
  unfolding.charge limits
  let part := Part.node unfolding.nodes.size
  return ({ unfolding with
    nodes := unfolding.nodes.push ⟨kind, use.inputs, use.outputs, provenance⟩
    sites := unfolding.sites.push site }, part)

/-- A use becomes a frame. -/
def addFrame (limits : UnfoldingLimits) (unfolding : Unfolding) (frame : Frame) :
    Except UnfoldingError (Unfolding × Part) := do
  unfolding.charge limits
  let part := Part.frame unfolding.frames.size
  return ({ unfolding with frames := unfolding.frames.push frame }, part)

/-- Unfold a use of the definition `index` with the given arguments. -/
def unfoldDefinition (program : ResolvedProgram) (limits : UnfoldingLimits) (frame : Frame)
    (site : UseSite) (unfolding : Unfolding) (use : ResolvedUse) (index : Nat)
    (arguments : List Symbol) (fresh : Bool) : Except UnfoldingError (Unfolding × Part) :=
  match program.definitions[index]? with
  | none => .error (.unknownDefinition index)
  | some callee =>
    let universal := callee.universal.length
    let symbols := bindArguments (frame.body.bind frame.binding) unfolding.introduction universal
      fresh arguments
    let introduces := fresh && decide (universal < arguments.length)
    let unfolding := { unfolding with
      introduction := unfolding.introduction + if introduces then 1 else 0 }
    let path := frame.path ++ [use.name]
    let depth := occurrences frame.applications index (symbols.take universal)
    if limits.depth < depth then
      unfolding.addNode limits site use (.truncated callee.name symbols)
        ⟨path, frame.body.name, depth, true, use.span⟩
    else
      unfolding.addFrame limits
        { body := callee
          applications := ⟨index, symbols⟩ :: frame.applications
          level := if 0 < depth then depth else frame.level
          path := path
          site := some site
          parts := [] }

/-- Unfold one use of the body of a frame. -/
def unfoldUse (program : ResolvedProgram) (limits : UnfoldingLimits) (frame : Frame)
    (site : UseSite) (unfolding : Unfolding) (use : ResolvedUse) :
    Except UnfoldingError (Unfolding × Part) :=
  match use.target with
  | .primitive primitive =>
    unfolding.addNode limits site use
      (.primitive (primitive.rename (frame.body.bind frame.binding)))
      ⟨frame.path ++ [use.name], frame.body.name, frame.level, false, use.span⟩
  | .definition index arguments fresh =>
    unfolding.unfoldDefinition program limits frame site use index arguments fresh

/-- Unfold the uses of the body of the frame `number`, from the use `next` on. -/
def unfoldUses (program : ResolvedProgram) (limits : UnfoldingLimits) (frame : Frame)
    (number : Nat) :
    Unfolding → Nat → List ResolvedUse → Except UnfoldingError (Unfolding × List Part)
  | unfolding, _, [] => .ok (unfolding, [])
  | unfolding, next, use :: rest => do
    let (unfolding, part) ← unfolding.unfoldUse program limits frame ⟨number, next⟩ use
    let (unfolding, parts) ← unfolding.unfoldUses program limits frame number (next + 1) rest
    return (unfolding, part :: parts)

/-- The frames among parts. -/
def framesOf (parts : List Part) : List Nat :=
  parts.filterMap fun
    | .frame number => some number
    | .node _ => none

/-- Unfold the body of a frame; the frames that its uses became are still to be unfolded. -/
def unfoldFrame (program : ResolvedProgram) (limits : UnfoldingLimits) (unfolding : Unfolding)
    (number : Nat) : Except UnfoldingError (Unfolding × List Nat) :=
  match unfolding.frames[number]? with
  | none => .ok (unfolding, [])
  | some frame => do
    let (unfolding, parts) ← unfolding.unfoldUses program limits frame number 0 frame.body.uses
    return ({ unfolding with
      frames := unfolding.frames.modify number fun frame => { frame with parts := parts } },
      framesOf parts)

/-! ## The budget bounds the work -/

/-- What is left of the budget. -/
def room (limits : UnfoldingLimits) (unfolding : Unfolding) : Nat :=
  limits.nodes - unfolding.charged

private theorem charged_lt_of_charge {limits : UnfoldingLimits} {unfolding : Unfolding}
    (paid : unfolding.charge limits = .ok ()) : unfolding.charged < limits.nodes := by
  unfold charge at paid
  split at paid
  · assumption
  · cases paid

theorem charged_addNode {limits : UnfoldingLimits} {unfolding after : Unfolding} {site : UseSite}
    {use : ResolvedUse} {kind : NodeKind} {provenance : Provenance} {part : Part}
    (added : unfolding.addNode limits site use kind provenance = .ok (after, part)) :
    unfolding.charged < limits.nodes ∧ after.charged = unfolding.charged + 1 := by
  unfold addNode at added
  cases paid : unfolding.charge limits with
  | error error => simp [paid, bind, Except.bind] at added
  | ok value =>
    simp only [paid, bind, Except.bind, pure, Except.pure, Except.ok.injEq, Prod.mk.injEq] at added
    refine ⟨charged_lt_of_charge paid, ?_⟩
    rw [← added.1]
    simp [charged]
    omega

theorem charged_addFrame {limits : UnfoldingLimits} {unfolding after : Unfolding} {frame : Frame}
    {part : Part} (added : unfolding.addFrame limits frame = .ok (after, part)) :
    unfolding.charged < limits.nodes ∧ after.charged = unfolding.charged + 1 := by
  unfold addFrame at added
  cases paid : unfolding.charge limits with
  | error error => simp [paid, bind, Except.bind] at added
  | ok value =>
    simp only [paid, bind, Except.bind, pure, Except.pure, Except.ok.injEq, Prod.mk.injEq] at added
    refine ⟨charged_lt_of_charge paid, ?_⟩
    rw [← added.1]
    simp [charged]
    omega

theorem charged_unfoldUse {program : ResolvedProgram} {limits : UnfoldingLimits} {frame : Frame}
    {site : UseSite} {unfolding after : Unfolding} {use : ResolvedUse} {part : Part}
    (unfolded : unfolding.unfoldUse program limits frame site use = .ok (after, part)) :
    unfolding.charged < limits.nodes ∧ after.charged = unfolding.charged + 1 := by
  unfold unfoldUse at unfolded
  split at unfolded
  · exact charged_addNode unfolded
  · unfold unfoldDefinition at unfolded
    split at unfolded
    · cases unfolded
    · dsimp only at unfolded
      split at unfolded
      · have counted := charged_addNode unfolded
        exact counted
      · have counted := charged_addFrame unfolded
        exact counted

/-- Every use unfolded is charged once, and never beyond the budget. -/
theorem charged_unfoldUses {program : ResolvedProgram} {limits : UnfoldingLimits} {frame : Frame}
    {number next : Nat} {unfolding after : Unfolding} {uses : List ResolvedUse}
    {parts : List Part}
    (unfolded : unfolding.unfoldUses program limits frame number next uses = .ok (after, parts)) :
    after.charged = unfolding.charged + parts.length ∧
      (parts ≠ [] → after.charged ≤ limits.nodes) := by
  induction uses generalizing unfolding next parts with
  | nil =>
    simp only [unfoldUses, Except.ok.injEq, Prod.mk.injEq] at unfolded
    simp [← unfolded.1, ← unfolded.2]
  | cons use rest ih =>
    rw [unfoldUses] at unfolded
    cases first : unfolding.unfoldUse program limits frame ⟨number, next⟩ use with
    | error error => simp [first, bind, Except.bind] at unfolded
    | ok result =>
      obtain ⟨middle, part⟩ := result
      cases later : middle.unfoldUses program limits frame number (next + 1) rest with
      | error error => simp [first, later, bind, Except.bind] at unfolded
      | ok result =>
        obtain ⟨final, others⟩ := result
        simp only [first, later, bind, Except.bind, pure, Except.pure, Except.ok.injEq,
          Prod.mk.injEq] at unfolded
        obtain ⟨rfl, rfl⟩ := unfolded
        obtain ⟨below, step⟩ := charged_unfoldUse first
        obtain ⟨total, within⟩ := ih later
        refine ⟨by simp [total, step]; omega, fun _ => ?_⟩
        cases others with
        | nil => simp at total; omega
        | cons _ _ => exact within (by simp)

theorem length_framesOf_le (parts : List Part) : (framesOf parts).length ≤ parts.length :=
  List.length_filterMap_le _ _

/-- A frame takes as much room as it leaves frames to be unfolded, at least. -/
theorem room_unfoldFrame {program : ResolvedProgram} {limits : UnfoldingLimits}
    {unfolding after : Unfolding} {number : Nat} {later : List Nat}
    (unfolded : unfolding.unfoldFrame program limits number = .ok (after, later)) :
    after.room limits + later.length ≤ unfolding.room limits := by
  unfold unfoldFrame at unfolded
  split at unfolded
  · simp only [Except.ok.injEq, Prod.mk.injEq] at unfolded
    simp [← unfolded.1, ← unfolded.2]
  · rename_i frame found
    cases uses : unfolding.unfoldUses program limits frame number 0 frame.body.uses with
    | error error => simp [uses, bind, Except.bind] at unfolded
    | ok result =>
      obtain ⟨middle, parts⟩ := result
      simp only [uses, bind, Except.bind, pure, Except.pure, Except.ok.injEq,
        Prod.mk.injEq] at unfolded
      obtain ⟨rfl, rfl⟩ := unfolded
      obtain ⟨total, within⟩ := charged_unfoldUses uses
      have few := length_framesOf_le parts
      simp only [room, charged, Array.size_modify] at *
      cases parts with
      | nil => simp [framesOf] at *; omega
      | cons part others =>
        have := within (by simp)
        omega

/-! ## All frames -/

/-- Unfold the frames still to be unfolded, each with all that is in it before the next. -/
def unfoldAll (program : ResolvedProgram) (limits : UnfoldingLimits) (unfolding : Unfolding)
    (pending : List Nat) : Except UnfoldingError Unfolding :=
  match pending with
  | [] => .ok unfolding
  | number :: rest =>
    if limits.expired then .error .deadline
    else
      match _unfolded : unfolding.unfoldFrame program limits number with
      | .error error => .error error
      | .ok (after, later) => after.unfoldAll program limits (later ++ rest)
termination_by unfolding.room limits + pending.length
decreasing_by
  have := room_unfoldFrame _unfolded
  simp only [List.length_append, List.length_cons]
  omega

/-- The root under a binding, with nothing unfolded yet. -/
def ofRoot (root : Nat) (body : ResolvedDefinition) (binding : List Symbol) : Unfolding where
  frames := #[{ body, applications := [⟨root, binding⟩], level := 0, path := [], site := none,
                parts := [] }]
  nodes := #[]
  sites := #[]
  introduction := 1

end Unfolding

end FlowDiagram

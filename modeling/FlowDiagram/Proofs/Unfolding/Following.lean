import FlowDiagram.Proofs.Unfolding.Paths
import FlowDiagram.Unfolding.Edges
import Mathlib.Data.List.Nodup
import Mathlib.Data.List.Perm.Subperm

/-!
# Following links

Following links from a place finds exactly the targets that are linked to it, each once.  No two
links end at one place and no two places lead to the same, so what is found is a tree: no place is
come to twice, even where instances are wired in a loop, and as many steps are enough as there are
links.
-/

namespace FlowDiagram

namespace Unfolding

variable {program : ResolvedProgram} {depth : Nat} {root : Scope} {unfolding : Unfolding}

/-! ## One step -/

/-- The places that the links behind a place end at. -/
def nexts (unfolding : Unfolding) (place : Place) : List Place :=
  match unfolding.lead? place with
  | some (.onward source) => unfolding.linksFrom source
  | _ => []

/-- The target that a place leads to, if it is one. -/
def finds (unfolding : Unfolding) (place : Place) : List Endpoint :=
  match unfolding.lead? place with
  | some (.target endpoint) => [endpoint]
  | _ => []

theorem mem_nexts_iff {place next : Place} :
    next ∈ unfolding.nexts place ↔
      ∃ source, unfolding.lead? place = some (.onward source) ∧
        next ∈ unfolding.linksFrom source := by
  unfold nexts
  cases unfolding.lead? place with
  | none => simp
  | some lead => cases lead <;> simp

theorem mem_finds_iff {place : Place} {endpoint : Endpoint} :
    endpoint ∈ unfolding.finds place ↔
      unfolding.lead? place = some (.target endpoint) := by
  unfold finds
  cases unfolding.lead? place with
  | none => simp
  | some lead => cases lead <;> simp [eq_comm]

theorem follow_cons (steps : Nat) {place : Place} {seen : List Place} (fresh : place ∉ seen)
    (rest : List Place) :
    unfolding.follow (steps + 1) (place :: rest) seen =
      unfolding.finds place ++
        unfolding.follow steps (unfolding.nexts place ++ rest) (place :: seen) := by
  unfold finds nexts
  rw [follow, if_neg fresh]
  cases unfolding.lead? place with
  | none => rfl
  | some lead => cases lead <;> rfl

theorem lead?_boundary {frame : Frame} {number : Nat}
    (found : unfolding.frames[number]? = some frame) (port : Nat) :
    unfolding.lead? ⟨number, .boundary port⟩ =
      match frame.site with
      | none => some (.target (.output port))
      | some site => some (.onward ⟨site.frame, .use site.use port⟩) := by
  cases hsite : frame.site with
  | none => simp [lead?, found, hsite]
  | some site => simp [lead?, found, hsite]

theorem lead?_use (number use port : Nat) :
    unfolding.lead? ⟨number, .use use port⟩ =
      (unfolding.part? ⟨number, use⟩).map fun
        | .node id => .target (.node id port)
        | .frame inner => .onward ⟨inner, .boundary port⟩ := by
  simp only [lead?, part?]
  cases unfolding.frames[number]? with
  | none => rfl
  | some frame =>
      simp only [Option.bind_some]
      cases frame.parts[use]? with
      | none => rfl
      | some part => cases part <;> rfl

/-! ## Nothing is come to twice -/

/-- Where a boundary leads: out of the root, or on from the use that its frame stands for. -/
theorem Traced.lead_boundary (traced : Traced program depth root [] unfolding) {number port : Nat}
    {lead : Lead} (leads : unfolding.lead? ⟨number, .boundary port⟩ = some lead) :
    (number = 0 ∧ lead = .target (.output port)) ∨
      ∃ site, unfolding.part? site = some (.frame number) ∧
        lead = .onward ⟨site.frame, .use site.use port⟩ := by
  cases hframe : unfolding.frames[number]? with
  | none => simp [lead?, hframe] at leads
  | some frame =>
      rw [lead?_boundary hframe] at leads
      rcases traced.frame_cases hframe with ⟨zero, -, hsite⟩ | ⟨site, hsite, hpart⟩
      · rw [hsite] at leads
        exact .inl ⟨zero, (Option.some.inj leads).symm⟩
      · rw [hsite] at leads
        exact .inr ⟨site, hpart, (Option.some.inj leads).symm⟩

/-- Where a port of a use leads: to the node that the use has become, or into its frame. -/
theorem lead_use {number use port : Nat} {lead : Lead}
    (leads : unfolding.lead? ⟨number, .use use port⟩ = some lead) :
    (∃ id, unfolding.part? ⟨number, use⟩ = some (.node id) ∧ lead = .target (.node id port)) ∨
      ∃ inner, unfolding.part? ⟨number, use⟩ = some (.frame inner) ∧
        lead = .onward ⟨inner, .boundary port⟩ := by
  rw [lead?_use, Option.map_eq_some_iff] at leads
  obtain ⟨part, hpart, rfl⟩ := leads
  cases part with
  | node id => exact .inl ⟨id, hpart, rfl⟩
  | frame inner => exact .inr ⟨inner, hpart, rfl⟩

/-- The place that leads to a target or a source, if one does. -/
def leader? (unfolding : Unfolding) : Lead → Option Place
  | .target ⟨.inputs, _⟩ => none
  | .target ⟨.outputs, port⟩ => some ⟨0, .boundary port⟩
  | .target ⟨.node id, port⟩ =>
    unfolding.sites[id]?.map fun site => ⟨site.frame, .use site.use port⟩
  | .onward ⟨number, .boundary port⟩ =>
    (unfolding.frames[number]?.bind (·.site)).map fun site => ⟨site.frame, .use site.use port⟩
  | .onward ⟨number, .use use port⟩ =>
    match unfolding.part? ⟨number, use⟩ with
    | some (.frame inner) => some ⟨inner, .boundary port⟩
    | _ => none

theorem Traced.leader_of_lead (traced : Traced program depth root [] unfolding) {place : Place}
    {lead : Lead} (leads : unfolding.lead? place = some lead) :
    unfolding.leader? lead = some place := by
  obtain ⟨number, stop⟩ := place
  cases stop with
  | boundary port =>
      rcases traced.lead_boundary leads with ⟨rfl, rfl⟩ | ⟨site, hpart, rfl⟩
      · rfl
      · simp [leader?, hpart]
  | use use port =>
      rcases lead_use leads with ⟨id, hpart, rfl⟩ | ⟨inner, hpart, rfl⟩
      · obtain ⟨_, _, _, _, _, -, -, -, hsite⟩ := traced.node_of_part hpart
        simp [leader?, Endpoint.node, hsite]
      · obtain ⟨_, _, _, _, _, -, -, hinner, hsite⟩ := traced.frame_of_part hpart
        simp [leader?, hinner, hsite]

/-- Different places lead to different targets and sources. -/
theorem Traced.lead_injective (traced : Traced program depth root [] unfolding)
    {place other : Place} {lead : Lead} (leads : unfolding.lead? place = some lead)
    (otherLeads : unfolding.lead? other = some lead) : place = other :=
  Option.some.inj ((traced.leader_of_lead leads).symm.trans (traced.leader_of_lead otherLeads))

theorem mem_linksFrom_iff {source target : Place} :
    target ∈ unfolding.linksFrom source ↔
      ∃ frame link, unfolding.frames[source.frame]? = some frame ∧ link ∈ frame.body.links ∧
        link.source = source.stop ∧ target = ⟨source.frame, link.target⟩ := by
  unfold linksFrom
  cases unfolding.frames[source.frame]? with
  | none => simp
  | some frame =>
      simp only [List.mem_map, List.mem_filter, beq_iff_eq, Option.some.injEq]
      constructor
      · rintro ⟨link, ⟨member, starts⟩, rfl⟩
        exact ⟨frame, link, rfl, member, starts, rfl⟩
      · rintro ⟨_, link, rfl, member, starts, rfl⟩
        exact ⟨link, ⟨member, starts⟩, rfl⟩

theorem Traced.nodup_linksFrom (sound : program.Sound)
    (traced : Traced program depth root [] unfolding) (source : Place) :
    (unfolding.linksFrom source).Nodup := by
  unfold linksFrom
  cases hframe : unfolding.frames[source.frame]? with
  | none => exact List.nodup_nil
  | some frame =>
      have few : ((frame.body.links.filter (·.source == source.stop)).map (·.target)).Nodup :=
        (traced.body_sound sound hframe).targets_distinct.sublist (List.filter_sublist.map _)
      have placed := few.map fun first second (same : Place.mk source.frame first =
        Place.mk source.frame second) => (Place.mk.inj same).2
      rwa [List.map_map] at placed

/-- A place is the end of links from one source only. -/
theorem Traced.source_unique (sound : program.Sound)
    (traced : Traced program depth root [] unfolding) {source other target : Place}
    (linked : target ∈ unfolding.linksFrom source)
    (otherLinked : target ∈ unfolding.linksFrom other) : source = other := by
  obtain ⟨number, stop⟩ := source
  obtain ⟨otherNumber, otherStop⟩ := other
  obtain ⟨frame, link, hframe, hlink, rfl, rfl⟩ := mem_linksFrom_iff.mp linked
  obtain ⟨_, otherLink, hsame, hother, rfl, same⟩ := mem_linksFrom_iff.mp otherLinked
  simp only [Place.mk.injEq] at same hframe hsame
  obtain ⟨rfl, sameTarget⟩ := same
  cases hframe.symm.trans hsame
  have distinct := (traced.body_sound sound hframe).targets_distinct
  rw [List.inj_on_of_nodup_map distinct hlink hother sameTarget]

/-- Nothing leads to where the links start. -/
def Starts (unfolding : Unfolding) (start : Place) : Prop :=
  ∀ place, unfolding.lead? place ≠ some (.onward start)

theorem Starts.not_mem_nexts (sound : program.Sound)
    (traced : Traced program depth root [] unfolding) {start : Place}
    (starts : unfolding.Starts start) {next : Place} (linked : next ∈ unfolding.linksFrom start)
    (before : Place) : next ∉ unfolding.nexts before := by
  intro member
  obtain ⟨source, leads, also⟩ := mem_nexts_iff.mp member
  rw [traced.source_unique sound linked also] at starts
  exact starts before leads

/-- A place is next to one place only. -/
theorem Traced.nexts_unique (sound : program.Sound)
    (traced : Traced program depth root [] unfolding) {before other next : Place}
    (follows : next ∈ unfolding.nexts before) (otherFollows : next ∈ unfolding.nexts other) :
    before = other := by
  obtain ⟨source, leads, linked⟩ := mem_nexts_iff.mp follows
  obtain ⟨otherSource, otherLeads, otherLinked⟩ := mem_nexts_iff.mp otherFollows
  rw [traced.source_unique sound otherLinked linked] at otherLeads
  exact traced.lead_injective leads otherLeads

/-! ## As many steps as links -/

/-- The places at which links end, in all frames. -/
def linkEnds (unfolding : Unfolding) : List Place :=
  unfolding.frames.toList.zipIdx.flatMap fun (frame, number) =>
    frame.body.links.map fun link => ⟨number, link.target⟩

theorem length_linkEnds (unfolding : Unfolding) :
    unfolding.linkEnds.length = unfolding.linkCount := by
  have counted : ∀ (frames : List Frame) (from_ count : Nat),
      count + ((frames.zipIdx from_).flatMap fun (frame, number) =>
          frame.body.links.map fun link => Place.mk number link.target).length =
        frames.foldl (fun count frame => count + frame.body.links.length) count := by
    intro frames
    induction frames with
    | nil => intro from_ count; rfl
    | cons frame rest ih =>
        intro from_ count
        rw [List.foldl_cons, ← ih (from_ + 1), List.zipIdx_cons, List.flatMap_cons,
          List.length_append, List.length_map]
        omega
  rw [linkCount, ← Array.foldl_toList, ← counted _ 0 0, Nat.zero_add]
  rfl

theorem mem_linkEnds {source target : Place} (linked : target ∈ unfolding.linksFrom source) :
    target ∈ unfolding.linkEnds := by
  obtain ⟨frame, link, hframe, hlink, -, rfl⟩ := mem_linksFrom_iff.mp linked
  refine List.mem_flatMap.mpr ⟨(frame, source.frame), ?_, List.mem_map.mpr ⟨link, hlink, rfl⟩⟩
  exact List.mem_zipIdx_iff_getElem?.mpr (by simpa using hframe)

/-! ## The search -/

/-- A place that following links from `start` comes to. -/
inductive Reaches (unfolding : Unfolding) (start : Place) : Place → Prop where
  | linked {place : Place} (linked : place ∈ unfolding.linksFrom start) :
      Reaches unfolding start place
  | next {place next : Place} (reached : Reaches unfolding start place)
      (follows : next ∈ unfolding.nexts place) : Reaches unfolding start next

theorem Reaches.mem_linkEnds {start place : Place} (reached : unfolding.Reaches start place) :
    place ∈ unfolding.linkEnds := by
  cases reached with
  | linked linked => exact Unfolding.mem_linkEnds linked
  | next reached follows =>
      obtain ⟨source, -, linked⟩ := mem_nexts_iff.mp follows
      exact Unfolding.mem_linkEnds linked

/-- How far a search from `start` has come: the places ahead of it and those behind. -/
structure Searching (unfolding : Unfolding) (start : Place) (ahead behind : List Place) :
    Prop where
  distinct : (ahead ++ behind).Nodup
  reached : ∀ place ∈ ahead ++ behind, unfolding.Reaches start place
  /-- What is linked to the start or next to a place behind has been come to. -/
  linked : ∀ place ∈ unfolding.linksFrom start, place ∈ ahead ++ behind
  followed : ∀ before ∈ behind, ∀ place ∈ unfolding.nexts before, place ∈ ahead ++ behind
  /-- Nothing else has. -/
  origin : ∀ place ∈ ahead ++ behind,
    place ∈ unfolding.linksFrom start ∨ ∃ before ∈ behind, place ∈ unfolding.nexts before

theorem Searching.start (sound : program.Sound) (traced : Traced program depth root [] unfolding)
    (start : Place) : unfolding.Searching start (unfolding.linksFrom start) [] where
  distinct := by
    rw [List.append_nil]
    exact traced.nodup_linksFrom sound start
  reached := by
    intro place member
    rw [List.append_nil] at member
    exact .linked member
  linked := by
    intro place member
    rwa [List.append_nil]
  followed := nofun
  origin := by
    intro place member
    rw [List.append_nil] at member
    exact .inl member

theorem nodup_nexts (sound : program.Sound) (traced : Traced program depth root [] unfolding)
    (place : Place) : (unfolding.nexts place).Nodup := by
  unfold nexts
  split
  · exact traced.nodup_linksFrom sound _
  · exact List.nodup_nil

/-- What is next to a place ahead has not been come to yet. -/
theorem Searching.nexts_fresh (sound : program.Sound)
    (traced : Traced program depth root [] unfolding) {start place : Place}
    {ahead behind : List Place} (starts : unfolding.Starts start)
    (searching : unfolding.Searching start (place :: ahead) behind) {next : Place}
    (follows : next ∈ unfolding.nexts place) : next ∉ place :: ahead ++ behind := by
  intro member
  rcases searching.origin next member with linked | ⟨before, hbefore, also⟩
  · exact starts.not_mem_nexts sound traced linked place follows
  · obtain rfl := traced.nexts_unique sound also follows
    have distinct := searching.distinct
    rw [List.cons_append, List.nodup_cons] at distinct
    exact distinct.1 (List.mem_append_right ahead hbefore)

/-- One step of a search: the place in front is left behind, what is next to it lies ahead. -/
theorem Searching.step (sound : program.Sound) (traced : Traced program depth root [] unfolding)
    {start place : Place} {ahead behind : List Place} (starts : unfolding.Starts start)
    (searching : unfolding.Searching start (place :: ahead) behind) :
    unfolding.Searching start (unfolding.nexts place ++ ahead) (place :: behind) := by
  have same : ∀ other, other ∈ unfolding.nexts place ++ ahead ++ place :: behind ↔
      other ∈ unfolding.nexts place ∨ other ∈ place :: ahead ++ behind := by
    intro other
    simp only [List.mem_append, List.mem_cons]
    grind
  have here : unfolding.Reaches start place := searching.reached place (by simp)
  constructor
  case distinct =>
    have moved : (unfolding.nexts place ++ (place :: ahead ++ behind)).Nodup := by
      refine List.nodup_append.mpr ⟨nodup_nexts sound traced place, searching.distinct, ?_⟩
      intro next follows other member equal
      rw [equal] at follows
      exact searching.nexts_fresh sound traced starts follows member
    refine (List.Perm.nodup_iff ?_).mpr moved
    rw [List.append_assoc]
    exact List.Perm.append_left _ List.perm_middle
  case reached =>
    intro other member
    rcases (same other).mp member with follows | old
    · exact .next here follows
    · exact searching.reached other old
  case linked =>
    intro other member
    exact (same other).mpr (.inr (searching.linked other member))
  case followed =>
    intro before hbefore other follows
    rcases List.mem_cons.mp hbefore with rfl | old
    · exact (same other).mpr (.inl follows)
    · exact (same other).mpr (.inr (searching.followed before old other follows))
  case origin =>
    intro other member
    rcases (same other).mp member with follows | old
    · exact .inr ⟨place, by simp, follows⟩
    · refine (searching.origin other old).imp_right ?_
      rintro ⟨before, hbefore, follows⟩
      exact ⟨before, by simp [hbefore], follows⟩

/-- With nothing ahead, everything has been come to. -/
theorem Searching.done {start : Place} {behind : List Place}
    (searching : unfolding.Searching start [] behind) {place : Place}
    (reached : unfolding.Reaches start place) : place ∈ behind := by
  induction reached with
  | linked linked => exact searching.linked _ linked
  | next reached follows ih => exact searching.followed _ ih _ follows

theorem Searching.length_le {start : Place} {ahead behind : List Place}
    (searching : unfolding.Searching start ahead behind) :
    ahead.length + behind.length ≤ unfolding.linkCount := by
  rw [← List.length_append, ← length_linkEnds]
  refine (List.subperm_of_subset searching.distinct ?_).length_le
  intro place member
  exact (searching.reached place member).mem_linkEnds

/-- A search with enough steps left finds the targets not behind it yet, each once. -/
theorem Searching.follow (sound : program.Sound) (traced : Traced program depth root [] unfolding)
    {start : Place} (starts : unfolding.Starts start) {steps : Nat} {ahead behind : List Place}
    (searching : unfolding.Searching start ahead behind)
    (enough : unfolding.linkCount ≤ steps + behind.length) :
    (unfolding.follow steps ahead behind).Nodup ∧
      ∀ endpoint, endpoint ∈ unfolding.follow steps ahead behind ↔
        ∃ place, unfolding.Reaches start place ∧ place ∉ behind ∧
          unfolding.lead? place = some (.target endpoint) := by
  induction steps generalizing ahead behind with
  | zero =>
      have few := searching.length_le
      obtain rfl : ahead = [] := List.eq_nil_of_length_eq_zero (by omega)
      refine ⟨by simp [Unfolding.follow], ?_⟩
      intro endpoint
      simp only [Unfolding.follow, List.not_mem_nil, false_iff]
      rintro ⟨place, reached, fresh, -⟩
      exact fresh (searching.done reached)
  | succ steps ih =>
      cases ahead with
      | nil =>
          refine ⟨by simp [Unfolding.follow], ?_⟩
          intro endpoint
          simp only [Unfolding.follow, List.not_mem_nil, false_iff]
          rintro ⟨place, reached, fresh, -⟩
          exact fresh (searching.done reached)
      | cons place ahead =>
          have distinct := searching.distinct
          rw [List.cons_append, List.nodup_cons, List.mem_append, not_or] at distinct
          rw [follow_cons steps distinct.1.2]
          obtain ⟨once, found⟩ := ih (searching.step sound traced starts)
            (by rw [List.length_cons]; omega)
          constructor
          · refine List.nodup_append.mpr ⟨?_, once, ?_⟩
            · unfold finds
              split <;> simp
            · intro endpoint here other later same
              obtain ⟨elsewhere, -, fresh, leads⟩ := (found other).mp later
              rw [← same] at leads
              refine fresh (List.mem_cons.mpr (.inl ?_))
              exact traced.lead_injective leads (mem_finds_iff.mp here)
          · intro endpoint
            rw [List.mem_append, mem_finds_iff, found]
            constructor
            · rintro (leads | ⟨elsewhere, reached, fresh, leads⟩)
              · exact ⟨place, searching.reached place (by simp), distinct.1.2, leads⟩
              · exact ⟨elsewhere, reached, fun old => fresh (by simp [old]), leads⟩
            · rintro ⟨elsewhere, reached, fresh, leads⟩
              by_cases here : elsewhere = place
              · exact .inl (here ▸ leads)
              · exact .inr ⟨elsewhere, reached, by simp [here, fresh], leads⟩

end Unfolding

end FlowDiagram

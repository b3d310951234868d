import FlowDiagram.Proofs.Dot.Lines

/-!
# Where the statements of a drawing stand

Blocks are numbered in the order in which they open.  Each stands for the path of the box that it
draws, and what is told of a block or a statement is where it stands in terms of these paths.
-/

namespace FlowDiagram.Dot

/-! ## Items and blocks -/

/--
Some items, read where certain blocks are open and so many have been opened, add some blocks and
statements and leave the same blocks open.
-/
def Places (opened : List Nat) (count : Nat) (items : List Item) (blocks : List Block)
    (statements : List Standing) : Prop :=
  ∀ (before : List Block) (earlier : List Standing), before.length = count →
    items.foldlM Placer.read ⟨opened, before, earlier, false⟩ =
      some ⟨opened, blocks.reverse ++ before, statements.reverse ++ earlier, false⟩

theorem Places.append {opened : List Nat} {count : Nat} {items others : List Item}
    {blocks more : List Block} {statements further : List Standing}
    (places : Places opened count items blocks statements)
    (placesOthers : Places opened (count + blocks.length) others more further) :
    Places opened count (items ++ others) (blocks ++ more) (statements ++ further) := by
  intro before earlier counted
  have later : (blocks.reverse ++ before).length = count + blocks.length := by
    simp [counted, Nat.add_comm]
  rw [List.foldlM_append, places before earlier counted]
  simpa using placesOthers _ (statements.reverse ++ earlier) later

theorem places_statement (opened : List Nat) (count : Nat) (statement : Statement) :
    Places opened count [.statement statement] [] [⟨opened.reverse, statement⟩] :=
  fun _ _ _ => rfl

/-- The items between two braces are those of a new block. -/
theorem Places.block {opened : List Nat} {count : Nat} {items : List Item} {blocks : List Block}
    {statements : List Standing}
    (places : Places (count :: opened) (count + 1) items blocks statements)
    (name : Option String) :
    Places opened count ([.opens name] ++ items ++ [.closes])
      (⟨opened.reverse, name⟩ :: blocks) statements := by
  rintro before earlier rfl
  have opens : Placer.read ⟨opened, before, earlier, false⟩ (.opens name) =
      some ⟨before.length :: opened, ⟨opened.reverse, name⟩ :: before, earlier, false⟩ := rfl
  have inner := places (⟨opened.reverse, name⟩ :: before) earlier rfl
  simp only [List.cons_append, List.nil_append, List.foldlM_cons, List.foldlM_append, opens,
    Option.bind_eq_bind, Option.bind_some, inner]
  simp [Placer.read]

/-! ## Paths of blocks -/

/-- A block in terms of paths: its own, and those of the blocks around it. -/
structure BlockEntry where
  path : List String
  scope : List (List String)
  name : Option String

/-- The blocks with the numbers from `count` on stand for some paths, in order. -/
def StandFor (pathOf : Nat → List String) (count : Nat) (entries : List BlockEntry) : Prop :=
  ∀ number entry, entries[number]? = some entry → pathOf (count + number) = entry.path

theorem StandFor.of_append {pathOf : Nat → List String} {count : Nat}
    {entries others : List BlockEntry} (stand : StandFor pathOf count (entries ++ others)) :
    StandFor pathOf count entries ∧ StandFor pathOf (count + entries.length) others := by
  constructor
  · intro number entry found
    have inside := (List.getElem?_eq_some_iff.mp found).1
    exact stand number entry (by rwa [List.getElem?_append_left inside])
  · intro number entry found
    rw [Nat.add_assoc]
    exact stand _ entry (by rwa [List.getElem?_append_right (Nat.le_add_right _ _),
      Nat.add_sub_cancel_left])

/--
Where the blocks with the paths of `scope` are open, some items add blocks with certain paths, and
statements that stand in blocks with certain paths.
-/
def Lays (scope : List (List String)) (items : List Item) (entries : List BlockEntry)
    (contents : List Located) : Prop :=
  ∀ opened count, ∃ blocks statements, Places opened count items blocks statements ∧
    blocks.length = entries.length ∧
    ∀ pathOf : Nat → List String, opened.reverse.map pathOf = scope →
      StandFor pathOf count entries →
        blocks.map (fun block => (block.scope.map pathOf, block.name)) =
            entries.map (fun entry => (entry.scope, entry.name)) ∧
          statements.map (fun standing => (⟨standing.scope.map pathOf, standing.statement⟩ :
            Located)) = contents

variable {scope : List (List String)}

theorem lays_nil : Lays scope [] [] [] :=
  fun _ _ => ⟨[], [], fun _ _ _ => rfl, rfl, fun _ _ _ => ⟨rfl, rfl⟩⟩

theorem Lays.append {items others : List Item} {entries more : List BlockEntry}
    {contents further : List Located} (lays : Lays scope items entries contents)
    (laysOthers : Lays scope others more further) :
    Lays scope (items ++ others) (entries ++ more) (contents ++ further) := by
  intro opened count
  obtain ⟨blocks, statements, places, length, told⟩ := lays opened count
  obtain ⟨moreBlocks, moreStatements, placesOthers, moreLength, toldOthers⟩ :=
    laysOthers opened (count + blocks.length)
  refine ⟨_, _, places.append placesOthers, by simp [length, moreLength], ?_⟩
  intro pathOf around stand
  obtain ⟨first, second⟩ := stand.of_append
  obtain ⟨blocksEq, statementsEq⟩ := told pathOf around first
  obtain ⟨moreBlocksEq, moreStatementsEq⟩ := toldOthers pathOf around (length ▸ second)
  simp only [List.map_append, blocksEq, statementsEq, moreBlocksEq, moreStatementsEq, and_self]

theorem lays_statement (scope : List (List String)) (statement : Statement) :
    Lays scope [.statement statement] [] [⟨scope, statement⟩] := by
  intro opened count
  refine ⟨[], _, places_statement opened count statement, rfl, fun pathOf around _ => ?_⟩
  simp [around]

theorem lays_flatMap {α : Type} (things : List α) {items : α → List Item}
    (entries : α → List BlockEntry) {contents : α → List Located}
    (each : ∀ thing ∈ things, Lays scope (items thing) (entries thing) (contents thing)) :
    Lays scope (things.flatMap items) (things.flatMap entries) (things.flatMap contents) := by
  induction things with
  | nil => exact lays_nil
  | cons thing rest ih =>
      obtain ⟨here, later⟩ := List.forall_mem_cons.mp each
      exact here.append (ih later)

theorem lays_statements {α : Type} (scope : List (List String)) (things : List α)
    (statement : α → Statement) :
    Lays scope (things.map fun thing => .statement (statement thing)) []
      (things.map fun thing => ⟨scope, statement thing⟩) := by
  have each := lays_flatMap things (fun _ => []) fun thing _ =>
    lays_statement scope (statement thing)
  have none : things.flatMap (fun _ => ([] : List BlockEntry)) = [] :=
    List.flatMap_eq_nil_iff.mpr fun _ _ => rfl
  simpa only [← List.map_eq_flatMap, none] using each

/-- What stands in a block stands in the blocks around it as well. -/
theorem Lays.block {path : List String} {items : List Item} {entries : List BlockEntry}
    {contents : List Located} (lays : Lays (scope ++ [path]) items entries contents)
    (name : Option String) :
    Lays scope ([.opens name] ++ items ++ [.closes]) (⟨path, scope, name⟩ :: entries)
      contents := by
  intro opened count
  obtain ⟨blocks, statements, places, length, told⟩ := lays (count :: opened) (count + 1)
  refine ⟨_, _, places.block name, by simp [length], fun pathOf around stand => ?_⟩
  have own : pathOf count = path := stand 0 _ rfl
  have inner : StandFor pathOf (count + 1) entries := by
    intro number entry found
    have later := stand (number + 1) entry found
    rwa [Nat.add_right_comm]
  obtain ⟨blocksEq, statementsEq⟩ := told pathOf (by simp [around, own]) inner
  exact ⟨by simp [around, blocksEq], statementsEq⟩

/-! ## Boxes in boxes -/

/-- The paths that lead to a path, itself among them: its first step, its first two steps, ... -/
def enclosing (path : List String) : List (List String) :=
  (List.range path.length).map fun steps => path.take (steps + 1)

theorem enclosing_append (path : List String) (name : String) :
    enclosing (path ++ [name]) = enclosing path ++ [path ++ [name]] := by
  unfold enclosing
  rw [List.length_append, List.length_singleton, List.range_succ, List.map_append]
  congr 1
  · refine List.map_congr_left fun steps inside => ?_
    rw [List.take_append_of_le_length (List.mem_range.mp inside)]
  · rw [List.map_singleton, List.take_of_length_le (by simp)]

/-- The blocks for nodes that lie at most `depth` boxes deep below `path`. -/
def nodeEntries (depth : Nat) (path : List String) (nodes : List (Placed (Nat × Node))) :
    List BlockEntry :=
  match depth with
  | 0 => []
  | depth + 1 =>
    (boxNames nodes).flatMap fun name =>
      ⟨path ++ [name], enclosing path, some (blockName (path ++ [name]))⟩ ::
        nodeEntries depth (path ++ [name]) (within name nodes)

/-- The attributes of the box at a path. -/
def boxAttributes (path : List String) (label : String) : List Located :=
  [("label", labelled label), ("style", "rounded"), ("color", "gray50")].map
    fun (name, value) => ⟨enclosing path, .setting name value⟩

/-- The statements for nodes that lie at most `depth` boxes deep below `path`. -/
def nodeContents (depth : Nat) (path : List String) (definitions : List (Placed String))
    (nodes : List (Placed (Nat × Node))) : List Located :=
  let own := (here nodes).map fun (id, node) => ⟨enclosing path, nodeStatement id node⟩
  match depth with
  | 0 => own
  | depth + 1 =>
    own ++ (boxNames nodes).flatMap fun name =>
      boxAttributes (path ++ [name]) (boxLabel name (here (within name definitions)).head?) ++
        nodeContents depth (path ++ [name]) (within name definitions) (within name nodes)

theorem lays_nodeItems (depth : Nat) (path : List String) (definitions : List (Placed String))
    (nodes : List (Placed (Nat × Node))) :
    Lays (enclosing path) (nodeItems depth path definitions nodes) (nodeEntries depth path nodes)
      (nodeContents depth path definitions nodes) := by
  induction depth generalizing path definitions nodes with
  | zero => exact lays_statements _ _ fun (id, node) => nodeStatement id node
  | succ depth ih =>
      have own := lays_statements (enclosing path) (here nodes) fun (id, node) =>
        nodeStatement id node
      refine own.append (lays_flatMap _ _ fun name _ => ?_)
      have inner := ih (path ++ [name]) (within name definitions) (within name nodes)
      rw [enclosing_append] at inner
      have attributes (label : String) := lays_statements (enclosing path ++
        [path ++ [name]]) [("label", labelled label), ("style", "rounded"), ("color", "gray50")]
        fun (name, value) => .setting name value
      unfold boxAttributes
      rw [enclosing_append]
      exact ((attributes _).append inner).block (some (blockName (path ++ [name])))

end FlowDiagram.Dot

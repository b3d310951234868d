import FlowDiagram.Dot
import FlowDiagram.Proofs.Dot.Scanning

/-!
# What the lines of a drawing say

Every line of a drawing ends behind a lexeme, so the lines are read one by one: a line states one
thing, opens or closes a box, or says nothing.
-/

namespace FlowDiagram.Dot

open Text

/-! ## Statements -/

/-- A lexeme that stands within a statement. -/
def Lexeme.IsPlain (lexeme : Lexeme) : Prop :=
  lexeme ≠ .semicolon ∧ lexeme ≠ .openBrace ∧ lexeme ≠ .closeBrace

/-- Some lexemes make up some items and leave nothing open. -/
def Parses (lexemes : List Lexeme) (items : List Item) : Prop :=
  ∀ before, lexemes.foldlM ItemReader.read ⟨[], before⟩ = some ⟨[], items.reverse ++ before⟩

theorem Parses.append {first second : List Lexeme} {items others : List Item}
    (parses : Parses first items) (parsesOthers : Parses second others) :
    Parses (first ++ second) (items ++ others) := by
  intro before
  rw [List.foldlM_append, parses before]
  simpa using parsesOthers (items.reverse ++ before)

theorem foldlM_plain {lexemes : List Lexeme} (plain : ∀ lexeme ∈ lexemes, lexeme.IsPlain)
    (pending : List Lexeme) (before : List Item) :
    lexemes.foldlM ItemReader.read ⟨pending, before⟩ =
      some ⟨lexemes.reverse ++ pending, before⟩ := by
  induction lexemes generalizing pending with
  | nil => rfl
  | cons lexeme rest ih =>
      obtain ⟨here, later⟩ := List.forall_mem_cons.mp plain
      have next : ItemReader.read ⟨pending, before⟩ lexeme = some ⟨lexeme :: pending, before⟩ := by
        obtain ⟨semicolon, opens, closes⟩ := here
        cases lexeme <;> first | contradiction | rfl
      rw [List.foldlM_cons, next]
      simpa using ih later (lexeme :: pending)

theorem parses_statement (lexemes : List Lexeme) {statement : Statement}
    (plain : ∀ lexeme ∈ lexemes, lexeme.IsPlain) (states : statement? lexemes = some statement) :
    Parses (lexemes ++ [.semicolon]) [.statement statement] := by
  intro before
  rw [List.foldlM_append, foldlM_plain plain]
  simp [ItemReader.read, states]

theorem parses_opening (lexemes : List Lexeme) {item : Item}
    (plain : ∀ lexeme ∈ lexemes, lexeme.IsPlain) (opens : opening? lexemes = some item) :
    Parses (lexemes ++ [.openBrace]) [item] := by
  intro before
  rw [List.foldlM_append, foldlM_plain plain]
  simp [ItemReader.read, opens]

theorem parses_closing : Parses [.closeBrace] [.closes] :=
  fun _ => rfl

/-! ## Identifiers -/

/-- A text with a character that is no letter is no keyword. -/
theorem isKeyword_eq_false {text : String} {c : Char} (member : c ∈ text.toList)
    (other : c.isAlpha = false) : isKeyword text = false := by
  have letters : ∀ keyword ∈ keywords, ∀ c ∈ keyword.toList, c.isAlpha := by simp [keywords]
  rw [Bool.eq_false_iff]
  intro keyword
  have inside := letters _ (List.contains_iff_mem.mp keyword) c (by
    have upper : c.toLower = c := by
      unfold Char.toLower
      split
      · rename_i upper
        have letter : c.isAlpha := isAlpha_iff.mpr (.inl (isUpper_iff.mpr upper))
        exact absurd letter (Bool.eq_false_iff.mp other)
      · rfl
    simpa using ⟨c, member, upper⟩)
  simp [other] at inside

theorem id?_word {text : String} {c : Char} (member : c ∈ text.toList)
    (other : c.isAlpha = false) : (Lexeme.word text).id? = some text := by
  simp [Lexeme.id?, isKeyword_eq_false member other]

/-- A name with a number behind it. -/
structure IsNumbered (text : String) : Prop where
  name : isName text.toList
  digit : ∃ c ∈ text.toList, c.isAlpha = false

theorem IsNumbered.id? {text : String} (numbered : IsNumbered text) :
    (Lexeme.word text).id? = some text := by
  obtain ⟨c, member, other⟩ := numbered.digit
  exact id?_word member other

theorem IsNumbered.ne_keyword {text : String} (numbered : IsNumbered text) :
    ¬ (text = "node" ∨ text = "edge") ∧ isKeyword text = false := by
  obtain ⟨c, member, other⟩ := numbered.digit
  have word := isKeyword_eq_false member other
  refine ⟨?_, word⟩
  rintro (rfl | rfl) <;> exact absurd word (by decide)

theorem statement?_vertex {id : String} (numbered : IsNumbered id) {rest : List Lexeme}
    {attributes : List (String × String)} (listed : attributeList? rest = some attributes) :
    statement? (.word id :: .openBracket :: rest) = some (.vertex id attributes) := by
  obtain ⟨other, word⟩ := numbered.ne_keyword
  simp [statement?, other, word, attributes?, listed]

theorem statement?_mention {id : String} (numbered : IsNumbered id) :
    statement? [.word id] = some (.vertex id []) := by
  obtain ⟨other, word⟩ := numbered.ne_keyword
  simp [statement?, other, word, attributes?]

theorem statement?_edge {tail head : String} (tailNumbered : IsNumbered tail)
    (headNumbered : IsNumbered head) {rest : List Lexeme} {attributes : List (String × String)}
    (listed : attributes? rest = some attributes) :
    statement? (.word tail :: .arrow :: .word head :: rest) =
      some (.edge tail head attributes) := by
  simp [statement?, tailNumbered.id?, headNumbered.id?, listed]

theorem isNumbered_append {letters : String} (number : Nat)
    (all : ∀ c ∈ letters.toList, c.isAlpha) (fed : letters.toList ≠ []) :
    IsNumbered (letters ++ toString number) := by
  have spelled : (letters ++ toString number).toList =
      letters.toList ++ Nat.toDigits 10 number := by
    simp [toString]
  have digits : ∀ c ∈ Nat.toDigits 10 number, c.isDigit := fun c member =>
    Nat.isDigit_of_mem_toDigits (by decide) (by decide) member
  constructor
  case name =>
    rw [spelled]
    cases hletters : letters.toList with
    | nil => exact absurd hletters fed
    | cons first rest =>
        rw [hletters] at all
        obtain ⟨here, later⟩ := List.forall_mem_cons.mp all
        simp only [List.cons_append, isName, here, Bool.true_or, Bool.true_and, List.all_eq_true]
        intro c member
        rcases List.mem_append.mp member with letter | digit
        · simp [Char.isAlphanum, later c letter]
        · simp [Char.isAlphanum, digits c digit]
  case digit =>
    obtain ⟨c, member⟩ := List.exists_mem_of_ne_nil _ (Nat.toDigits_ne_nil (n := number))
    refine ⟨c, by rw [spelled]; exact List.mem_append_right _ member, ?_⟩
    have digit := digits c member
    simp only [Char.isDigit, Bool.and_eq_true, decide_eq_true_eq] at digit
    have small : c ≤ '9' := digit.2
    rw [Bool.eq_false_iff, Ne, isAlpha_iff, isUpper_iff, isLower_iff]
    rintro (upper | lower)
    · exact absurd (Char.le_trans upper.1 small) (by decide)
    · exact absurd (Char.le_trans lower.1 small) (by decide)

theorem isNumbered_inputId (port : Nat) : IsNumbered (inputId port) :=
  isNumbered_append port (by simp) (by simp)

theorem isNumbered_outputId (port : Nat) : IsNumbered (outputId port) :=
  isNumbered_append port (by simp) (by simp)

theorem isNumbered_nodeId (id : Nat) : IsNumbered (nodeId id) :=
  isNumbered_append id (by simp) (by simp)

theorem isNumbered_vertexId (endpoint : Endpoint) : IsNumbered (vertexId endpoint) := by
  obtain ⟨vertex, port⟩ := endpoint
  cases vertex with
  | inputs => exact isNumbered_inputId port
  | outputs => exact isNumbered_outputId port
  | node id => exact isNumbered_nodeId id

/-! ## Pieces of lines -/

/-- A piece of a line is cut into some lexemes and leaves nothing open. -/
def Cut (piece : String) (lexemes : List Lexeme) : Prop :=
  Scans piece.toList lexemes

theorem Cut.append {first second : String} {lexemes others : List Lexeme}
    (cut : Cut first lexemes) (cutOthers : Cut second others) :
    Cut (first ++ second) (lexemes ++ others) := by
  rw [Cut, String.toList_append]
  exact Scans.append cut cutOthers

theorem cut_quoted (text : String) : Cut (quoted text) [.quoted (labelled text)] :=
  scans_quoted text

/-- A name with a piece behind it that starts with a blank or a mark. -/
theorem cut_word {word piece : String} (name : isName word.toList) {lexemes : List Lexeme}
    (cut : Cut piece lexemes) (ends : ∃ c rest, piece.toList = c :: rest ∧ isWordChar c = false) :
    Cut (word ++ piece) (.word word :: lexemes) := by
  obtain ⟨c, rest, spelled, ends⟩ := ends
  rw [Cut, spelled] at cut
  rw [Cut, String.toList_append, spelled]
  exact scans_word name ends cut

/-- Blanks in front of a line. -/
def IsIndent (indent : String) : Prop :=
  ∀ c ∈ indent.toList, c = ' '

theorem IsIndent.cut {indent : String} (blank : IsIndent indent) : Cut indent [] :=
  scans_blanks fun c member => by rw [blank c member]; rfl

theorem IsIndent.deeper {indent : String} (blank : IsIndent indent) :
    IsIndent (indent ++ "    ") := by
  intro c member
  rw [String.toList_append] at member
  rcases List.mem_append.mp member with outer | inner
  · exact blank c outer
  · have blanks : ∀ c ∈ "    ".toList, c = ' ' := by simp
    exact blanks c inner

/-- Some lines are read as some items. -/
def Reads (parts : List String) (items : List Item) : Prop :=
  ∃ lexemes, Scans (lines parts).toList lexemes ∧ Parses lexemes items

theorem Reads.append {parts others : List String} {items more : List Item}
    (reads : Reads parts items) (readsOthers : Reads others more) :
    Reads (parts ++ others) (items ++ more) := by
  obtain ⟨lexemes, scans, parses⟩ := reads
  obtain ⟨lexemesOthers, scansOthers, parsesOthers⟩ := readsOthers
  refine ⟨lexemes ++ lexemesOthers, ?_, parses.append parsesOthers⟩
  rw [toList_lines, List.flatMap_append, ← toList_lines, ← toList_lines]
  exact scans.append scansOthers

theorem reads_nil : Reads [] [] :=
  ⟨[], .nil, fun _ => rfl⟩

theorem reads_line {line : String} {lexemes : List Lexeme} {items : List Item}
    (cut : Cut line lexemes) (parses : Parses lexemes items) : Reads [line] items := by
  refine ⟨lexemes, ?_, parses⟩
  have feed : Scans ['\n'] [] := fun _ => rfl
  simpa [toList_lines] using Scans.append cut feed

theorem reads_map {α : Type} {things : List α} {line : α → String} {item : α → Item}
    (each : ∀ thing ∈ things, Reads [line thing] [item thing]) :
    Reads (things.map line) (things.map item) := by
  induction things with
  | nil => exact reads_nil
  | cons thing rest ih =>
      obtain ⟨here, later⟩ := List.forall_mem_cons.mp each
      exact here.append (ih later)

theorem reads_flatMap {α : Type} {things : List α} {parts : α → List String}
    {items : α → List Item} (each : ∀ thing ∈ things, Reads (parts thing) (items thing)) :
    Reads (things.flatMap parts) (things.flatMap items) := by
  induction things with
  | nil => exact reads_nil
  | cons thing rest ih =>
      obtain ⟨here, later⟩ := List.forall_mem_cons.mp each
      exact here.append (ih later)

/-! ## Attributes with labels -/

/-- An attribute, by its name and the text that its label shows. -/
def attributeText (entry : String × String) : String :=
  entry.1 ++ "=" ++ quoted entry.2

/-- The lexemes of an attribute with a label. -/
def attributeLexemes (entry : String × String) : List Lexeme :=
  [.word entry.1, .equals, .quoted (labelled entry.2)]

theorem cut_attributeText {entry : String × String} (named : isName entry.1.toList) :
    Cut (attributeText entry) (attributeLexemes entry) := by
  have equals : Cut "=" [.equals] := fun _ => rfl
  exact (cut_word named equals ⟨'=', [], rfl, rfl⟩).append (cut_quoted entry.2)

theorem cut_attributes {entries : List (String × String)}
    (named : ∀ entry ∈ entries, isName entry.1.toList) :
    Cut (commaList (entries.map attributeText))
      ([.comma].intercalate (entries.map attributeLexemes)) := by
  induction entries with
  | nil => exact fun _ => rfl
  | cons entry rest ih =>
      obtain ⟨here, later⟩ := List.forall_mem_cons.mp named
      have first := cut_attributeText here
      cases rest with
      | nil => simpa [commaList] using first
      | cons second others =>
          have comma : Cut ", " [.comma] := fun _ => rfl
          have whole := (first.append comma).append (ih later)
          simpa [commaList, String.intercalate_cons_cons] using whole

theorem attributeList?_labels {entries : List (String × String)} (some_ : entries ≠ [])
    (free : ∀ entry ∈ entries, isKeyword entry.1 = false) :
    attributeList? ([.comma].intercalate (entries.map attributeLexemes) ++ [.closeBracket]) =
      some (entries.map fun entry => (entry.1, labelled entry.2)) := by
  induction entries with
  | nil => contradiction
  | cons entry rest ih =>
      obtain ⟨here, later⟩ := List.forall_mem_cons.mp free
      have first : attribute? (.word entry.1) (.quoted (labelled entry.2)) =
          some (entry.1, labelled entry.2) := by
        simp [attribute?, Lexeme.id?, here]
      cases rest with
      | nil => simp [attributeLexemes, attributeList?, first]
      | cons second others =>
          have followed := ih (List.cons_ne_nil _ _) later
          have listed : [.comma].intercalate ((entry :: second :: others).map attributeLexemes) ++
              [.closeBracket] = .word entry.1 :: .equals :: .quoted (labelled entry.2) :: .comma ::
                ([.comma].intercalate ((second :: others).map attributeLexemes) ++
                  [.closeBracket]) := by
            simp [attributeLexemes]
          rw [listed, attributeList?, first, followed]
          rfl

theorem plain_attributes (entries : List (String × String)) :
    ∀ lexeme ∈ [Lexeme.comma].intercalate (entries.map attributeLexemes), lexeme.IsPlain := by
  induction entries with
  | nil => simp
  | cons entry rest ih =>
      cases rest with
      | nil => simp [attributeLexemes, Lexeme.IsPlain]
      | cons second others => simpa [attributeLexemes, Lexeme.IsPlain] using ih

/-! ## Boundary -/

/-- The text that the label of a boundary port shows. -/
def portText (name : String) (type : Option PortType) : String :=
  match type with
  | some type => name ++ "\n" ++ type.text
  | none => name

/-- All attributes of a boundary port. -/
def boundaryLabels (color text : String) : List (String × String) :=
  [("shape", "cds"), ("style", "filled"), ("fillcolor", color), ("label", labelled text)]

def boundaryStatement (id color text : String) : Statement :=
  .vertex id (boundaryLabels color text)

theorem portLabel_eq (name : String) (type : Option PortType) :
    portLabel name type = quoted (portText name type) := by
  cases type <;> rfl

theorem reads_boundaryLine {id color : String} (numbered : IsNumbered id)
    (colored : color = "lightblue" ∨ color = "lightyellow") (text : String) :
    Reads [boundaryLine id color (quoted text)] [.statement (boundaryStatement id color text)] := by
  have line : boundaryLine id color (quoted text) = "    " ++ (id ++
      " [shape=cds, style=filled, fillcolor=") ++ (color ++ ", label=") ++ quoted text ++ "];" := by
    simp [boundaryLine, String.append_assoc]
  have indent : Cut "    " [] := fun _ => rfl
  have front : Cut " [shape=cds, style=filled, fillcolor=" [.openBracket, .word "shape", .equals,
      .word "cds", .comma, .word "style", .equals, .word "filled", .comma, .word "fillcolor",
      .equals] := fun _ => rfl
  have middle : Cut (color ++ ", label=") [.word color, .comma, .word "label", .equals] := by
    rcases colored with rfl | rfl <;> exact fun _ => rfl
  have back : Cut "];" [.closeBracket, .semicolon] := fun _ => rfl
  rw [line]
  refine reads_line ((((indent.append (cut_word numbered.name front ⟨' ', _, rfl, rfl⟩)).append
    middle).append (cut_quoted text)).append back) ?_
  refine parses_statement ([.word id, .openBracket, .word "shape", .equals,
    .word "cds", .comma, .word "style", .equals, .word "filled", .comma, .word "fillcolor",
    .equals, .word color, .comma, .word "label", .equals, .quoted (labelled text),
    .closeBracket]) (by simp [Lexeme.IsPlain]) (statement?_vertex numbered ?_)
  rcases colored with rfl | rfl <;> rfl

/-- The items of a margin on which several ports stand side by side. -/
def rankItems (rank : String) (ids : List String) : List Item :=
  if 1 < ids.length then
    [.opens none, .statement (.setting "rank" rank)] ++
      ids.map (fun id => .statement (.vertex id [])) ++ [.closes]
  else []

theorem cut_ids {ids : List String} (numbered : ∀ id ∈ ids, IsNumbered id) (fed : ids ≠ []) :
    Cut ("; ".intercalate ids ++ "; ") (ids.flatMap fun id => [.word id, .semicolon]) := by
  induction ids with
  | nil => contradiction
  | cons id rest ih =>
      obtain ⟨here, later⟩ := List.forall_mem_cons.mp numbered
      have mark : Cut "; " [.semicolon] := fun _ => rfl
      have first := cut_word here.name mark ⟨';', _, rfl, rfl⟩
      cases rest with
      | nil => simpa using first
      | cons second others =>
          rw [String.intercalate_cons_cons, String.append_assoc, List.flatMap_cons]
          exact first.append (ih later (List.cons_ne_nil _ _))

theorem parses_ids {ids : List String} (numbered : ∀ id ∈ ids, IsNumbered id) :
    Parses (ids.flatMap fun id => [.word id, .semicolon])
      (ids.map fun id => .statement (.vertex id [])) := by
  induction ids with
  | nil => exact fun _ => rfl
  | cons id rest ih =>
      obtain ⟨here, later⟩ := List.forall_mem_cons.mp numbered
      rw [List.flatMap_cons, List.map_cons]
      have mention := parses_statement [.word id] (by simp [Lexeme.IsPlain])
        (statement?_mention here)
      exact mention.append (ih later)

theorem reads_rankLines {rank : String} (ranked : rank = "source" ∨ rank = "sink")
    {ids : List String} (numbered : ∀ id ∈ ids, IsNumbered id) :
    Reads (rankLines rank ids) (rankItems rank ids) := by
  unfold rankLines rankItems
  split
  · rename_i several
    have line : "    \x7b rank=" ++ rank ++ "; " ++ "; ".intercalate ids ++ "; \x7d" =
        ("    \x7b rank=" ++ rank ++ "; ") ++ ("; ".intercalate ids ++ "; ") ++ "\x7d" := by
      have last : "; \x7d" = "; " ++ "\x7d" := rfl
      simp [last, String.append_assoc]
    have front : Cut ("    \x7b rank=" ++ rank ++ "; ")
        [.openBrace, .word "rank", .equals, .word rank, .semicolon] := by
      rcases ranked with rfl | rfl <;> exact fun _ => rfl
    have frontItems : Parses [.openBrace, .word "rank", .equals, .word rank, .semicolon]
        [.opens none, .statement (.setting "rank" rank)] := by
      rcases ranked with rfl | rfl <;> exact fun _ => rfl
    have back : Cut "\x7d" [.closeBrace] := fun _ => rfl
    have fed : ids ≠ [] := List.ne_nil_of_length_pos (Nat.zero_lt_of_lt several)
    rw [line]
    exact reads_line ((front.append (cut_ids numbered fed)).append back)
      ((frontItems.append (parses_ids numbered)).append parses_closing)
  · exact reads_nil

/-! ## Nodes -/

/-- The text that the label of a node shows. -/
def nodeText (node : Node) : String :=
  match node.kind with
  | .primitive primitive => primitive.text
  | .truncated .. => node.kind.text ++ "\n(depth exceeded)"

/-- The attributes of a node that tell how it looks. -/
def nodeLook (node : Node) : List (String × String) :=
  match node.kind with
  | .primitive primitive => [("shape", shape primitive)]
  | .truncated .. => [("shape", "box"), ("style", "dashed")]

/-- All attributes of a node. -/
def nodeLabels (node : Node) : List (String × String) :=
  nodeLook node ++
    [("label", labelled (nodeText node)), ("tooltip", labelled (pathText node.provenance.path))]

def nodeStatement (id : Nat) (node : Node) : Statement :=
  .vertex (nodeId id) (nodeLabels node)

theorem shape_cases (primitive : Primitive) : shape primitive = "circle" ∨
    shape primitive = "invtrapezium" ∨ shape primitive = "invtriangle" ∨
      shape primitive = "triangle" := by
  cases primitive <;> simp [shape]

theorem reads_nodeLine {indent : String} (blank : IsIndent indent) (id : Nat) (node : Node) :
    Reads [nodeLine indent id node] [.statement (nodeStatement id node)] := by
  have numbered := isNumbered_nodeId id
  have name : Cut (nodeId id ++ " [") [.word (nodeId id), .openBracket] :=
    cut_word numbered.name (fun _ => rfl) ⟨' ', _, rfl, rfl⟩
  have middle : Cut ", tooltip=" [.comma, .word "tooltip", .equals] := fun _ => rfl
  have back : Cut "];" [.closeBracket, .semicolon] := fun _ => rfl
  have whole {look : String} {lexemes : List Lexeme} (text : String) (cut : Cut look lexemes) :
      Cut (indent ++ (nodeId id ++ " [") ++ (look ++ quoted text ++ ", tooltip=" ++
        quoted (pathText node.provenance.path)) ++ "];") _ :=
    ((blank.cut.append name).append (((cut.append (cut_quoted text)).append middle).append
      (cut_quoted _))).append back
  have assoc (attributes : String) : indent ++ nodeId id ++ " [" ++ attributes ++ "];" =
      indent ++ (nodeId id ++ " [") ++ attributes ++ "];" := by
    simp [String.append_assoc]
  unfold nodeLine nodeAttributes nodeStatement nodeLabels nodeLook nodeText
  rw [assoc]
  cases node.kind with
  | primitive primitive =>
      have shapes := shape_cases primitive
      dsimp only
      generalize shape primitive = shape at shapes ⊢
      have look : Cut ("shape=" ++ shape ++ ", label=") [.word "shape", .equals, .word shape,
          .comma, .word "label", .equals] := by
        rcases shapes with rfl | rfl | rfl | rfl <;> exact fun _ => rfl
      refine reads_line (whole primitive.text look) (parses_statement ([
        .word (nodeId id), .openBracket, .word "shape", .equals, .word shape, .comma, .word "label",
        .equals, .quoted _, .comma, .word "tooltip", .equals, .quoted _, .closeBracket])
        (by simp [Lexeme.IsPlain]) (statement?_vertex numbered ?_))
      rcases shapes with rfl | rfl | rfl | rfl <;> rfl
  | truncated definition generators =>
      have look : Cut "shape=box, style=dashed, label=" [.word "shape", .equals, .word "box",
          .comma, .word "style", .equals, .word "dashed", .comma, .word "label", .equals] :=
        fun _ => rfl
      exact reads_line (whole _ look) (parses_statement ([
        .word (nodeId id), .openBracket, .word "shape", .equals, .word "box", .comma,
        .word "style", .equals, .word "dashed", .comma, .word "label", .equals, .quoted _, .comma,
        .word "tooltip", .equals, .quoted _, .closeBracket]) (by simp [Lexeme.IsPlain])
        (statement?_vertex numbered rfl))

/-! ## Boxes -/

/-- The name of the box at a path. -/
def blockName (path : List String) : String :=
  "cluster_" ++ sanitize ("_".intercalate path)

theorem toList_blockName (path : List String) : (blockName path).toList =
    "cluster_".toList ++ (sanitize ("_".intercalate path)).toList :=
  String.toList_append

theorem isName_blockName (path : List String) : isName (blockName path).toList := by
  have clean : ∀ c ∈ (sanitize ("_".intercalate path)).toList, c.isAlphanum || c == '_' := by
    intro c member
    rw [sanitize, String.toList_map] at member
    obtain ⟨before, -, rfl⟩ := List.mem_map.mp member
    split
    · assumption
    · rfl
  rw [toList_blockName]
  have whole (rest : List Char) : isName ("cluster_".toList ++ rest) =
      ("luster_".toList ++ rest).all fun c => c.isAlphanum || c == '_' := rfl
  rw [whole, List.all_append, List.all_eq_true.mpr clean, Bool.and_true]
  rfl

/-- The items of a box, around those of what lies in it. -/
def boxItems (path : List String) (label : String) (inside : List Item) : List Item :=
  [.opens (some (blockName path)), .statement (.setting "label" (labelled label)),
    .statement (.setting "style" "rounded"), .statement (.setting "color" "gray50")] ++
  inside ++ [.closes]

theorem reads_boxOpening {indent : String} (blank : IsIndent indent) (path : List String) :
    Reads [indent ++ "subgraph cluster_" ++ sanitize ("_".intercalate path) ++ " \x7b"]
      [.opens (some (blockName path))] := by
  have named : (Lexeme.word (blockName path)).id? = some (blockName path) :=
    id?_word (c := '_') (by simp [toList_blockName]) rfl
  have line : indent ++ "subgraph cluster_" ++ sanitize ("_".intercalate path) ++ " \x7b" =
      indent ++ "subgraph " ++ (blockName path ++ " \x7b") := by
    have front : "subgraph cluster_" = "subgraph " ++ "cluster_" := rfl
    rw [front, blockName]
    simp only [String.append_assoc]
  have front : Cut "subgraph " [.word "subgraph"] := fun _ => rfl
  rw [line]
  exact reads_line ((blank.cut.append front).append
    (cut_word (isName_blockName path) (fun _ => rfl) ⟨' ', _, rfl, rfl⟩))
    (parses_opening [.word "subgraph", .word (blockName path)]
      (by simp [Lexeme.IsPlain]) (by simp [opening?, named]))

theorem reads_box {indent : String} (blank : IsIndent indent) (path : List String)
    (label : String) {parts : List String} {inside : List Item} (reads : Reads parts inside) :
    Reads (box indent path label parts) (boxItems path label inside) := by
  have inner := blank.deeper.cut
  have opening := reads_boxOpening blank path
  have labels : Reads [indent ++ "    " ++ "label=" ++ quoted label ++ ";"]
      [.statement (.setting "label" (labelled label))] := by
    have front : Cut "label=" [.word "label", .equals] := fun _ => rfl
    have back : Cut ";" [.semicolon] := fun _ => rfl
    exact reads_line (((inner.append front).append (cut_quoted label)).append back) fun _ => rfl
  have style : Reads [indent ++ "    " ++ "style=rounded;"]
      [.statement (.setting "style" "rounded")] := by
    have text : Cut "style=rounded;" [.word "style", .equals, .word "rounded", .semicolon] :=
      fun _ => rfl
    exact reads_line (inner.append text) fun _ => rfl
  have color : Reads [indent ++ "    " ++ "color=gray50;"]
      [.statement (.setting "color" "gray50")] := by
    have text : Cut "color=gray50;" [.word "color", .equals, .word "gray50", .semicolon] :=
      fun _ => rfl
    exact reads_line (inner.append text) fun _ => rfl
  have closing : Reads [indent ++ "\x7d"] [.closes] := by
    have brace : Cut "\x7d" [.closeBrace] := fun _ => rfl
    exact reads_line (blank.cut.append brace) parses_closing
  exact ((((opening.append labels).append style).append color).append reads).append closing

/-- The items of nodes that lie at most `depth` boxes deep below `path`. -/
def nodeItems (depth : Nat) (path : List String) (definitions : List (Placed String))
    (nodes : List (Placed (Nat × Node))) : List Item :=
  let own := (here nodes).map fun (id, node) => .statement (nodeStatement id node)
  match depth with
  | 0 => own
  | depth + 1 =>
    own ++ (boxNames nodes).flatMap fun name =>
      let definitions := within name definitions
      boxItems (path ++ [name]) (boxLabel name (here definitions).head?)
        (nodeItems depth (path ++ [name]) definitions (within name nodes))

theorem reads_boxLines (depth : Nat) {indent : String} (blank : IsIndent indent)
    (path : List String) (definitions : List (Placed String))
    (nodes : List (Placed (Nat × Node))) :
    Reads (boxLines depth indent path definitions nodes)
      (nodeItems depth path definitions nodes) := by
  have own : Reads ((here nodes).map fun (id, node) => nodeLine indent id node)
      ((here nodes).map fun (id, node) => .statement (nodeStatement id node)) :=
    reads_map fun (id, node) _ => reads_nodeLine blank id node
  induction depth generalizing indent path definitions nodes with
  | zero => exact own
  | succ depth ih =>
      refine own.append (reads_flatMap fun name _ => reads_box blank _ _ ?_)
      exact ih blank.deeper _ _ _ (reads_map fun (id, node) _ =>
        reads_nodeLine blank.deeper id node)

/-! ## Edges -/

/-- The names of ports that an edge shows, each as a label. -/
def edgeLabels (graph : PortGraph) (edge : Edge) : List (String × String) :=
  ((tailName? graph edge.source).map fun name => ("taillabel", labelled name)).toList ++
    ((headName? graph edge.target).map fun name => ("headlabel", labelled name)).toList

def edgeStatement (graph : PortGraph) (edge : Edge) : Statement :=
  .edge (vertexId edge.source) (vertexId edge.target) (edgeLabels graph edge)

theorem reads_edge {tail head : String} (tailNumbered : IsNumbered tail)
    (headNumbered : IsNumbered head) {back : String} {lexemes : List Lexeme}
    {attributes : List (String × String)} (cut : Cut back (lexemes ++ [.semicolon]))
    (ends : ∃ c rest, back.toList = c :: rest ∧ isWordChar c = false)
    (plain : ∀ lexeme ∈ lexemes, lexeme.IsPlain) (listed : attributes? lexemes = some attributes) :
    Reads ["    " ++ tail ++ " -> " ++ head ++ back]
      [.statement (.edge tail head attributes)] := by
  have line : "    " ++ tail ++ " -> " ++ head ++ back =
      "    " ++ (tail ++ " -> ") ++ (head ++ back) := by
    simp [String.append_assoc]
  have indent : Cut "    " [] := fun _ => rfl
  have start : Cut (tail ++ " -> ") [.word tail, .arrow] :=
    cut_word tailNumbered.name (fun _ => rfl) ⟨' ', _, rfl, rfl⟩
  rw [line]
  refine reads_line ((indent.append start).append (cut_word headNumbered.name cut ends))
    (parses_statement (.word tail :: .arrow :: .word head :: lexemes) ?_
      (statement?_edge tailNumbered headNumbered listed))
  simpa [Lexeme.IsPlain] using plain

/-- The names of ports that an edge shows, each with the attribute that shows it. -/
def edgeNames (graph : PortGraph) (edge : Edge) : List (String × String) :=
  ((tailName? graph edge.source).map fun name => ("taillabel", name)).toList ++
    ((headName? graph edge.target).map fun name => ("headlabel", name)).toList

theorem edgeAttributes_eq (graph : PortGraph) (edge : Edge) :
    edgeAttributes graph edge = (edgeNames graph edge).map attributeText := by
  unfold edgeAttributes edgeNames
  cases tailName? graph edge.source <;> cases headName? graph edge.target <;> rfl

theorem edgeLabels_eq (graph : PortGraph) (edge : Edge) :
    edgeLabels graph edge =
      (edgeNames graph edge).map fun entry => (entry.1, labelled entry.2) := by
  unfold edgeLabels edgeNames
  cases tailName? graph edge.source <;> cases headName? graph edge.target <;> rfl

theorem name_of_mem_edgeNames {graph : PortGraph} {edge : Edge} {entry : String × String}
    (member : entry ∈ edgeNames graph edge) : entry.1 = "taillabel" ∨ entry.1 = "headlabel" := by
  rcases List.mem_append.mp member with tail | head
  · obtain ⟨name, -, rfl⟩ := Option.map_eq_some_iff.mp (Option.mem_toList.mp tail)
    exact .inl rfl
  · obtain ⟨name, -, rfl⟩ := Option.map_eq_some_iff.mp (Option.mem_toList.mp head)
    exact .inr rfl

theorem reads_edgeLine (graph : PortGraph) (edge : Edge) :
    Reads [edgeLine graph edge] [.statement (edgeStatement graph edge)] := by
  have tail := isNumbered_vertexId edge.source
  have head := isNumbered_vertexId edge.target
  have named : ∀ entry ∈ edgeNames graph edge,
      isName entry.1.toList ∧ isKeyword entry.1 = false := by
    intro entry member
    rcases name_of_mem_edgeNames member with name | name <;> rw [name] <;> decide
  unfold edgeLine edgeStatement
  rw [edgeAttributes_eq, edgeLabels_eq, String.append_assoc]
  generalize edgeNames graph edge = names at named
  by_cases bare : names = []
  · subst bare
    have ends : Cut ";" ([] ++ [.semicolon]) := fun _ => rfl
    exact reads_edge tail head ends ⟨';', _, rfl, rfl⟩ (by simp) rfl
  · have opening : Cut " [" [.openBracket] := fun _ => rfl
    have closing : Cut ("]" ++ ";") [.closeBracket, .semicolon] := fun _ => rfl
    have cut := opening.append ((cut_attributes fun entry member => (named entry member).1).append
      closing)
    have listed := attributeList?_labels bare fun entry member => (named entry member).2
    have shown : (if (names.map attributeText).isEmpty then "" else
        " [" ++ commaList (names.map attributeText) ++ "]") ++ ";" =
          " [" ++ (commaList (names.map attributeText) ++ ("]" ++ ";")) := by
      simp [bare, String.append_assoc]
    have plain : ∀ lexeme ∈ .openBracket :: ([Lexeme.comma].intercalate
        (names.map attributeLexemes) ++ [.closeBracket]), lexeme.IsPlain := by
      simpa [or_imp, forall_and, Lexeme.IsPlain] using plain_attributes names
    have begins (inside : String) : ∃ c rest, (" [" ++ (inside ++ ("]" ++ ";"))).toList =
        c :: rest ∧ isWordChar c = false :=
      ⟨' ', '[' :: (inside.toList ++ [']', ';']), by simp [String.toList_append], rfl⟩
    rw [shown]
    refine reads_edge tail head ?_ (begins _) plain listed
    simpa using cut

end FlowDiagram.Dot

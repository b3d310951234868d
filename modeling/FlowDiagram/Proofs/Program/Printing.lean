import FlowDiagram.Proofs.Program.Parts
import FlowDiagram.Proofs.Program.Scanning

/-!
# The tokens of a canonical text

The canonical text of a program whose identifiers can be written is cut into the tokens that the
program is written with, and has no faults: what the text puts between two tokens keeps them from
running together.
-/

namespace FlowDiagram

/-! ## Tokens -/

def identTokens : List Ident → List Token
  | [] => []
  | first :: further =>
    .ident first.name :: further.flatMap fun ident => [.reserved .comma, .ident ident.name]

def Generics.tokens (generics : Generics) : List Token :=
  .reserved .openAngle :: (identTokens generics.universal ++
    .reserved .bar :: (identTokens generics.existential ++ [.reserved .closeAngle]))

def Ports.tokens (ports : Ports) : List Token :=
  .reserved .openBracket :: (identTokens ports.inputs ++
    .reserved .bar :: (identTokens ports.outputs ++ [.reserved .closeBracket]))

def BoxRef.tokens : BoxRef → List Token
  | .add symbol => [.reserved .plus, .ident symbol.name]
  | .remove symbol => [.reserved .minus, .ident symbol.name]
  | .spawn symbol => [.reserved .star, .ident symbol.name]
  | .indexed tag count _ =>
    [.ident tag.name, .reserved .openBrace, .number count, .reserved .closeBrace]
  | .join _ => [.reserved .join]
  | .split _ => [.reserved .split]
  | .definition name arguments => .ident name.name :: arguments.elim [] Generics.tokens

def Use.tokens (use : Use) : List Token :=
  .reserved .use :: (use.box.tokens ++ (use.ports.tokens ++
    [.reserved .as, .ident use.name.name]))

def PortRef.tokens (ref : PortRef) : List Token :=
  match ref.owner with
  | none => [.ident ref.port.name]
  | some owner => [.ident owner.name, .reserved .dot, .ident ref.port.name]

def Link.tokens (link : Link) : List Token :=
  link.source.tokens ++ .reserved .arrow :: link.target.tokens

/-- The tokens of a block of links; a program without links has none. -/
def linksTokens (links : List Link) : List Token :=
  if links.isEmpty then [] else .reserved .link :: links.flatMap Link.tokens

/-- Generic symbols of a definition are left out when there are none. -/
def Definition.tokens (definition : Definition) : List Token :=
  .reserved .define :: .ident definition.name.name :: .reserved .equals ::
    ((if definition.generics.isEmpty then [] else definition.generics.tokens) ++
      (definition.ports.tokens ++
        (definition.uses.flatMap Use.tokens ++ linksTokens definition.links)))

def Program.tokens (program : Program) : List Token :=
  program.definitions.flatMap Definition.tokens

/-! ## Texts and their tokens -/

variable {rest : List Char}

theorem intercalate_cons {Item : Type} (separator first : List Item) (further : List (List Item)) :
    separator.intercalate (first :: further) =
      first ++ further.flatMap fun part => separator ++ part := by
  induction further generalizing first with
  | nil => simp
  | cons next later ih => simp [List.intercalate_cons_cons, ih]

theorem apart_further (further : List Ident) (apart : Apart rest) :
    Apart ((further.flatMap fun ident => ',' :: ' ' :: ident.name.toList) ++ rest) := by
  cases further with
  | nil => exact apart
  | cons next more => exact apart_cons.mpr (by decide)

theorem marks_further {further : List Ident} (named : AllNamed further) (apart : Apart rest) :
    marks ((further.flatMap fun ident => ',' :: ' ' :: ident.name.toList) ++ rest) =
      (further.flatMap fun ident => [.reserved .comma, .ident ident.name]).map .token ++
        marks rest := by
  induction further with
  | nil => rfl
  | cons ident later ih =>
      obtain ⟨identNamed, laterNamed⟩ := allNamed_cons.mp named
      simp only [List.flatMap_cons, List.cons_append, List.append_assoc]
      rw [marks_char ',' .comma rfl rfl, marks_blank (by decide),
        marks_ident identNamed (apart_further later apart), ih laterNamed]
      simp

theorem toList_identsText (first : Ident) (further : List Ident) :
    (identsText (first :: further)).toList = first.name.toList ++
      further.flatMap fun ident => ',' :: ' ' :: ident.name.toList := by
  simp [identsText, Text.toList_commaList, intercalate_cons, List.flatMap_map]

theorem marks_idents {idents : List Ident} (named : AllNamed idents) (apart : Apart rest) :
    marks ((identsText idents).toList ++ rest) = (identTokens idents).map .token ++ marks rest := by
  cases idents with
  | nil => simp [identsText, Text.toList_commaList, identTokens]
  | cons first further =>
      obtain ⟨firstNamed, furtherNamed⟩ := allNamed_cons.mp named
      rw [toList_identsText, List.append_assoc,
        marks_ident firstNamed (apart_further further apart), marks_further furtherNamed apart]
      simp [identTokens]

/-- An opening angle is no sign `<>` before a list of identifiers. -/
theorem signOf?_openAngle {idents : List Ident} (named : AllNamed idents) :
    signOf? ('<' :: ((identsText idents).toList ++ ' ' :: rest)) = some .openAngle := by
  cases idents with
  | nil => simp [identsText, Text.toList_commaList, signOf?]
  | cons first further =>
      obtain ⟨⟨⟨c, later, spelled, starts, -⟩, -⟩, -⟩ := allNamed_cons.mp named
      have other : c ≠ '>' := by
        rintro rfl
        exact absurd starts (by decide)
      rw [toList_identsText, spelled]
      simp [signOf?, other]

theorem marks_existential {idents : List Ident} (named : AllNamed idents) :
    marks ((if idents.isEmpty then "" else " " ++ identsText idents).toList ++ '>' :: ' ' :: rest) =
      (identTokens idents).map .token ++ .token (.reserved .closeAngle) :: marks rest := by
  have closing : marks ('>' :: ' ' :: rest) = .token (.reserved .closeAngle) :: marks rest := by
    rw [marks_char '>' .closeAngle rfl rfl, marks_blank (by decide)]
  cases idents with
  | nil => exact closing
  | cons first further =>
      rw [← closing, ← marks_idents named (apart_cons.mpr (by decide))]
      simp only [List.isEmpty_cons, Bool.false_eq_true, if_false, String.toList_append,
        List.append_assoc]
      exact marks_blank (by decide)

/-- Generic symbols, and the blank that follows them. -/
theorem marks_generics {generics : Generics} (named : AllNamed generics.idents) :
    marks (generics.text.toList ++ ' ' :: rest) =
      generics.tokens.map .token ++ marks rest := by
  obtain ⟨universal, existential⟩ := allNamed_append.mp named
  have spelled : generics.text.toList ++ ' ' :: rest =
      '<' :: ((identsText generics.universal).toList ++ ' ' :: '|' ::
        ((if generics.existential.isEmpty then "" else
          " " ++ identsText generics.existential).toList ++ '>' :: ' ' :: rest)) := by
    simp [Generics.text]
  rw [spelled, marks_char '<' .openAngle rfl (signOf?_openAngle universal),
    marks_idents universal (apart_cons.mpr (by decide)), marks_blank (by decide),
    marks_char '|' .bar rfl rfl, marks_existential existential]
  simp [Generics.tokens]

theorem marks_ports {ports : Ports} (named : AllNamed ports.idents) :
    marks (ports.text.toList ++ rest) = ports.tokens.map .token ++ marks rest := by
  obtain ⟨inputs, outputs⟩ := allNamed_append.mp named
  have spelled : ports.text.toList ++ rest = '[' :: ((identsText ports.inputs).toList ++
      ' ' :: '|' :: ' ' :: ((identsText ports.outputs).toList ++ ']' :: rest)) := by
    simp [Ports.text]
  rw [spelled, marks_char '[' .openBracket rfl rfl,
    marks_idents inputs (apart_cons.mpr (by decide)), marks_blank (by decide),
    marks_char '|' .bar rfl rfl, marks_blank (by decide),
    marks_idents outputs (apart_cons.mpr (by decide)), marks_char ']' .closeBracket rfl rfl]
  simp [Ports.tokens]

/-- A symbol behind its sign. -/
theorem marks_signed (c : Char) (sign : Reserved) (spelled : sign.text.toList = [c])
    (longest : ∀ text, signOf? (c :: text) = some sign) {symbol : Ident}
    (named : IsIdentName symbol.name) (rest : List Char) :
    marks (c :: (symbol.name.toList ++ ' ' :: rest)) =
      .token (.reserved sign) :: .token (.ident symbol.name) :: marks rest := by
  rw [marks_char c sign spelled (longest _), marks_ident named (apart_cons.mpr (by decide)),
    marks_blank (by decide)]

/-- A box, and the blank that follows it. -/
theorem marks_box {box : BoxRef} (named : AllNamed box.idents) :
    marks (box.text.toList ++ ' ' :: rest) = box.tokens.map .token ++ marks rest := by
  have blank : marks (' ' :: rest) = marks rest := marks_blank (by decide)
  cases box with
  | add symbol =>
      have marked := marks_signed '+' .plus rfl (fun _ => rfl) (allNamed_cons.mp named).1 rest
      simpa [BoxRef.text, BoxRef.tokens] using marked
  | remove symbol =>
      have marked := marks_signed '-' .minus rfl (fun _ => rfl) (allNamed_cons.mp named).1 rest
      simpa [BoxRef.text, BoxRef.tokens] using marked
  | spawn symbol =>
      have marked := marks_signed '*' .star rfl (fun _ => rfl) (allNamed_cons.mp named).1 rest
      simpa [BoxRef.text, BoxRef.tokens] using marked
  | indexed tag count span =>
      have spelled : (BoxRef.indexed tag count span).text.toList ++ ' ' :: rest =
          tag.name.toList ++ '{' :: ((toString count.toNat).toList ++ '}' :: ' ' :: rest) := by
        simp [BoxRef.text]
      rw [spelled, marks_ident (allNamed_cons.mp named).1 (apart_cons.mpr (by decide)),
        marks_char '{' .openBrace rfl rfl, marks_number count (apart_cons.mpr (by decide)),
        marks_char '}' .closeBrace rfl rfl, blank]
      rfl
  | join span =>
      rw [show (BoxRef.join span).text.toList = Reserved.join.text.toList from rfl,
        marks_sign .join rfl rfl, blank]
      rfl
  | split span =>
      rw [show (BoxRef.split span).text.toList = Reserved.split.text.toList from rfl,
        marks_sign .split rfl rfl, blank]
      rfl
  | definition name arguments =>
      have nameNamed := (allNamed_cons.mp named).1
      cases arguments with
      | none =>
          rw [show (BoxRef.definition name none).text = name.name from rfl,
            marks_ident nameNamed (apart_cons.mpr (by decide)), blank]
          rfl
      | some arguments =>
          have spelled : (BoxRef.definition name (some arguments)).text.toList ++ ' ' :: rest =
              name.name.toList ++ ' ' :: (arguments.text.toList ++ ' ' :: rest) := by
            simp [BoxRef.text]
          rw [spelled, marks_ident nameNamed (apart_cons.mpr (by decide)), marks_blank (by decide),
            marks_generics (allNamed_cons.mp named).2]
          rfl

theorem marks_use {use : Use} (named : AllNamed use.idents) (apart : Apart rest) :
    marks (use.text.toList ++ rest) = use.tokens.map .token ++ marks rest := by
  obtain ⟨boxNamed, portsNamed, nameNamed⟩ :
      AllNamed use.box.idents ∧ AllNamed use.ports.idents ∧ IsIdentName use.name.name := by
    simpa [Use.idents] using named
  have spelled : use.text.toList ++ rest = "use".toList ++ ' ' :: (use.box.text.toList ++
      ' ' :: (use.ports.text.toList ++ ' ' :: ("as".toList ++ ' ' ::
        (use.name.name.toList ++ rest)))) := by
    simp [Use.text]
  rw [spelled, marks_word .use rfl (apart_cons.mpr (by decide)), marks_blank (by decide),
    marks_box boxNamed, marks_ports portsNamed, marks_blank (by decide),
    marks_word .as rfl (apart_cons.mpr (by decide)), marks_blank (by decide),
    marks_ident nameNamed apart]
  simp [Use.tokens]

theorem marks_portRef {ref : PortRef} (named : AllNamed ref.idents) (apart : Apart rest) :
    marks (ref.text.toList ++ rest) = ref.tokens.map .token ++ marks rest := by
  obtain ⟨owner, port, span⟩ := ref
  cases owner with
  | none => exact marks_ident (allNamed_cons.mp named).1 apart
  | some owner =>
      obtain ⟨ownerNamed, portNamed, -⟩ :
          IsIdentName owner.name ∧ IsIdentName port.name ∧ AllNamed [] := by
        simpa [PortRef.idents] using named
      have spelled : (PortRef.mk (some owner) port span).text.toList ++ rest =
          owner.name.toList ++ '.' :: (port.name.toList ++ rest) := by
        simp [PortRef.text]
      rw [spelled, marks_ident ownerNamed (apart_cons.mpr (by decide)), marks_char '.' .dot rfl rfl,
        marks_ident portNamed apart]
      rfl

theorem marks_link {link : Link} (named : AllNamed link.idents) (apart : Apart rest) :
    marks (link.text.toList ++ rest) = link.tokens.map .token ++ marks rest := by
  obtain ⟨sourceNamed, targetNamed⟩ := allNamed_append.mp named
  have spelled : link.text.toList ++ rest = link.source.text.toList ++
      ' ' :: (Reserved.arrow.text.toList ++ ' ' :: (link.target.text.toList ++ rest)) := by
    simp [Link.text, Reserved.text]
  rw [spelled, marks_portRef sourceNamed (apart_cons.mpr (by decide)), marks_blank (by decide),
    marks_sign .arrow rfl rfl, marks_blank (by decide), marks_portRef targetNamed apart]
  simp [Link.tokens]

/-- The header of a definition, on a line of its own. -/
theorem marks_header {definition : Definition} (named : AllNamed definition.idents) :
    marks (definition.headerText.toList ++ '\n' :: rest) =
      (.reserved .define :: .ident definition.name.name :: .reserved .equals ::
        ((if definition.generics.isEmpty then [] else definition.generics.tokens) ++
          definition.ports.tokens)).map .token ++ marks rest := by
  obtain ⟨nameNamed, genericsNamed, portsNamed, -⟩ : IsIdentName definition.name.name ∧
      AllNamed definition.generics.idents ∧ AllNamed definition.ports.idents ∧ True := by
    simp_all [Definition.idents]
  have ports : marks (definition.ports.text.toList ++ '\n' :: rest) =
      definition.ports.tokens.map .token ++ marks rest := by
    rw [marks_ports portsNamed, marks_blank (by decide)]
  have generics : marks ((if definition.generics.isEmpty then "" else
      definition.generics.text ++ " ").toList ++ (definition.ports.text.toList ++ '\n' :: rest)) =
      (if definition.generics.isEmpty then [] else definition.generics.tokens).map .token ++
        (definition.ports.tokens.map .token ++ marks rest) := by
    split
    · exact ports
    · rw [← ports, ← marks_generics genericsNamed]
      simp
  have spelled : definition.headerText.toList ++ '\n' :: rest = "def".toList ++ ' ' ::
      (definition.name.name.toList ++ ' ' :: '=' :: ' ' :: ((if definition.generics.isEmpty then ""
        else definition.generics.text ++ " ").toList ++
          (definition.ports.text.toList ++ '\n' :: rest))) := by
    simp [Definition.headerText]
  rw [spelled, marks_word .define rfl (apart_cons.mpr (by decide)),
    marks_blank (by decide), marks_ident nameNamed (apart_cons.mpr (by decide)),
    marks_blank (by decide), marks_char '=' .equals rfl rfl, marks_blank (by decide), generics]
  simp

/-- Parts on lines of their own, each after some blanks. -/
theorem marks_lines {Part : Type} (text : Part → List Char) {tokens : Part → List Token}
    (indent : List Char) (blank : ∀ c ∈ indent, isBlank c) {parts : List Part}
    (marked : ∀ part ∈ parts, ∀ rest, Apart rest →
      marks (text part ++ rest) = (tokens part).map .token ++ marks rest) (rest : List Char) :
    marks ((parts.flatMap fun part => indent ++ text part ++ ['\n']) ++ rest) =
      (parts.flatMap tokens).map .token ++ marks rest := by
  have indented (later : List Char) : marks (indent ++ later) = marks later := by
    clear marked
    induction indent with
    | nil => rfl
    | cons c more ih =>
        rw [List.cons_append, marks_blank (blank c (by simp))]
        exact ih fun d member => blank d (by simp [member])
  induction parts with
  | nil => rfl
  | cons part later ih =>
      simp only [List.flatMap_cons, List.append_assoc, List.cons_append, List.nil_append]
      rw [indented, marked part (by simp) _ (apart_cons.mpr (by decide)), marks_blank (by decide)]
      have := ih fun part member => marked part (by simp [member])
      simp only [List.append_assoc] at this
      rw [this]
      simp

/-- The lines of a block of links, if there is one. -/
def linkLines (links : List Link) : List Char :=
  if links.isEmpty then [] else
    [' ', ' ', ' ', ' '] ++ ("link".toList ++ '\n' ::
      links.flatMap fun link =>
        [' ', ' ', ' ', ' ', ' ', ' ', ' ', ' '] ++ link.text.toList ++ ['\n'])

theorem toList_definitionText (definition : Definition) :
    definition.text.toList = definition.headerText.toList ++ '\n' ::
      ((definition.uses.flatMap fun use => [' ', ' ', ' ', ' '] ++ use.text.toList ++ ['\n']) ++
        linkLines definition.links) := by
  unfold Definition.text linkLines
  dsimp only
  rw [Text.toList_lines]
  cases definition.links with
  | nil => simp [List.flatMap_map]
  | cons link later => simp [List.flatMap_map]

theorem marks_linkLines {links : List Link} (named : AllNamed (links.flatMap Link.idents)) :
    marks (linkLines links ++ rest) = (linksTokens links).map .token ++ marks rest := by
  have each := marks_lines (fun link : Link => link.text.toList)
    [' ', ' ', ' ', ' ', ' ', ' ', ' ', ' '] (by simp [isBlank])
    (fun link member _ => marks_link (named.of_mem member)) rest
  unfold linkLines linksTokens
  split
  · rfl
  · simp only [List.cons_append, List.nil_append, List.append_assoc] at each ⊢
    rw [marks_blank (by decide), marks_blank (by decide), marks_blank (by decide),
      marks_blank (by decide), marks_word .link rfl (apart_cons.mpr (by decide)),
      marks_blank (by decide), each]
    rfl

theorem marks_definition {definition : Definition} (named : AllNamed definition.idents) :
    marks (definition.text.toList ++ rest) = definition.tokens.map .token ++ marks rest := by
  have usesNamed : AllNamed (definition.uses.flatMap Use.idents) := by
    simp_all [Definition.idents]
  have linksNamed : AllNamed (definition.links.flatMap Link.idents) := by
    simp_all [Definition.idents]
  have uses := marks_lines (fun use : Use => use.text.toList) [' ', ' ', ' ', ' ']
    (by simp [isBlank])
    (fun use member _ => marks_use (usesNamed.of_mem member))
    (linkLines definition.links ++ rest)
  rw [toList_definitionText, List.append_assoc, List.cons_append, marks_header named,
    List.append_assoc, uses, marks_linkLines linksNamed]
  simp [Definition.tokens]

/-- The canonical text of a program is cut into the tokens of the program. -/
theorem marks_text {program : Program} (named : AllNamed program.idents) :
    marks program.text.toList = program.tokens.map .token := by
  have later {definitions : List Definition}
      (named : AllNamed (definitions.flatMap Definition.idents)) :
      marks (definitions.flatMap fun definition => '\n' :: definition.text.toList) =
        (definitions.flatMap Definition.tokens).map .token := by
    induction definitions with
    | nil => simp
    | cons definition more ih =>
        rw [List.flatMap_cons, List.cons_append, marks_blank (by decide),
          marks_definition (named.of_mem (by simp)), ih (allNamed_append.mp named).2]
        simp
  obtain ⟨definitions, span⟩ := program
  cases definitions with
  | nil => simp [Program.text, Program.tokens]
  | cons first more =>
      have spelled : (Program.mk (first :: more) span).text.toList = first.text.toList ++
          more.flatMap fun definition => '\n' :: definition.text.toList := by
        simp [Program.text, intercalate_cons, List.flatMap_map]
      obtain ⟨firstNamed, moreNamed⟩ := allNamed_append.mp named
      rw [spelled, marks_definition firstNamed, later moreNamed]
      simp [Program.tokens]

end FlowDiagram

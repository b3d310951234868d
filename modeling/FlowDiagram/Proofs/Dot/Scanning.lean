import FlowDiagram.Dot.Quoted
import FlowDiagram.Proofs.Dot.Reading
import FlowDiagram.Text.Joined
import Mathlib.Data.List.Basic

/-!
# What drawings are cut into

A text that ends behind a lexeme is cut as it is by itself, whatever follows.  A word ends before a
blank or a mark.  A quoted text is one lexeme, and what its label shows is the text.
-/

namespace FlowDiagram.Dot

/-! ## Texts that end behind a lexeme -/

/-- A text is cut into some lexemes and leaves nothing open. -/
def Scans (text : List Char) (lexemes : List Lexeme) : Prop :=
  ∀ before, text.foldlM Scanner.read ⟨.between, before⟩ =
    some ⟨.between, lexemes.reverse ++ before⟩

theorem Scans.nil : Scans [] [] :=
  fun _ => rfl

theorem Scans.append {first second : List Char} {lexemes others : List Lexeme}
    (scans : Scans first lexemes) (scansOthers : Scans second others) :
    Scans (first ++ second) (lexemes ++ others) := by
  intro before
  rw [List.foldlM_append, scans before]
  simpa using scansOthers (lexemes.reverse ++ before)

theorem Scans.scan_eq {text : List Char} {lexemes : List Lexeme} (scans : Scans text lexemes) :
    scan text = some lexemes := by
  simp [scan, scans []]

/-- A scanner that read other lexemes before. -/
def Scanner.behind (scanner : Scanner) (before : List Lexeme) : Scanner :=
  { scanner with lexemes := scanner.lexemes ++ before }

theorem Scanner.next_behind (lexemes before : List Lexeme) (c : Char) :
    next (lexemes ++ before) c = (next lexemes c).map (·.behind before) := by
  unfold next
  split_ifs <;> simp [behind, Function.comp_def]

/-- What was read before makes no difference to what is read next. -/
theorem Scanner.read_behind (scanner : Scanner) (before : List Lexeme) (c : Char) :
    (scanner.behind before).read c = (scanner.read c).map (·.behind before) := by
  obtain ⟨mode, lexemes⟩ := scanner
  cases mode with
  | between => exact next_behind lexemes before c
  | word chars =>
      have ended := next_behind (.word (String.ofList chars.reverse) :: lexemes) before c
      simp only [List.cons_append] at ended
      simp only [read, behind, ended]
      split_ifs <;> simp
  | dash | inside chars | escape chars =>
      simp only [read, behind]
      split_ifs <;> simp

theorem Scanner.foldlM_behind (text : List Char) (scanner : Scanner) (before : List Lexeme) :
    text.foldlM read (scanner.behind before) =
      (text.foldlM read scanner).map (·.behind before) := by
  induction text generalizing scanner with
  | nil => rfl
  | cons c rest ih =>
      rw [List.foldlM_cons, List.foldlM_cons, read_behind]
      cases scanner.read c with
      | none => rfl
      | some next => exact ih next

/-- Behind lexemes that leave nothing open, a text is scanned as it is by itself. -/
theorem Scans.scan_append {front : List Char} {lexemes : List Lexeme} (scans : Scans front lexemes)
    (back : List Char) : scan (front ++ back) = (scan back).map (lexemes ++ ·) := by
  have framed := Scanner.foldlM_behind back ⟨.between, []⟩ lexemes.reverse
  have goesOn : (front ++ back).foldlM Scanner.read ⟨.between, []⟩ =
      (back.foldlM Scanner.read ⟨.between, []⟩).map (·.behind lexemes.reverse) := by
    rw [List.foldlM_append, scans []]
    simpa [Scanner.behind] using framed
  unfold scan
  rw [goesOn]
  cases back.foldlM Scanner.read ⟨.between, []⟩ with
  | none => rfl
  | some scanner =>
      obtain ⟨mode, others⟩ := scanner
      cases mode <;> simp [Scanner.behind]

theorem scans_blanks {text : List Char} (blank : ∀ c ∈ text, isBlank c) : Scans text [] := by
  induction text with
  | nil => exact .nil
  | cons c rest ih =>
      obtain ⟨here, later⟩ := List.forall_mem_cons.mp blank
      intro before
      have next : Scanner.read ⟨.between, before⟩ c = some ⟨.between, before⟩ := by
        simp [Scanner.read, Scanner.next, here]
      rw [List.foldlM_cons, next]
      exact ih later before

/-! ## Words -/

theorem foldlM_word {text : List Char} (parts : ∀ c ∈ text, isWordChar c) (chars : List Char)
    (before : List Lexeme) :
    text.foldlM Scanner.read ⟨.word chars, before⟩ =
      some ⟨.word (text.reverse ++ chars), before⟩ := by
  induction text generalizing chars with
  | nil => rfl
  | cons c rest ih =>
      obtain ⟨here, later⟩ := List.forall_mem_cons.mp parts
      have next : Scanner.read ⟨.word chars, before⟩ c = some ⟨.word (c :: chars), before⟩ := by
        simp [Scanner.read, here]
      rw [List.foldlM_cons, next]
      simpa using ih later (c :: chars)

theorem isUpper_iff {c : Char} : c.isUpper ↔ 'A' ≤ c ∧ c ≤ 'Z' :=
  decide_eq_true_iff

theorem isLower_iff {c : Char} : c.isLower ↔ 'a' ≤ c ∧ c ≤ 'z' := by
  have spelled : c.isLower = (decide ('a' ≤ c) && decide (c ≤ 'z')) := rfl
  rw [spelled, Bool.and_eq_true, decide_eq_true_iff, decide_eq_true_iff]

theorem isAlpha_iff {c : Char} : c.isAlpha ↔ c.isUpper ∨ c.isLower := by
  have spelled : c.isAlpha = (c.isUpper || c.isLower) := rfl
  rw [spelled, Bool.or_eq_true]

theorem isWordChar_classes {c : Char} (part : isWordChar c) :
    isBlank c = false ∧ c ≠ '"' ∧ c ≠ '-' := by
  refine ⟨?_, ?_, ?_⟩
  · rw [Bool.eq_false_iff]
    intro blank
    simp only [isBlank, Bool.or_eq_true, beq_iff_eq] at blank
    rcases blank with ((rfl | rfl) | rfl) | rfl <;> exact absurd part (by decide)
  all_goals
    rintro rfl
    exact absurd part (by decide)

theorem isWordChar_of_isName {text : List Char} (name : isName text) :
    ∀ c ∈ text, isWordChar c := by
  cases text with
  | nil => simp
  | cons first rest =>
      simp only [isName, Bool.and_eq_true, Bool.or_eq_true, List.all_eq_true] at name
      refine List.forall_mem_cons.mpr ⟨?_, fun c member => ?_⟩
      · rcases name.1 with letter | underscore <;> simp_all [isWordChar, Char.isAlphanum]
      · rcases name.2 c member with letter | underscore <;> simp_all [isWordChar]

/-- A name that something else follows is a lexeme. -/
theorem scans_word {word : String} (name : isName word.toList) {c : Char} {rest : List Char}
    (ends : isWordChar c = false) {lexemes : List Lexeme} (scans : Scans (c :: rest) lexemes) :
    Scans (word.toList ++ c :: rest) (.word word :: lexemes) := by
  intro before
  have parts := isWordChar_of_isName name
  have read : word.toList.foldlM Scanner.read ⟨.between, before⟩ =
      some ⟨.word word.toList.reverse, before⟩ := by
    cases hword : word.toList with
    | nil => simp [hword, isName] at name
    | cons first others =>
        rw [hword] at parts
        obtain ⟨here, later⟩ := List.forall_mem_cons.mp parts
        obtain ⟨blank, quote, dash⟩ := isWordChar_classes here
        have next : Scanner.read ⟨.between, before⟩ first = some ⟨.word [first], before⟩ := by
          simp [Scanner.read, Scanner.next, blank, quote, dash, here]
        rw [List.foldlM_cons, next]
        simpa using foldlM_word later [first] before
  have closed : Scanner.read ⟨.word word.toList.reverse, before⟩ c =
      Scanner.read ⟨.between, .word word :: before⟩ c := by
    simp [Scanner.read, ends, name]
  have later := scans (.word word :: before)
  rw [List.foldlM_append, read]
  simp only [Option.bind_eq_bind, Option.bind_some, List.foldlM_cons, closed]
  simpa using later

/-! ## Quoted strings -/

/-- What a character is in a string that has been read. -/
def labelChar (c : Char) : List Char :=
  if c = '\\' then ['\\', '\\']
  else if c = '\n' then ['\\', 'n']
  else [c]

/-- The string that is read when a text was quoted. -/
def labelled (text : String) : String :=
  String.ofList (text.toList.flatMap labelChar)

theorem foldlM_quotedChar (c : Char) (chars : List Char) (before : List Lexeme) :
    (quotedChar c).foldlM Scanner.read ⟨.inside chars, before⟩ =
      some ⟨.inside ((labelChar c).reverse ++ chars), before⟩ := by
  unfold quotedChar labelChar
  split
  · rename_i quote
    subst quote
    rfl
  · rename_i quote
    split
    · rfl
    · rename_i backslash
      split
      · rfl
      · simp [Scanner.read, quote, backslash]

theorem foldlM_quotedChars (text chars : List Char) (before : List Lexeme) :
    (text.flatMap quotedChar).foldlM Scanner.read ⟨.inside chars, before⟩ =
      some ⟨.inside ((text.flatMap labelChar).reverse ++ chars), before⟩ := by
  induction text generalizing chars with
  | nil => rfl
  | cons c rest ih =>
      rw [List.flatMap_cons, List.foldlM_append, foldlM_quotedChar]
      simpa using ih ((labelChar c).reverse ++ chars)

/-- A quoted text is one lexeme: what is quoted cannot close the quotes. -/
theorem scans_quoted (text : String) : Scans (quoted text).toList [.quoted (labelled text)] := by
  intro before
  have opens : Scanner.read ⟨.between, before⟩ '"' = some ⟨.inside [], before⟩ := rfl
  rw [quoted, String.toList_ofList, quotedChars, List.foldlM_cons, opens]
  simp only [Option.bind_eq_bind, Option.bind_some, List.foldlM_append, foldlM_quotedChars]
  simp [Scanner.read, labelled]

theorem labelChars_append (c : Char) (rest : List Char) :
    labelChars (labelChar c ++ rest) = (labelChars rest).map (c :: ·) := by
  unfold labelChar
  split
  · rename_i backslash
    subst backslash
    rfl
  · rename_i backslash
    split
    · rename_i feed
      subst feed
      rfl
    · simp [labelChars, backslash]

/-- What the label shows is the text that was quoted. -/
@[simp]
theorem labelText_labelled (text : String) : labelText (labelled text) = some text := by
  have shown : ∀ chars : List Char, labelChars (chars.flatMap labelChar) = some chars := by
    intro chars
    induction chars with
    | nil => rfl
    | cons c rest ih => rw [List.flatMap_cons, labelChars_append, ih, Option.map_some]
  simp [labelText, labelled, shown]

end FlowDiagram.Dot

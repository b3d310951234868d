import FlowDiagram.Token.Scan

/-!
# What a text is cut into

Only the kinds of the pieces matter here, and blanks and comments do not.  A word or a number is cut
off whole when nothing follows that could be a part of it, and a sign when no longer sign starts
there.
-/

namespace FlowDiagram

/-! ## Marks -/

/-- The tokens and faults that a text is cut into. -/
def marks (text : List Char) : List PieceKind :=
  ((pieces text).map (·.kind)).filter fun kind => kind ≠ .blank ∧ kind ≠ .comment

@[simp]
theorem marks_nil : marks [] = [] := by
  simp [marks, pieces]

theorem tokens_of_pieces {cut : List Piece} {tokens : List Token}
    (kinds : (cut.map (·.kind)).filter (fun kind => kind ≠ .blank ∧ kind ≠ .comment) =
      tokens.map .token) (offset : Nat) :
    (lexemesFrom offset cut).map (·.token) = tokens ∧ faultsFrom offset cut = [] := by
  induction cut generalizing tokens offset with
  | nil =>
      have : tokens = [] := by simpa using kinds.symm
      simp [this, lexemesFrom, faultsFrom]
  | cons piece rest ih =>
      obtain ⟨kind, text⟩ := piece
      cases kind with
      | blank => exact ih (by simpa using kinds) _
      | comment => exact ih (by simpa using kinds) _
      | token token =>
          cases tokens with
          | nil => simp at kinds
          | cons first later =>
              simp only [List.map_cons, ne_eq, reduceCtorEq, not_false_eq_true, and_self,
                decide_true, List.filter_cons_of_pos, List.cons.injEq,
                PieceKind.token.injEq] at kinds
              obtain ⟨rfl, kinds⟩ := kinds
              obtain ⟨tokens, faults⟩ := ih kinds (offset + byteLength text)
              exact ⟨by simp [lexemesFrom, tokens], faults⟩
      | fault =>
          cases tokens with
          | nil => simp at kinds
          | cons first later => simp at kinds

/-- A text whose marks are all tokens has these tokens and no faults. -/
theorem tokens_of_marks {text : List Char} {tokens : List Token}
    (cut : marks text = tokens.map .token) :
    (lexemes text).map (·.token) = tokens ∧ lexicalFaults text = [] :=
  tokens_of_pieces cut 0

/-! ## One piece -/

theorem marks_blank {c : Char} {rest : List Char} (blank : isBlank c) :
    marks (c :: rest) = marks rest := by
  have first : Piece.first c rest = ⟨.blank, [c]⟩ := by
    unfold Piece.first
    rw [if_pos blank]
  unfold marks
  rw [pieces, first]
  simp

/-- A token that is cut off whole is the first mark. -/
theorem marks_of_first {c : Char} {text rest : List Char} {token : Token}
    (first : Piece.first c (text ++ rest) = ⟨.token token, c :: text⟩) :
    marks (c :: text ++ rest) = .token token :: marks rest := by
  unfold marks
  rw [List.cons_append, pieces, first]
  simp

/-- No character comes first that could go on with a word or a number. -/
def Apart (text : List Char) : Prop :=
  ∀ c ∈ text.head?, isIdentPart c = false

@[simp]
theorem apart_nil : Apart [] := by
  simp [Apart]

@[simp]
theorem apart_cons {c : Char} {rest : List Char} :
    Apart (c :: rest) ↔ isIdentPart c = false := by
  simp [Apart]

theorem takeWhile_append_of_head {test : Char → Bool} {text rest : List Char}
    (all : ∀ c ∈ text, test c) (ends : ∀ c ∈ rest.head?, test c = false) :
    (text ++ rest).takeWhile test = text := by
  rw [List.takeWhile_append_of_pos all]
  cases rest with
  | nil => simp
  | cons c later => simp [ends c (by simp)]

/-! ## Words and numbers -/

theorem isIdentStart_classes {c : Char} (starts : isIdentStart c) :
    isBlank c = false ∧ c ≠ '#' ∧ isDigit c = false := by
  refine ⟨?_, ?_, ?_⟩
  · rw [Bool.eq_false_iff]
    intro blank
    simp only [isBlank, Bool.or_eq_true, beq_iff_eq] at blank
    rcases blank with (((rfl | rfl) | rfl) | rfl) | rfl <;> exact absurd starts (by decide)
  · rintro rfl
    exact absurd starts (by decide)
  · simp only [isIdentStart, Bool.or_eq_true, Bool.and_eq_true, decide_eq_true_eq, beq_iff_eq,
      Char.le_def, UInt32.le_iff_toNat_le, Char.ext_iff, ← UInt32.toNat_inj, Char.reduceVal,
      UInt32.reduceToNat] at starts
    simp only [isDigit, Bool.and_eq_false_iff, decide_eq_false_iff_not, Char.le_def,
      UInt32.le_iff_toNat_le, Char.reduceVal, UInt32.reduceToNat]
    omega

theorem isDigit_classes {c : Char} (digit : isDigit c) : isBlank c = false ∧ c ≠ '#' := by
  refine ⟨?_, ?_⟩
  · rw [Bool.eq_false_iff]
    intro blank
    simp only [isBlank, Bool.or_eq_true, beq_iff_eq] at blank
    rcases blank with (((rfl | rfl) | rfl) | rfl) | rfl <;> exact absurd digit (by decide)
  · rintro rfl
    exact absurd digit (by decide)

/-- A run of identifier characters is cut off as one word. -/
theorem first_word {c : Char} {text rest : List Char} (starts : isIdentStart c)
    (parts : ∀ d ∈ text, isIdentPart d) (apart : Apart rest) :
    Piece.first c (text ++ rest) = Piece.ofWord (c :: text) := by
  obtain ⟨notBlank, notComment, notDigit⟩ := isIdentStart_classes starts
  unfold Piece.first
  rw [takeWhile_append_of_head parts apart]
  simp [notBlank, notComment, notDigit, starts]

theorem marks_ident {name : String} (named : IsIdentName name) {rest : List Char}
    (apart : Apart rest) : marks (name.toList ++ rest) = .token (.ident name) :: marks rest := by
  obtain ⟨⟨c, text, spelled, starts, parts⟩, free⟩ := named
  rw [spelled]
  refine marks_of_first ?_
  rw [first_word starts parts apart]
  unfold Piece.ofWord
  have same : String.ofList (c :: text) = name := by rw [← spelled, String.ofList_toList]
  simp [same, free]

/-- A reserved word is cut off as such. -/
theorem marks_word {name : String} (word : Reserved) (reserved : Reserved.ofWord? name = some word)
    {rest : List Char} (apart : Apart rest) :
    marks (name.toList ++ rest) = .token (.reserved word) :: marks rest := by
  have spelled : ∃ c text, name.toList = c :: text ∧ isIdentStart c ∧
      ∀ d ∈ text, isIdentPart d := by
    unfold Reserved.ofWord? at reserved
    split at reserved
    · subst name
      exact ⟨'d', ['e', 'f'], by simp, by decide, by simp [isIdentPart, isIdentStart]⟩
    · split at reserved
      · subst name
        exact ⟨'u', ['s', 'e'], by simp, by decide, by simp [isIdentPart, isIdentStart]⟩
      · split at reserved
        · subst name
          exact ⟨'a', ['s'], by simp, by decide, by simp [isIdentPart, isIdentStart]⟩
        · split at reserved
          · subst name
            exact ⟨'l', ['i', 'n', 'k'], by simp, by decide, by simp [isIdentPart, isIdentStart]⟩
          · cases reserved
  obtain ⟨c, text, spelled, starts, parts⟩ := spelled
  rw [spelled]
  refine marks_of_first ?_
  rw [first_word starts parts apart]
  unfold Piece.ofWord
  have same : String.ofList (c :: text) = name := by rw [← spelled, String.ofList_toList]
  simp [same, reserved]

theorem isDigit_of_mem_toDigits {value : Nat} {c : Char} (member : c ∈ Nat.toDigits 10 value) :
    isDigit c := by
  have digit := Nat.isDigit_of_mem_toDigits (by decide) (by decide) member
  simpa [isDigit, Char.isDigit, Char.le_def] using digit

theorem decimalValue_eq (digits : List Char) :
    decimalValue digits = Nat.ofDigitChars 10 digits 0 := by
  unfold decimalValue Nat.ofDigitChars
  simp only [Nat.mul_comm]

theorem decimalValue_toDigits (value : Nat) : decimalValue (Nat.toDigits 10 value) = value := by
  rw [decimalValue_eq, Nat.ofDigitChars_toDigits (by decide) (by decide)]

theorem marks_number (value : UInt32) {rest : List Char} (apart : Apart rest) :
    marks ((toString value.toNat).toList ++ rest) = .token (.number value) :: marks rest := by
  have spelled : (toString value.toNat).toList = Nat.toDigits 10 value.toNat := by simp [toString]
  obtain ⟨c, text, digits⟩ := List.exists_cons_of_ne_nil (Nat.toDigits_ne_nil (n := value.toNat))
  have all : ∀ d ∈ c :: text, isDigit d := by
    rw [← digits]
    exact fun d => isDigit_of_mem_toDigits
  have ends : ∀ d ∈ rest.head?, isDigit d = false := by
    intro d head
    have part := apart d head
    simp only [isIdentPart, Bool.or_eq_false_iff] at part
    exact part.2
  obtain ⟨notBlank, notComment⟩ := isDigit_classes (all c (by simp))
  rw [spelled, digits]
  refine marks_of_first ?_
  unfold Piece.first
  rw [takeWhile_append_of_head (fun d member => all d (by simp [member])) ends]
  simp only [notBlank, notComment, all c (by simp), if_true, if_false, Bool.false_eq_true]
  unfold Piece.ofDigits
  rw [← digits, decimalValue_toDigits]
  simp [UInt32.toNat_lt_size]

/-! ## Signs -/

/-- A sign is cut off when it is the longest that starts there. -/
theorem marks_sign (sign : Reserved) {text rest : List Char} (spelled : sign.text.toList = text)
    (longest : signOf? (text ++ rest) = some sign) :
    marks (text ++ rest) = .token (.reserved sign) :: marks rest := by
  have opening : ∃ c later, sign.text.toList = c :: later ∧ isBlank c = false ∧ c ≠ '#' ∧
      isDigit c = false ∧ isIdentStart c = false := by
    cases sign
    case define | use | as | link => subst text; simp [Reserved.text, signOf?] at longest
    all_goals exact ⟨_, _, rfl, by decide, by decide, by decide, by decide⟩
  obtain ⟨c, later, opened, notBlank, notComment, notDigit, notStart⟩ := opening
  obtain rfl : c :: later = text := opened.symm.trans spelled
  refine marks_of_first ?_
  unfold Piece.first
  rw [← List.cons_append, longest]
  simp [notBlank, notComment, notDigit, notStart, opened]

/-- A sign of one character. -/
theorem marks_char (c : Char) (sign : Reserved) {rest : List Char}
    (spelled : sign.text.toList = [c]) (longest : signOf? (c :: rest) = some sign) :
    marks (c :: rest) = .token (.reserved sign) :: marks rest :=
  marks_sign sign spelled longest

end FlowDiagram

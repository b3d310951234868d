import FlowDiagram.Proofs.Program.Scanning
import Mathlib.Data.List.TakeWhile

/-!
# What a source is divided into

A source is read from its beginning to its end, without loss: blanks and comments are passed over,
and what stands between them are tokens and faults.  A token is the longest text that any token can
have there, and a word wins over an identifier of the same text.  A fault is a character with which
nothing starts, or a run of digits that is no number of the language.  This decides how a source is
divided.
-/

namespace FlowDiagram

/-! ## Texts of tokens -/

/--
The texts that tokens can have: those of the words and signs, runs of digits, and runs of identifier
characters that start with no digit.
-/
inductive IsTokenText : List Char → Prop where
  | reserved (word : Reserved) : IsTokenText word.text.toList
  | digits {c : Char} {rest : List Char} (first : isDigit c) (further : ∀ d ∈ rest, isDigit d) :
      IsTokenText (c :: rest)
  | word {c : Char} {rest : List Char} (first : isIdentStart c)
      (further : ∀ d ∈ rest, isIdentPart d) : IsTokenText (c :: rest)

/-- The token that a text is: no text of a word or sign is an identifier. -/
inductive Token.HasText : Token → List Char → Prop where
  | reserved (word : Reserved) : HasText (.reserved word) word.text.toList
  | number {c : Char} {rest : List Char} {value : UInt32} (first : isDigit c)
      (further : ∀ d ∈ rest, isDigit d)
      (valued : Nat.ofDigitChars 10 (c :: rest) 0 = value.toNat) :
      HasText (.number value) (c :: rest)
  | ident {name : String} {c : Char} {rest : List Char} (spelled : name.toList = c :: rest)
      (first : isIdentStart c) (further : ∀ d ∈ rest, isIdentPart d)
      (free : ∀ word : Reserved, word.text ≠ name) : HasText (.ident name) (c :: rest)

/-- The longest beginning of a text that a token can have; `rest` is what follows it. -/
structure IsLongest (text rest : List Char) : Prop where
  isTokenText : IsTokenText text
  longest : ∀ longer, longer <+: text ++ rest → IsTokenText longer → longer.length ≤ text.length

/-- A token, a blank or a comment can start with the character. -/
def CanStart (c : Char) : Prop :=
  isBlank c ∨ c = '#' ∨ ∃ rest, IsTokenText (c :: rest)

/--
The text of a fault between what stands before it and what follows: a character with which nothing
can start, or a run of digits, not to be made longer at either end, whose value is too large.
-/
inductive IsFaultText (before rest : List Char) : List Char → Prop where
  | stray {c : Char} (nothing : ¬ CanStart c) : IsFaultText before rest [c]
  | tooLarge {c : Char} {more : List Char} (first : isDigit c) (further : ∀ d ∈ more, isDigit d)
      (opened : ∀ d ∈ before.getLast?, isDigit d = false)
      (closed : ∀ d ∈ rest.head?, isDigit d = false)
      (exceeds : UInt32.size ≤ Nat.ofDigitChars 10 (c :: more) 0) :
      IsFaultText before rest (c :: more)

/-! ## Divisions -/

/-- The bytes of a span are those of `text`, which stands in the source between the other two. -/
structure Span.Cuts (span : Span) (source first text last : List Char) : Prop where
  whole : source = first ++ (text ++ last)
  start : span.start = byteLength first
  stop : span.stop = byteLength (first ++ text)

/-- A token or a fault where it stands in a source. -/
inductive SourceItem where
  | token (lexeme : Lexeme)
  | fault (fault : LexicalFault)
  deriving DecidableEq

namespace SourceItem

def span : SourceItem → Span
  | token lexeme => lexeme.span
  | fault found => found.span

def lexeme? : SourceItem → Option Lexeme
  | token lexeme => some lexeme
  | fault _ => none

def fault? : SourceItem → Option LexicalFault
  | token _ => none
  | fault found => some found

/-- The item has this text, between what stands before it and what follows. -/
def Reads (before text rest : List Char) : SourceItem → Prop
  | token lexeme => lexeme.token.HasText text ∧ IsLongest text rest
  | fault found => found.text = text ∧ IsFaultText before rest text

end SourceItem

/--
The items of a source, behind what has been read of it before.  Blanks are passed over one by one,
and comments from their `#` up to the end of the line.
-/
inductive Divides : List Char → List Char → List SourceItem → Prop where
  | done {before : List Char} : Divides before [] []
  | blank {before rest : List Char} {c : Char} {items : List SourceItem} (blank : isBlank c)
      (further : Divides (before ++ [c]) rest items) : Divides before (c :: rest) items
  | comment {before source line rest : List Char} {items : List SourceItem}
      (cut : source = '#' :: line ++ rest) (within : '\n' ∉ line)
      (ended : ∀ c ∈ rest.head?, c = '\n')
      (further : Divides (before ++ '#' :: line) rest items) : Divides before source items
  | item {before source text rest : List Char} {item : SourceItem} {items : List SourceItem}
      (cut : source = text ++ rest)
      (placed : item.span = ⟨byteLength before, byteLength (before ++ text)⟩)
      (reads : item.Reads before text rest)
      (further : Divides (before ++ text) rest items) : Divides before source (item :: items)

/-! ## Texts of tokens, by their first characters -/

section Texts

variable {c : Char} {text other rest later : List Char} {word : Reserved}

theorem Reserved.not_isDigit_of_text (spelled : word.text.toList = c :: rest) :
    isDigit c = false := by
  cases word <;> cases spelled <;> decide

theorem Reserved.isIdentPart_of_text (spelled : word.text.toList = c :: rest)
    (starts : isIdentStart c) : ∀ d ∈ rest, isIdentPart d := by
  refine List.all_eq_true.mp ?_
  cases word <;> cases spelled <;> revert starts <;> decide

theorem Reserved.text_injective : Function.Injective Reserved.text := by
  intro first second same
  cases first <;> revert same <;> cases second <;> decide

theorem IsTokenText.ne_nil (isText : IsTokenText text) : text ≠ [] := by
  cases isText with
  | reserved word => cases word <;> decide
  | digits | word => exact List.cons_ne_nil _ _

theorem IsTokenText.of_isDigit (isText : IsTokenText (c :: rest)) (digit : isDigit c) :
    ∀ d ∈ rest, isDigit d := by
  generalize whole : c :: rest = text at isText
  cases isText with
  | reserved word =>
      rw [Reserved.not_isDigit_of_text whole.symm] at digit
      cases digit
  | digits first further =>
      cases whole
      exact further
  | word first further =>
      cases whole
      rw [(isIdentStart_classes first).2.2] at digit
      cases digit

theorem IsTokenText.of_isIdentStart (isText : IsTokenText (c :: rest)) (starts : isIdentStart c) :
    ∀ d ∈ rest, isIdentPart d := by
  generalize whole : c :: rest = text at isText
  cases isText with
  | reserved word => exact Reserved.isIdentPart_of_text whole.symm starts
  | digits first further =>
      cases whole
      rw [(isIdentStart_classes starts).2.2] at first
      cases first
  | word first further =>
      cases whole
      exact further

/-- What starts with no digit and no identifier character is a sign. -/
theorem IsTokenText.exists_sign (isText : IsTokenText (c :: rest)) (notDigit : isDigit c = false)
    (notStart : isIdentStart c = false) : ∃ sign : Reserved, sign.text.toList = c :: rest := by
  generalize whole : c :: rest = text at isText
  cases isText with
  | reserved word => exact ⟨word, rfl⟩
  | digits first further =>
      cases whole
      rw [notDigit] at first
      cases first
  | word first further =>
      cases whole
      rw [notStart] at first
      cases first

/-- No token starts like a blank or a comment. -/
theorem IsTokenText.classes (isText : IsTokenText (c :: rest)) : isBlank c = false ∧ c ≠ '#' := by
  generalize whole : c :: rest = text at isText
  cases isText with
  | reserved word => cases word <;> cases whole <;> decide
  | digits first further =>
      cases whole
      exact isDigit_classes first
  | word first further =>
      cases whole
      exact ⟨(isIdentStart_classes first).1, (isIdentStart_classes first).2.1⟩

/-! ## Longest texts -/

theorem IsLongest.length_le (longest : IsLongest text rest) (isText : IsTokenText other)
    (same : other ++ later = text ++ rest) : other.length ≤ text.length :=
  longest.longest other ⟨later, same⟩ isText

/-- There is only one longest text. -/
theorem IsLongest.unique (longest : IsLongest text rest) (alsoLongest : IsLongest other later)
    (same : text ++ rest = other ++ later) : text = other ∧ rest = later :=
  List.append_inj same (Nat.le_antisymm (alsoLongest.length_le longest.isTokenText same)
    (longest.length_le alsoLongest.isTokenText same.symm))

theorem Token.HasText.isTokenText {token : Token} (has : token.HasText text) :
    IsTokenText text := by
  cases has with
  | reserved word => exact .reserved word
  | number first further valued => exact .digits first further
  | ident spelled first further free => exact .word first further

/-- The text of a word or sign is that and nothing else. -/
theorem Token.HasText.eq_reserved {token : Token} (has : token.HasText text)
    (spelled : word.text.toList = text) : token = .reserved word := by
  cases has with
  | reserved other => rw [Reserved.text_injective (String.toList_inj.mp spelled)]
  | number first further valued =>
      rw [Reserved.not_isDigit_of_text spelled] at first
      cases first
  | ident named first further free =>
      exact absurd (String.toList_inj.mp (spelled.trans named.symm)) (free word)

/-- What starts with a digit is a number, and has its value. -/
theorem Token.HasText.eq_number {token : Token} (has : token.HasText (c :: rest))
    (digit : isDigit c) :
    ∃ value, token = .number value ∧ Nat.ofDigitChars 10 (c :: rest) 0 = value.toNat := by
  generalize whole : c :: rest = text at has
  cases has with
  | reserved word =>
      rw [Reserved.not_isDigit_of_text whole.symm] at digit
      cases digit
  | number first further valued => exact ⟨_, rfl, valued⟩
  | ident named first further free =>
      cases whole
      rw [(isIdentStart_classes first).2.2] at digit
      cases digit

theorem Token.HasText.eq_name {name : String} (has : (Token.ident name).HasText text) :
    text = name.toList := by
  cases has with
  | ident spelled first further free => exact spelled.symm

/-- A text is that of one token only. -/
theorem Token.HasText.unique {first second : Token} (has : first.HasText text)
    (alsoHas : second.HasText text) : first = second := by
  cases has with
  | reserved word => exact (alsoHas.eq_reserved rfl).symm
  | number digit further valued =>
      obtain ⟨value, rfl, same⟩ := alsoHas.eq_number digit
      rw [UInt32.toNat_inj.mp (valued.symm.trans same)]
  | ident named starts further free =>
      generalize whole : _ :: _ = text at alsoHas
      cases alsoHas with
      | reserved word =>
          exact absurd (String.toList_inj.mp (whole.symm.trans named.symm)) (free word)
      | number digit further valued =>
          cases whole
          rw [(isIdentStart_classes starts).2.2] at digit
          cases digit
      | ident alsoNamed first further free =>
          rw [String.toList_inj.mp ((named.trans whole).trans alsoNamed.symm)]

/-- Longest texts in a class of characters: those that `takeWhile` takes. -/
theorem length_le_takeWhile {test : Char → Bool} (begins : text <+: rest)
    (all : ∀ d ∈ text, test d) : text.length ≤ (rest.takeWhile test).length := by
  obtain ⟨later, rfl⟩ := begins
  rw [List.takeWhile_append_of_pos all, List.length_append]
  exact Nat.le_add_right _ _

/-- Where only characters of one class can go on, a text is longest when none of them does. -/
theorem isLongest_of_class {test : Char → Bool} (isText : IsTokenText (c :: text))
    (within : ∀ more, IsTokenText (c :: more) → ∀ d ∈ more, test d)
    (closed : ∀ d ∈ rest.head?, test d = false) : IsLongest (c :: text) rest where
  isTokenText := isText
  longest longer begins alsoText := by
    cases longer with
    | nil => exact absurd rfl alsoText.ne_nil
    | cons d more =>
        obtain ⟨rfl, shorter⟩ := List.cons_prefix_cons.mp begins
        have taken := length_le_takeWhile shorter (within more alsoText)
        change _ ≤ ((text ++ rest).takeWhile test).length at taken
        rw [takeWhile_append_of_head (within text isText) closed] at taken
        exact Nat.succ_le_succ taken

/-! ## Signs -/

theorem signOf?_prefix {sign : Reserved} (found : signOf? text = some sign) :
    sign.text.toList <+: text := by
  unfold signOf? at found
  split at found <;> cases found <;> simp [Reserved.text]

/-- Where no sign is found, none can start. -/
theorem isIdentStart_of_signOf?_eq_none (nothing : signOf? (c :: rest) = none)
    (spelled : word.text.toList = c :: text) : isIdentStart c := by
  unfold signOf? at nothing
  split at nothing
  case h_17 others =>
    cases word
    case define | use | as | link => cases spelled; decide
    all_goals
      simp only [Reserved.text, String.reduceToList, List.cons.injEq] at spelled
      obtain ⟨rfl, -⟩ := spelled
      simp at *
  all_goals cases nothing

/-- The sign that is found is the longest there. -/
theorem length_le_of_signOf? {sign : Reserved} (found : signOf? (c :: rest) = some sign)
    (notStart : isIdentStart c = false) (begins : word.text.toList <+: c :: rest) :
    word.text.toList.length ≤ sign.text.toList.length := by
  obtain ⟨later, whole⟩ := begins
  have some_ : 1 ≤ sign.text.toList.length :=
    List.length_pos_iff.mpr (IsTokenText.reserved sign).ne_nil
  cases word
  case define | use | as | link =>
    cases whole
    exact absurd notStart (by decide)
  case arrow | join | split =>
    cases whole
    cases found
    decide
  all_goals exact some_

end Texts

/-! ## The first piece of a text -/

/-- What a text can be cut into first: `c :: more`, with `rest` behind it. -/
inductive CutsOff (c : Char) (more rest : List Char) : PieceKind → Prop where
  | blank (isBlank : isBlank c) (alone : more = []) : CutsOff c more rest .blank
  | comment (opening : c = '#') (within : '\n' ∉ more) (ended : ∀ d ∈ rest.head?, d = '\n') :
      CutsOff c more rest .comment
  | token {token : Token} (has : token.HasText (c :: more)) (longest : IsLongest (c :: more) rest) :
      CutsOff c more rest (.token token)
  | stray (nothing : ¬ CanStart c) (alone : more = []) : CutsOff c more rest .fault
  | tooLarge (first : isDigit c) (further : ∀ d ∈ more, isDigit d)
      (closed : ∀ d ∈ rest.head?, isDigit d = false)
      (exceeds : UInt32.size ≤ Nat.ofDigitChars 10 (c :: more) 0) : CutsOff c more rest .fault

section Pieces

variable {c : Char} {more rest : List Char}

/-- The character that ends a run of a class is none of it. -/
theorem head?_dropWhile {test : Char → Bool} {text : List Char} :
    ∀ d ∈ (text.dropWhile test).head?, test d = false := by
  intro d first
  have ends := List.head?_dropWhile_not test text
  rw [first] at ends
  simpa using ends

theorem Piece.ofDigits_cutsOff (digit : isDigit c) (further : ∀ d ∈ more, isDigit d)
    (closed : ∀ d ∈ rest.head?, isDigit d = false) :
    (Piece.ofDigits (c :: more)).text = c :: more ∧
      CutsOff c more rest (Piece.ofDigits (c :: more)).kind := by
  unfold Piece.ofDigits
  dsimp only
  rw [decimalValue_eq]
  split
  · rename_i fits
    refine ⟨rfl, .token (.number digit further ?_) ?_⟩
    · rw [UInt32.toNat_ofNat_of_lt' fits]
    · exact isLongest_of_class (.digits digit further) (fun _ text => text.of_isDigit digit) closed
  · rename_i exceeds
    exact ⟨rfl, .tooLarge digit further closed (Nat.le_of_not_lt exceeds)⟩

theorem Reserved.ofWord?_eq_some {name : String} {word : Reserved}
    (found : Reserved.ofWord? name = some word) : word.text = name := by
  unfold Reserved.ofWord? at found
  split_ifs at found <;> cases found <;> subst name <;> rfl

/-- An identifier is none of the words, and starts like none of the signs. -/
theorem Reserved.text_ne {name : String} (spelled : name.toList = c :: more)
    (starts : isIdentStart c) (free : Reserved.ofWord? name = none) (word : Reserved) :
    word.text ≠ name := by
  rintro rfl
  cases word <;> cases spelled <;> first | exact absurd starts (by decide) | cases free

theorem Piece.ofWord_cutsOff (starts : isIdentStart c) (further : ∀ d ∈ more, isIdentPart d)
    (closed : ∀ d ∈ rest.head?, isIdentPart d = false) :
    (Piece.ofWord (c :: more)).text = c :: more ∧
      CutsOff c more rest (Piece.ofWord (c :: more)).kind := by
  have longest : IsLongest (c :: more) rest :=
    isLongest_of_class (.word starts further) (fun _ text => text.of_isIdentStart starts) closed
  have spelled : (String.ofList (c :: more)).toList = c :: more := String.toList_ofList
  unfold Piece.ofWord
  dsimp only
  split
  · rename_i word found
    have text : word.text.toList = c :: more := by rw [Reserved.ofWord?_eq_some found, spelled]
    exact ⟨rfl, .token (text ▸ .reserved word) longest⟩
  · rename_i free
    exact ⟨rfl, .token (.ident spelled starts further (Reserved.text_ne spelled starts free))
      longest⟩

theorem Piece.ofSign_cutsOff {sign : Reserved} (found : signOf? (c :: more ++ rest) = some sign)
    (spelled : sign.text.toList = c :: more) (notDigit : isDigit c = false)
    (notStart : isIdentStart c = false) : CutsOff c more rest (.token (.reserved sign)) := by
  refine .token (spelled ▸ .reserved sign)
    ⟨spelled ▸ .reserved sign, fun longer begins isText => ?_⟩
  cases longer with
  | nil => exact absurd rfl isText.ne_nil
  | cons d further =>
      obtain ⟨rfl, -⟩ := List.cons_prefix_cons.mp begins
      obtain ⟨word, text⟩ := isText.exists_sign notDigit notStart
      rw [← text] at begins ⊢
      rw [← spelled]
      exact length_le_of_signOf? found notStart begins

theorem not_canStart (notBlank : isBlank c = false) (notComment : c ≠ '#')
    (notDigit : isDigit c = false) (notStart : isIdentStart c = false)
    (nothing : signOf? (c :: rest) = none) : ¬ CanStart c := by
  rintro (blank | comment | ⟨more, isText⟩)
  · rw [notBlank] at blank
    cases blank
  · exact notComment comment
  · obtain ⟨word, text⟩ := isText.exists_sign notDigit notStart
    rw [isIdentStart_of_signOf?_eq_none nothing text] at notStart
    cases notStart

/-- The first piece of a text. -/
theorem Piece.first_cutsOff (c : Char) (text : List Char) :
    ∃ more rest, text = more ++ rest ∧ (Piece.first c text).text = c :: more ∧
      CutsOff c more rest (Piece.first c text).kind := by
  have cut (test : Char → Bool) : text = text.takeWhile test ++ text.dropWhile test :=
    List.takeWhile_append_dropWhile.symm
  have all (test : Char → Bool) : ∀ d ∈ text.takeWhile test, test d :=
    List.all_eq_true.mp List.all_takeWhile
  unfold Piece.first
  split_ifs with blank comment digit starts
  · exact ⟨[], text, rfl, rfl, .blank blank rfl⟩
  · refine ⟨_, _, cut (· ≠ '\n'), rfl, .comment comment ?_ ?_⟩
    · exact fun member => absurd (all _ _ member) (by decide)
    · exact fun d first => by simpa using head?_dropWhile d first
  · exact ⟨_, _, cut isDigit, Piece.ofDigits_cutsOff digit (all isDigit) head?_dropWhile⟩
  · exact ⟨_, _, cut isIdentPart, Piece.ofWord_cutsOff starts (all isIdentPart) head?_dropWhile⟩
  · rw [Bool.not_eq_true] at blank digit starts
    split
    · rename_i sign found
      obtain ⟨rest, whole⟩ := signOf?_prefix found
      cases spelled : sign.text.toList with
      | nil => exact absurd spelled (IsTokenText.reserved sign).ne_nil
      | cons d more =>
          rw [spelled] at whole
          cases whole
          exact ⟨more, rest, rfl, rfl, ofSign_cutsOff found spelled digit starts⟩
    · rename_i nothing
      exact ⟨[], text, rfl, rfl, .stray (not_canStart blank comment digit starts nothing) rfl⟩

/-- What is cut off does not split a run of digits. -/
theorem CutsOff.apart {kind : PieceKind} (cuts : CutsOff c more rest kind) :
    ∀ d ∈ (c :: more).getLast?, isDigit d → ∀ e ∈ rest.head?, isDigit e = false := by
  intro d last digit e next
  cases cuts with
  | blank isBlank alone =>
      subst alone
      obtain rfl : c = d := by simpa using last
      rw [(isDigit_classes digit).1] at isBlank
      cases isBlank
  | comment opening within ended =>
      rw [ended e next]
      decide
  | token has longest =>
      by_contra goesOn
      rw [Bool.not_eq_false] at goesOn
      have isText : IsTokenText (c :: more ++ [e]) := by
        generalize whole : c :: more = text at has last ⊢
        cases has with
        | reserved word => cases word <;> cases last <;> exact absurd digit (by decide)
        | number first further valued =>
            exact .digits first (List.forall_mem_append.mpr ⟨further, by simpa using goesOn⟩)
        | ident spelled first further free =>
            exact .word first
              (List.forall_mem_append.mpr ⟨further, by simp [isIdentPart, goesOn]⟩)
      obtain ⟨later, rfl⟩ := List.head?_eq_some_iff.mp next
      have shorter := longest.longest _ ⟨later, by simp⟩ isText
      simp only [List.length_append, List.length_singleton] at shorter
      omega
  | stray nothing alone =>
      subst alone
      obtain rfl : c = d := by simpa using last
      exact absurd (.inr (.inr ⟨[], .digits digit (List.forall_mem_nil _)⟩)) nothing
  | tooLarge first further closed exceeds => exact closed e next

end Pieces

/-! ## A division of each source -/

/-- Behind a text that splits no run of digits, a source is divided as it is cut. -/
theorem exists_divides (before source : List Char)
    (apart : ∀ d ∈ before.getLast?, isDigit d → ∀ e ∈ source.head?, isDigit e = false) :
    ∃ items, Divides before source items ∧
      items.filterMap SourceItem.lexeme? = lexemesFrom (byteLength before) (pieces source) ∧
      items.filterMap SourceItem.fault? = faultsFrom (byteLength before) (pieces source) := by
  induction source using pieces.induct generalizing before with
  | case1 => exact ⟨[], .done, by simp [pieces, lexemesFrom], by simp [pieces, faultsFrom]⟩
  | case2 c text piece ih =>
      obtain ⟨more, rest, rfl, own, cuts⟩ := Piece.first_cutsOff c text
      have dropped : (more ++ rest).drop (piece.text.length - 1) = rest := by
        rw [show piece.text = c :: more from own]
        simp
      rw [dropped] at ih
      have length : byteLength before + byteLength (c :: more) = byteLength (before ++ c :: more) :=
        (byteLength_append before _).symm
      obtain ⟨items, divides, tokens, faults⟩ :=
        ih (before ++ c :: more) (by simpa using cuts.apart)
      rw [pieces, show (more ++ rest).drop ((Piece.first c (more ++ rest)).text.length - 1) = rest
        from dropped]
      rw [lexemesFrom, faultsFrom]
      cases whole : Piece.first c (more ++ rest) with
      | mk kind text =>
          rw [whole] at own cuts
          dsimp only at own cuts ⊢
          subst own
          rw [length, ← tokens, ← faults]
          cases cuts with
          | blank isBlank alone =>
              subst alone
              exact ⟨items, .blank isBlank divides, rfl, rfl⟩
          | comment opening within ended =>
              subst opening
              exact ⟨items, .comment rfl within ended divides, rfl, rfl⟩
          | token has longest =>
              exact ⟨.token ⟨_, _, _⟩ :: items, .item rfl rfl ⟨has, longest⟩ divides, rfl, rfl⟩
          | stray nothing alone =>
              subst alone
              exact ⟨.fault ⟨_, _, _⟩ :: items, .item rfl rfl ⟨rfl, .stray nothing⟩ divides,
                rfl, rfl⟩
          | tooLarge first further closed exceeds =>
              have opened : ∀ d ∈ before.getLast?, isDigit d = false := by
                intro d last
                by_contra digit
                rw [Bool.not_eq_false] at digit
                rw [apart d last digit c rfl] at first
                cases first
              exact ⟨.fault ⟨_, _, _⟩ :: items,
                .item rfl rfl ⟨rfl, .tooLarge first further opened closed exceeds⟩ divides,
                rfl, rfl⟩

/-! ## No other division -/

namespace SourceItem

variable {before text rest other later : List Char} {item found : SourceItem}

/-- No item starts like a blank or a comment. -/
theorem Reads.classes (reads : item.Reads before text rest) :
    ∃ c more, text = c :: more ∧ isBlank c = false ∧ c ≠ '#' := by
  cases item with
  | token lexeme =>
      have isText := reads.1.isTokenText
      cases text with
      | nil => exact absurd rfl isText.ne_nil
      | cons c more => exact ⟨c, more, rfl, isText.classes⟩
  | fault fault =>
      cases reads.2 with
      | @stray c nothing =>
          refine ⟨c, [], rfl, ?_, fun comment => nothing (.inr (.inl comment))⟩
          rw [← Bool.not_eq_true]
          exact fun blank => nothing (.inl blank)
      | @tooLarge c more first => exact ⟨c, more, rfl, isDigit_classes first⟩

theorem Reads.isLongest_or_stray (reads : item.Reads before text rest) :
    IsLongest text rest ∨ ∃ c, text = [c] ∧ ¬ CanStart c := by
  cases item with
  | token lexeme => exact .inl reads.2
  | fault fault =>
      cases reads.2 with
      | @stray c nothing => exact .inr ⟨c, rfl, nothing⟩
      | tooLarge first further opened closed exceeds =>
          exact .inl (isLongest_of_class (.digits first further)
            (fun _ isText => isText.of_isDigit first) closed)

theorem not_isLongest_of_stray {c : Char} (nothing : ¬ CanStart c)
    (same : text ++ rest = c :: later) : ¬ IsLongest text rest := by
  intro longest
  cases text with
  | nil => exact longest.isTokenText.ne_nil rfl
  | cons d more =>
      cases same
      exact nothing (.inr (.inr ⟨more, longest.isTokenText⟩))

/-- Of the texts at the beginning of what is to be read, only one is that of an item. -/
theorem Reads.text_unique (reads : item.Reads before text rest)
    (alsoReads : found.Reads before other later) (same : text ++ rest = other ++ later) :
    text = other ∧ rest = later := by
  obtain longest | ⟨c, rfl, nothing⟩ := reads.isLongest_or_stray
  · obtain alsoLongest | ⟨c, rfl, nothing⟩ := alsoReads.isLongest_or_stray
    · exact longest.unique alsoLongest same
    · exact absurd longest (not_isLongest_of_stray nothing same)
  · obtain alsoLongest | ⟨d, rfl, alsoNothing⟩ := alsoReads.isLongest_or_stray
    · exact absurd alsoLongest (not_isLongest_of_stray nothing same.symm)
    · cases same
      exact ⟨rfl, rfl⟩

theorem not_isFaultText_of_hasText {token : Token} (has : token.HasText text) :
    ¬ IsFaultText before rest text := by
  intro isFault
  cases isFault with
  | stray nothing => exact nothing (.inr (.inr ⟨[], has.isTokenText⟩))
  | tooLarge first further opened closed exceeds =>
      obtain ⟨value, -, valued⟩ := has.eq_number first
      rw [valued] at exceeds
      exact absurd value.toNat_lt_size (Nat.not_lt_of_le exceeds)

/-- Items of the same text at the same place are the same. -/
theorem Reads.unique (reads : item.Reads before text rest)
    (alsoReads : found.Reads before text rest) (same : item.span = found.span) : item = found := by
  cases item with
  | token lexeme =>
      cases found with
      | token other =>
          have token : lexeme.token = other.token := reads.1.unique alsoReads.1
          cases lexeme
          cases other
          cases token
          cases same
          rfl
      | fault fault => exact absurd alsoReads.2 (not_isFaultText_of_hasText reads.1)
  | fault fault =>
      cases found with
      | token other => exact absurd reads.2 (not_isFaultText_of_hasText alsoReads.1)
      | fault other =>
          have text : fault.text = other.text := reads.1.trans alsoReads.1.symm
          cases fault
          cases other
          cases text
          cases same
          rfl

end SourceItem

namespace Divides

variable {before source : List Char} {items others : List SourceItem}

/-- A line ends at the first line feed only. -/
theorem line_unique {line rest other later : List Char} (within : '\n' ∉ line)
    (ended : ∀ c ∈ rest.head?, c = '\n') (alsoWithin : '\n' ∉ other)
    (alsoEnded : ∀ c ∈ later.head?, c = '\n') (whole : line ++ rest = other ++ later) :
    line = other ∧ rest = later := by
  have run {line rest : List Char} (within : '\n' ∉ line) (ended : ∀ c ∈ rest.head?, c = '\n') :
      (line ++ rest).takeWhile (· ≠ '\n') = line := by
    refine takeWhile_append_of_head (fun c member => ?_) (fun c first => ?_)
    · simpa using fun same : c = '\n' => within (same ▸ member)
    · simp [ended c first]
  obtain rfl : line = other := by rw [← run within ended, whole, run alsoWithin alsoEnded]
  exact ⟨rfl, List.append_cancel_left whole⟩

/-- A source is divided in one way only. -/
theorem unique (divides : Divides before source items) (other : Divides before source others) :
    items = others := by
  induction divides generalizing others with
  | done =>
      cases other with
      | done => rfl
      | comment cut => cases cut
      | item cut placed reads further =>
          obtain ⟨c, more, rfl, -⟩ := reads.classes
          cases cut
  | @blank before rest c items blank further ih =>
      cases other with
      | blank alsoBlank alsoFurther => exact ih alsoFurther
      | comment cut =>
          cases cut
          exact absurd blank (by decide)
      | item cut placed reads alsoFurther =>
          obtain ⟨d, more, rfl, notBlank, -⟩ := reads.classes
          cases cut
          rw [notBlank] at blank
          cases blank
  | @comment before source line rest items cut within ended further ih =>
      subst cut
      cases other with
      | blank blank alsoFurther => exact absurd blank (by decide)
      | @comment _ _ alsoLine alsoRest _ cut alsoWithin alsoEnded alsoFurther =>
          obtain ⟨rfl, rfl⟩ :=
            line_unique within ended alsoWithin alsoEnded (List.cons.inj cut).2
          exact ih alsoFurther
      | item cut placed reads alsoFurther =>
          obtain ⟨d, more, rfl, -, notComment⟩ := reads.classes
          exact absurd (List.cons.inj cut).1.symm notComment
  | item cut placed reads further ih =>
      obtain ⟨d, more, spelled, notBlank, notComment⟩ := reads.classes
      cases other with
      | done =>
          rw [spelled] at cut
          cases cut
      | blank blank alsoFurther =>
          rw [spelled] at cut
          rw [(List.cons.inj cut).1, notBlank] at blank
          cases blank
      | comment alsoCut =>
          rw [alsoCut, spelled] at cut
          exact absurd (List.cons.inj cut).1.symm notComment
      | item alsoCut alsoPlaced alsoReads alsoFurther =>
          obtain ⟨rfl, rfl⟩ := reads.text_unique alsoReads (cut.symm.trans alsoCut)
          rw [reads.unique alsoReads (placed.trans alsoPlaced.symm), ih alsoFurther]

/-- Each item has a text, and stands behind what was read before. -/
theorem within (divides : Divides before source items) :
    ∀ item ∈ items, byteLength before ≤ item.span.start ∧ item.span.start < item.span.stop := by
  have behind {first text : List Char} {item : SourceItem}
      (there : byteLength (first ++ text) ≤ item.span.start ∧ item.span.start < item.span.stop) :
      byteLength first ≤ item.span.start ∧ item.span.start < item.span.stop := by
    rw [byteLength_append] at there
    exact ⟨Nat.le_of_add_right_le there.1, there.2⟩
  induction divides with
  | done => exact nofun
  | blank blank further ih => exact fun item member => behind (ih item member)
  | comment cut within ended further ih => exact fun item member => behind (ih item member)
  | item cut placed reads further ih =>
      intro other member
      rcases List.mem_cons.mp member with rfl | later
      · obtain ⟨c, more, rfl, -⟩ := reads.classes
        rw [placed, byteLength_append, byteLength_cons]
        exact ⟨Nat.le_refl _, Nat.lt_add_of_pos_right (Nat.add_pos_left c.utf8Size_pos _)⟩
      · exact behind (ih other later)

theorem increasing (divides : Divides before source items) :
    items.Pairwise fun first second => first.span.stop ≤ second.span.start := by
  induction divides with
  | done => exact .nil
  | blank blank further ih => exact ih
  | comment cut within ended further ih => exact ih
  | item cut placed reads further ih =>
      refine .cons (fun later member => ?_) ih
      rw [placed]
      exact (further.within later member).1

/-- An item has the text that its span cuts out. -/
theorem cuts (divides : Divides before source items) :
    ∀ item ∈ items, ∃ first text last, item.span.Cuts (before ++ source) first text last ∧
      item.Reads first text last := by
  induction divides with
  | done => exact nofun
  | blank blank further ih => simpa using ih
  | comment cut within ended further ih =>
      subst cut
      simpa using ih
  | @item before source text rest item items cut placed reads further ih =>
      subst cut
      intro other member
      rcases List.mem_cons.mp member with rfl | later
      · exact ⟨before, text, rest, ⟨rfl, by rw [placed], by rw [placed]⟩, reads⟩
      · simpa using ih other later

end Divides

/--
The tokens and faults of a source divide it: their spans are not empty, and stand one behind the
other on boundaries of characters, with nothing between them but blanks and comments.  The text of
each token is the longest that a token can have there, and that of each fault a character with which
nothing can start, or a whole run of digits whose value is too large.  No other tokens and faults
divide the source.
-/
theorem source_divided (source : List Char) :
    ∃ items : List SourceItem,
      items.filterMap SourceItem.lexeme? = lexemes source ∧
      items.filterMap SourceItem.fault? = lexicalFaults source ∧
      Divides [] source items ∧ (∀ others, Divides [] source others → others = items) ∧
      (∀ item ∈ items, item.span.start < item.span.stop ∧
        ∃ first text last, item.span.Cuts source first text last ∧ item.Reads first text last) ∧
      items.Pairwise fun first second => first.span.stop ≤ second.span.start := by
  obtain ⟨items, divides, tokens, faults⟩ := exists_divides [] source nofun
  exact ⟨items, tokens, faults, divides, fun others other => other.unique divides,
    fun item member => ⟨(divides.within item member).2, divides.cuts item member⟩,
    divides.increasing⟩

end FlowDiagram

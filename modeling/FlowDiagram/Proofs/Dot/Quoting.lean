import FlowDiagram.Proofs.Dot.Lines

/-!
# Quoted texts

A quoted text is a string of the DOT language: it closes at its last character and nowhere earlier,
whatever stands behind it, and its escapes stand for the text.  So different texts are quoted
differently, and around a label all is read as it is around any other label.
-/

namespace FlowDiagram.Dot

open Text

/-! ## Where a string closes -/

/--
Whether the next character of a string is protected, by the characters before it, latest first: a
backslash protects the character behind it, unless it is protected itself.
-/
def protects : List Char → Bool
  | [] => false
  | c :: before => c == '\\' && !protects before

/-- A text that starts with a string: the first quote in it that nothing protects closes it. -/
structure StartsWithString (text inside rest : List Char) : Prop where
  spelled : text = '"' :: (inside ++ '"' :: rest)
  closes : protects inside.reverse = false
  staysOpen : ∀ before behind, inside = before ++ '"' :: behind → protects before.reverse

section Unique

variable {text inside rest otherInside otherRest : List Char}

/-- A string does not go on behind the quote that closes another one at the same place. -/
theorem StartsWithString.eq_of_longer (string : StartsWithString text inside rest)
    (other : StartsWithString text otherInside otherRest) {more : List Char}
    (longer : otherInside = inside ++ more) (ends : '"' :: rest = more ++ '"' :: otherRest) :
    otherInside = inside ∧ otherRest = rest := by
  cases more with
  | nil => exact ⟨by simpa using longer, (List.cons.inj ends).2.symm⟩
  | cons quote behind =>
      obtain ⟨rfl, -⟩ := List.cons.inj ends
      have protected_ := other.staysOpen inside behind longer
      rw [string.closes] at protected_
      contradiction

/-- A text starts with one string at most. -/
theorem StartsWithString.unique (string : StartsWithString text inside rest)
    (other : StartsWithString text otherInside otherRest) :
    otherInside = inside ∧ otherRest = rest := by
  have same : inside ++ '"' :: rest = otherInside ++ '"' :: otherRest :=
    (List.cons.inj (string.spelled.symm.trans other.spelled)).2
  rcases List.append_eq_append_iff.mp same with ⟨more, longer, ends⟩ | ⟨more, longer, ends⟩
  · exact string.eq_of_longer other longer ends
  · obtain ⟨insideEq, restEq⟩ := other.eq_of_longer string longer ends
    exact ⟨insideEq.symm, restEq.symm⟩

end Unique

/-- Characters that leave the next one unprotected make no difference to what stands behind. -/
theorem protects_append {before : List Char} (plain : protects before = false)
    (behind : List Char) : protects (behind ++ before) = protects behind := by
  induction behind with
  | nil => exact plain
  | cons c rest ih => rw [List.cons_append, protects, protects, ih]

/-- Quoting keeps escapes whole: it leaves no backslash that protects what is quoted next. -/
theorem protects_quotedChar (c : Char) : protects (quotedChar c).reverse = false := by
  unfold quotedChar
  split_ifs with quote backslash feed
  · rfl
  · rfl
  · rfl
  · simp [protects, backslash]

theorem protects_quotedChars (text : List Char) :
    protects (text.flatMap quotedChar).reverse = false := by
  induction text with
  | nil => rfl
  | cons c rest ih =>
      rw [List.flatMap_cons, List.reverse_append, protects_append (protects_quotedChar c), ih]

/-- A quote is only written behind a backslash. -/
theorem protects_of_quotedChar {c : Char} {before behind : List Char}
    (spelled : quotedChar c = before ++ '"' :: behind) : protects before.reverse := by
  have member : '"' ∈ quotedChar c := by simp [spelled]
  have quote : c = '"' := by
    unfold quotedChar at member
    split_ifs at member with quote backslash feed
    · exact quote
    · simp at member
    · simp at member
    · exact (List.mem_singleton.mp member).symm
  subst quote
  rcases before with - | ⟨first, before⟩
  · simp [quotedChar] at spelled
  · obtain ⟨rfl, later⟩ := List.cons.inj spelled
    rcases before with - | ⟨second, before⟩
    · rfl
    · simp at later

theorem protects_of_quotedChars {text before behind : List Char}
    (spelled : text.flatMap quotedChar = before ++ '"' :: behind) : protects before.reverse := by
  induction text generalizing before with
  | nil => simp at spelled
  | cons c rest ih =>
      rw [List.flatMap_cons] at spelled
      rcases List.append_eq_append_iff.mp spelled with ⟨more, longer, later⟩ | ⟨more, here, ends⟩
      · rw [longer, List.reverse_append, protects_append (protects_quotedChar c)]
        exact ih later
      · cases more with
        | nil =>
            have protected_ : protects [].reverse := ih ends.symm
            contradiction
        | cons quote others =>
            obtain ⟨rfl, -⟩ := List.cons.inj ends
            exact protects_of_quotedChar here

/-- A quoted text closes where its own last quote stands. -/
theorem startsWithString_quoted (text : String) (behind : List Char) :
    StartsWithString ((quoted text).toList ++ behind) (text.toList.flatMap quotedChar) behind where
  spelled := by simp [quoted, quotedChars]
  closes := protects_quotedChars text.toList
  staysOpen := fun _ _ spelled => protects_of_quotedChars spelled

/-! ## What a string stands for -/

/-- What stands between quotes, with its escapes for quotes, backslashes and line feeds decoded. -/
def decoded? : List Char → Option (List Char)
  | [] => some []
  | '\\' :: '"' :: rest => (decoded? rest).map ('"' :: ·)
  | '\\' :: '\\' :: rest => (decoded? rest).map ('\\' :: ·)
  | '\\' :: 'n' :: rest => (decoded? rest).map ('\n' :: ·)
  | '\\' :: _ => none
  | c :: rest => (decoded? rest).map (c :: ·)

theorem decoded?_quotedChar (c : Char) (rest : List Char) :
    decoded? (quotedChar c ++ rest) = (decoded? rest).map (c :: ·) := by
  unfold quotedChar
  split_ifs with quote backslash feed
  · rw [quote]
    rfl
  · rw [backslash]
    rfl
  · rw [feed]
    rfl
  · simp [decoded?, backslash]

theorem decoded?_quotedChars (text : List Char) :
    decoded? (text.flatMap quotedChar) = some text := by
  induction text with
  | nil => rfl
  | cons c rest ih => rw [List.flatMap_cons, decoded?_quotedChar, ih, Option.map_some]

/-- Different texts are quoted differently. -/
theorem quoted_injective : Function.Injective quoted := by
  intro first second same
  have string := startsWithString_quoted first []
  rw [same] at string
  obtain ⟨inside, -⟩ := (startsWithString_quoted second []).unique string
  have decoded := decoded?_quotedChars first.toList
  rw [inside, decoded?_quotedChars] at decoded
  exact String.toList_inj.mp (Option.some.inj decoded).symm

/-! ## Labels in their place -/

/-- A list of labels in brackets is read as these attributes, each with its own text. -/
theorem attributes?_labels {entries : List (String × String)} (some_ : entries ≠ [])
    (named : ∀ entry ∈ entries, isName entry.1.toList ∧ isKeyword entry.1 = false) :
    ∃ lexemes, scan ("[" ++ commaList (entries.map attributeText) ++ "]").toList = some lexemes ∧
      (attributes? lexemes).map (List.map fun entry => (entry.1, labelText entry.2)) =
        some (entries.map fun entry => (entry.1, some entry.2)) := by
  have opening : Cut "[" [.openBracket] := fun _ => rfl
  have closing : Cut "]" [.closeBracket] := fun _ => rfl
  have cut := (opening.append (cut_attributes fun entry member => (named entry member).1)).append
    closing
  have listed := attributeList?_labels some_ fun entry member => (named entry member).2
  refine ⟨_, Scans.scan_eq cut, ?_⟩
  rw [List.append_assoc, List.singleton_append, attributes?, listed]
  simp [Function.comp_def]

/--
A quoted text is a string that closes at its last character and nowhere earlier, and that stands for
the text; different texts are quoted differently; and wherever a label stands, what is read before
and behind it does not depend on the label, which is read as one string and shows its text.
-/
theorem quoting_exact :
    (∀ text, ∃ inside, decoded? inside = some text.toList ∧
      ∀ behind before rest, StartsWithString ((quoted text).toList ++ behind) before rest ↔
        before = inside ∧ rest = behind) ∧
    Function.Injective quoted ∧
    (∀ text, ∃ label, labelText label = some text ∧ ∀ front lexemes, Scans front lexemes →
      ∀ back, scan (front ++ (quoted text).toList ++ back) =
        (scan back).map fun others => lexemes ++ .quoted label :: others) ∧
    ∀ entries : List (String × String), entries ≠ [] →
      (∀ entry ∈ entries, isName entry.1.toList ∧ isKeyword entry.1 = false) →
      ∃ lexemes, scan ("[" ++ commaList (entries.map attributeText) ++ "]").toList =
          some lexemes ∧
        (attributes? lexemes).map (List.map fun entry => (entry.1, labelText entry.2)) =
          some (entries.map fun entry => (entry.1, some entry.2)) := by
  refine ⟨fun text => ?closing, quoted_injective, fun text => ?standing,
    fun entries some_ named => attributes?_labels some_ named⟩
  case closing =>
    refine ⟨_, decoded?_quotedChars text.toList, fun behind before rest => ⟨fun other => ?_, ?_⟩⟩
    · exact (startsWithString_quoted text behind).unique other
    · rintro ⟨rfl, rfl⟩
      exact startsWithString_quoted text _
  case standing =>
    refine ⟨labelled text, labelText_labelled text, fun front lexemes scans back => ?_⟩
    rw [(scans.append (scans_quoted text)).scan_append back]
    simp

/-- A text that would end an attribute and open another statement, with a backslash at its end. -/
def breaking : String := "\\\"];\nn1 [x=\\"

/-- Two labels that would break out of their attributes stay in them. -/
theorem quoting_exact_breaking :
    Scans "label=".toList [.word "label", .equals] ∧
      (∃ label, labelText label = some breaking ∧
        scan ("label=" ++ quoted breaking ++ ";").toList =
          some [.word "label", .equals, .quoted label, .semicolon]) ∧
      ∃ lexemes, scan ("[" ++ commaList ([("label", breaking), ("tooltip", breaking)].map
          attributeText) ++ "]").toList = some lexemes ∧
        (attributes? lexemes).map (List.map fun entry => (entry.1, labelText entry.2)) =
          some [("label", some breaking), ("tooltip", some breaking)] := by
  have front : Scans "label=".toList [.word "label", .equals] := fun _ => rfl
  obtain ⟨label, shown, standing⟩ := quoting_exact.2.2.1 breaking
  have stands := standing _ _ front [';']
  have last : scan [';'] = some [.semicolon] := rfl
  refine ⟨front, ⟨label, shown, ?_⟩, ?_⟩
  · simpa [last] using stands
  · exact quoting_exact.2.2.2 [("label", breaking), ("tooltip", breaking)] (by simp) (by decide)

end FlowDiagram.Dot

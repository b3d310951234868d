import FlowDiagram.Proofs.Token.Division

/-!
# Parts of a source read alone

A part of a source that reaches from the first byte of one of its tokens up to the last byte of
another is divided as it is within the source: what stands around it decides nothing.  Read alone,
it has the same tokens, with spans that are counted from its own first byte.
-/

namespace FlowDiagram

/-! ## Spans counted from elsewhere -/

/-- The span with both its ends sent elsewhere. -/
def Span.shifted (shift : Nat → Nat) (span : Span) : Span := ⟨shift span.start, shift span.stop⟩

def Lexeme.shifted (shift : Nat → Nat) (lexeme : Lexeme) : Lexeme :=
  ⟨lexeme.token, lexeme.span.shifted shift⟩

def SourceItem.shifted (shift : Nat → Nat) : SourceItem → SourceItem
  | token lexeme => token (lexeme.shifted shift)
  | fault found => fault ⟨found.text, found.span.shifted shift⟩

@[simp]
theorem SourceItem.span_shifted (shift : Nat → Nat) (item : SourceItem) :
    (item.shifted shift).span = item.span.shifted shift := by
  cases item <;> rfl

@[simp]
theorem SourceItem.lexeme?_shifted (shift : Nat → Nat) (item : SourceItem) :
    (item.shifted shift).lexeme? = item.lexeme?.map (Lexeme.shifted shift) := by
  cases item <;> rfl

/-! ## What stands around an item -/

section Around

variable {outer before text rest after : List Char} {item : SourceItem} {shift : Nat → Nat}

theorem IsLongest.truncated (longest : IsLongest text (rest ++ after)) : IsLongest text rest where
  isTokenText := longest.isTokenText
  longest longer begins := by
    refine longest.longest longer (begins.trans ?_)
    rw [← List.append_assoc]
    exact List.prefix_append _ _

/-- An item is still read where the end of the source is cut off behind it. -/
theorem SourceItem.Reads.truncated (reads : item.Reads before text (rest ++ after)) :
    item.Reads before text rest := by
  cases item with
  | token lexeme => exact ⟨reads.1, reads.2.truncated⟩
  | fault found =>
      refine ⟨reads.1, ?_⟩
      cases reads.2 with
      | stray nothing => exact .stray nothing
      | tooLarge first further opened closed exceeds =>
          refine .tooLarge first further opened (fun d next => closed d ?_) exceeds
          rw [List.head?_append, next]
          rfl

/-- An item is still read where the beginning of the source is cut off before it. -/
theorem SourceItem.Reads.detached (reads : item.Reads (outer ++ before) text rest) :
    (item.shifted shift).Reads before text rest := by
  cases item with
  | token lexeme => exact reads
  | fault found =>
      refine ⟨reads.1, ?_⟩
      cases reads.2 with
      | stray nothing => exact .stray nothing
      | tooLarge first further opened closed exceeds =>
          refine .tooLarge first further (fun d last => opened d ?_) closed exceeds
          rw [List.getLast?_append, last]
          rfl

end Around

/-! ## Parts of a division -/

namespace Divides

variable {outer before source : List Char} {item : SourceItem}
  {items earlier later : List SourceItem}

/-- Up to the end of an item, a source is divided as if it ended there. -/
theorem upTo (divides : Divides before source (earlier ++ item :: later)) :
    ∃ text after, source = text ++ after ∧ item.span.stop = byteLength (before ++ text) ∧
      Divides before text (earlier ++ [item]) := by
  generalize whole : earlier ++ item :: later = items at divides
  induction divides generalizing earlier with
  | done => simp at whole
  | @blank before rest c items blank further ih =>
      obtain ⟨text, after, rfl, stop, divides⟩ := ih whole
      exact ⟨c :: text, after, rfl, by simpa using stop, .blank blank divides⟩
  | @comment before source line rest items cut within ended further ih =>
      obtain ⟨text, after, rfl, stop, divides⟩ := ih whole
      refine ⟨'#' :: line ++ text, after, by simp [cut], by simpa using stop,
        .comment rfl within (fun d first => ended d ?_) divides⟩
      rw [List.head?_append, first]
      rfl
  | @item before source own rest found items cut placed reads further ih =>
      cases earlier with
      | nil =>
          cases whole
          exact ⟨own, rest, cut, by rw [placed],
            .item (List.append_nil own).symm placed (SourceItem.Reads.truncated reads) .done⟩
      | cons head more =>
          cases whole
          obtain ⟨text, after, rfl, stop, divides⟩ := ih rfl
          exact ⟨own ++ text, after, by rw [cut, List.append_assoc], by simpa using stop,
            .item rfl placed reads.truncated divides⟩

/-- From the beginning of an item on, a source is divided on its own. -/
theorem startingAt (divides : Divides before source (earlier ++ item :: later)) :
    ∃ skipped text, source = skipped ++ text ∧ item.span.start = byteLength (before ++ skipped) ∧
      Divides (before ++ skipped) text (item :: later) := by
  generalize whole : earlier ++ item :: later = items at divides
  induction divides generalizing earlier with
  | done => simp at whole
  | @blank before rest c items blank further ih =>
      obtain ⟨skipped, text, rfl, start, divides⟩ := ih whole
      exact ⟨c :: skipped, text, rfl, by simpa using start, by simpa using divides⟩
  | @comment before source line rest items cut within ended further ih =>
      obtain ⟨skipped, text, rfl, start, divides⟩ := ih whole
      exact ⟨'#' :: line ++ skipped, text, by simp [cut], by simpa using start,
        by simpa using divides⟩
  | @item before source own rest found items cut placed reads further ih =>
      cases earlier with
      | nil =>
          cases whole
          refine ⟨[], source, rfl, by rw [placed, List.append_nil], ?_⟩
          rw [List.append_nil]
          exact .item cut placed reads further
      | cons head more =>
          cases whole
          obtain ⟨skipped, text, rfl, start, divides⟩ := ih rfl
          exact ⟨own ++ skipped, text, by rw [cut, List.append_assoc], by simpa using start,
            by simpa using divides⟩

/-- Without what stands before it, a source is divided as before, but counted from elsewhere. -/
theorem detached (divides : Divides (outer ++ before) source items) :
    Divides before source (items.map (SourceItem.shifted (· - byteLength outer))) := by
  generalize whole : outer ++ before = behind at divides
  induction divides generalizing before with
  | done => exact .done
  | blank blank further ih =>
      subst whole
      exact .blank blank (ih (List.append_assoc ..).symm)
  | comment cut within ended further ih =>
      subst whole
      exact .comment cut within ended (ih (List.append_assoc ..).symm)
  | @item behind source own rest found items cut placed reads further ih =>
      subst whole
      refine .item cut ?_ reads.detached (ih (List.append_assoc ..).symm)
      simp [placed, Span.shifted, byteLength_append]

/-- The tokens of a source are those of its division. -/
theorem lexemes_eq (divides : Divides [] source items) :
    items.filterMap SourceItem.lexeme? = lexemes source := by
  obtain ⟨others, other, tokens, -⟩ := exists_divides [] source nofun
  rw [divides.unique other]
  exact tokens

end Divides

theorem SourceItem.eq_of_lexeme? {item : SourceItem} {lexeme : Lexeme}
    (isToken : item.lexeme? = some lexeme) : item = .token lexeme := by
  cases item with
  | token own => rw [Option.some.inj isToken]
  | fault found => cases isToken

/-! ## Places in a source -/

section Places

variable {source first text last : List Char} {span : Span} {lexeme : Lexeme}

theorem exists_divides_lexemes (source : List Char) :
    ∃ items, Divides [] source items ∧ items.filterMap SourceItem.lexeme? = lexemes source := by
  obtain ⟨items, divides, tokens, -⟩ := exists_divides [] source nofun
  exact ⟨items, divides, tokens⟩

/-- The span of a token cuts its text out of the source. -/
theorem exists_cuts_token (member : lexeme ∈ lexemes source) :
    ∃ first text last, lexeme.span.Cuts source first text last ∧ lexeme.token.HasText text := by
  obtain ⟨items, divides, tokens⟩ := exists_divides_lexemes source
  rw [← tokens] at member
  obtain ⟨item, among, isToken⟩ := List.mem_filterMap.mp member
  obtain rfl := SourceItem.eq_of_lexeme? isToken
  obtain ⟨first, text, last, cuts, reads⟩ := divides.cuts _ among
  exact ⟨first, text, last, cuts, reads.1⟩

theorem lexemes_within : ∀ lexeme ∈ lexemes source, lexeme.span.start < lexeme.span.stop := by
  intro lexeme member
  obtain ⟨items, divides, tokens⟩ := exists_divides_lexemes source
  rw [← tokens] at member
  obtain ⟨item, among, isToken⟩ := List.mem_filterMap.mp member
  obtain rfl := SourceItem.eq_of_lexeme? isToken
  exact (divides.within _ among).2

theorem lexemes_increasing (source : List Char) :
    (lexemes source).Pairwise fun first second => first.span.stop ≤ second.span.start := by
  obtain ⟨items, divides, tokens⟩ := exists_divides_lexemes source
  rw [← tokens, List.pairwise_filterMap]
  refine divides.increasing.imp fun apart lexeme isToken other alsoToken => ?_
  rw [SourceItem.eq_of_lexeme? isToken, SourceItem.eq_of_lexeme? alsoToken] at apart
  exact apart

end Places

/-! ## Parts of a source -/

section Parts

variable {source : List Char} {first last : Lexeme} {earlier later more others : List Lexeme}

/-- A token in a source is an item of its division, with the other tokens before and after it. -/
theorem exists_divides_token (there : lexemes source = earlier ++ first :: later) :
    ∃ before after, Divides [] source (before ++ .token first :: after) ∧
      before.filterMap SourceItem.lexeme? = earlier ∧
      after.filterMap SourceItem.lexeme? = later := by
  obtain ⟨items, divides, tokens⟩ := exists_divides_lexemes source
  rw [there] at tokens
  obtain ⟨before, others, rfl, beforeTokens, otherTokens⟩ := List.filterMap_eq_append_iff.mp tokens
  obtain ⟨faults, item, after, rfl, none, isToken, afterTokens⟩ :=
    List.filterMap_eq_cons_iff.mp otherTokens
  obtain rfl := SourceItem.eq_of_lexeme? isToken
  refine ⟨before ++ faults, after, by simpa using divides, ?_, afterTokens⟩
  rw [List.filterMap_append, beforeTokens, List.filterMap_eq_nil_iff.mpr none, List.append_nil]

theorem lexemes_upTo (there : lexemes source = earlier ++ last :: later) :
    ∃ text after, source = text ++ after ∧ last.span.stop = byteLength text ∧
      lexemes text = earlier ++ [last] := by
  obtain ⟨before, others, divides, tokens, -⟩ := exists_divides_token there
  obtain ⟨text, after, whole, stop, divides⟩ := divides.upTo
  refine ⟨text, after, whole, stop, ?_⟩
  rw [← divides.lexemes_eq, List.filterMap_append, tokens]
  rfl

theorem lexemes_startingAt (there : lexemes source = earlier ++ first :: later) :
    ∃ skipped text, source = skipped ++ text ∧ first.span.start = byteLength skipped ∧
      lexemes text = (first :: later).map (Lexeme.shifted (· - first.span.start)) := by
  obtain ⟨before, others, divides, -, tokens⟩ := exists_divides_token there
  obtain ⟨skipped, text, whole, start, divides⟩ := divides.startingAt
  rw [List.nil_append] at start divides
  change first.span.start = byteLength skipped at start
  have tokens : (SourceItem.token first :: others).filterMap SourceItem.lexeme? = first :: later :=
    congrArg _ tokens
  rw [← List.append_nil skipped] at divides
  refine ⟨skipped, text, whole, start, ?_⟩
  rw [← divides.detached.lexemes_eq, ← tokens, start, List.filterMap_map, List.map_filterMap]
  simp only [Function.comp_def, SourceItem.lexeme?_shifted]

/--
The part of a source from the first to the last of some tokens has these tokens, and no others.
-/
theorem exists_cuts {window : List Lexeme} (there : lexemes source = earlier ++ (window ++ later))
    (opens : window = first :: more) (ends : window = others ++ [last]) :
    ∃ before text after,
      (⟨first.span.start, last.span.stop⟩ : Span).Cuts source before text after ∧
      lexemes text = window.map (Lexeme.shifted (· - first.span.start)) := by
  have upToLast : lexemes source = (earlier ++ others) ++ last :: later := by
    rw [there, ends]
    simp
  obtain ⟨upTo, after, rfl, stop, tokens⟩ := lexemes_upTo upToLast
  have fromFirst : lexemes upTo = earlier ++ first :: more := by
    rw [tokens, ← opens, ends, List.append_assoc]
  obtain ⟨before, text, rfl, start, tokens⟩ := lexemes_startingAt fromFirst
  rw [← opens] at tokens
  exact ⟨before, text, after, ⟨List.append_assoc .., start, stop⟩, tokens⟩

end Parts

end FlowDiagram

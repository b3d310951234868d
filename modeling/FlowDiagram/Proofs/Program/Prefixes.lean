import FlowDiagram.Proofs.Program.Expecting
import FlowDiagram.Proofs.Program.Layout
import FlowDiagram.Proofs.Text.Order
import Mathlib.Data.Set.List

/-!
# The first impossible token

A sentence is what a tree of the grammar spells, token by token, and its beginnings are the token
lists that can still become a program.  Reading stops at the first token that leaves these, or at
the end of a source that is only a beginning, and the message lists all that could have come there
and nothing else.
-/

namespace FlowDiagram

/-! ## Sentences and their beginnings -/

/-- The tokens of a source; lexical faults are passed over. -/
def sourceTokens (source : List Char) : List Token :=
  (lexemes source).map (·.token)

/-- The tokens of a tree. -/
def IsSentence (tokens : List Token) : Prop :=
  ∃ tree : ProgramTree, tree.lexemes.map (·.token) = tokens

/-- Tokens that some sentence begins with. -/
def IsBeginning (tokens : List Token) : Prop :=
  ∃ rest, IsSentence (tokens ++ rest)

/-- Some sentence goes on after the tokens with one of this kind, or is over there. -/
def CanFollow (tokens : List Token) (kind : Expectation) : Prop :=
  (kind = .endOfInput ∧ IsSentence tokens) ∨
    ∃ token, token.kind = kind ∧ IsBeginning (tokens ++ [token])

/-- As many tokens as `count` are the beginning of a sentence, and no more are. -/
structure FirstImpossible (tokens : List Token) (count : Nat) : Prop where
  within : count ≤ tokens.length
  possible : ∀ shorter ≤ count, IsBeginning (tokens.take shorter)
  impossible : ∀ longer, count < longer → longer ≤ tokens.length →
    ¬ IsBeginning (tokens.take longer)

theorem IsBeginning.of_append {first second : List Token} (begins : IsBeginning (first ++ second)) :
    IsBeginning first := by
  obtain ⟨rest, sentence⟩ := begins
  exact ⟨second ++ rest, by rwa [← List.append_assoc]⟩

theorem IsBeginning.take {tokens : List Token} (begins : IsBeginning tokens) (count : Nat) :
    IsBeginning (tokens.take count) :=
  .of_append ((List.take_append_drop count tokens).symm ▸ begins)

theorem FirstImpossible.of_append {first rest : List Token} {token : Token}
    (begins : IsBeginning first) (stops : ¬ IsBeginning (first ++ [token])) :
    FirstImpossible (first ++ token :: rest) first.length where
  within := by simp
  possible shorter fits := by
    rw [List.take_append_of_le_length fits]
    exact begins.take shorter
  impossible longer exceeds _ begun := by
    have cut := begun.take (first.length + 1)
    rw [List.take_take, Nat.min_eq_left exceeds] at cut
    exact stops (by simpa [List.take_append, List.take_of_length_le] using cut)

theorem FirstImpossible.of_isBeginning {tokens : List Token} (begins : IsBeginning tokens) :
    FirstImpossible tokens tokens.length where
  within := le_rfl
  possible shorter _ := begins.take shorter
  impossible _ exceeds fits := absurd fits (Nat.not_le_of_lt exceeds)

/-! ## Readers at a beginning -/

theorem Reader.run_append (reader : Reader) (first second : List Lexeme) :
    reader.run (first ++ second) = (reader.run first).bind (·.run second) := by
  induction first generalizing reader with
  | nil => rfl
  | cons lexeme rest ih =>
      rw [List.cons_append, Reader.run, Reader.run]
      cases reader.step lexeme with
      | none => rfl
      | some next => exact ih next

theorem isSentence_iff {lexemes : List Lexeme} :
    IsSentence (lexemes.map (·.token)) ↔
      ∃ definitions, Reader.outset.Reads lexemes definitions := by
  constructor
  · rintro ⟨tree, same⟩
    obtain ⟨moved, spelled, -⟩ := relocates_program 0 tree lexemes same.symm
    exact ⟨_, reads_outset.mpr ⟨moved, spelled.symm, rfl⟩⟩
  · rintro ⟨definitions, reads⟩
    obtain ⟨tree, rfl, -⟩ := reads_outset.mp reads
    exact ⟨tree, rfl⟩

theorem isSentence_sourceTokens {source : List Char} :
    IsSentence (sourceTokens source) ↔ (readSource source).program.isSome := by
  simp [sourceTokens, isSentence_iff, Option.isSome_iff_exists, readSource_program_eq_some,
    Program.read, Program.ofLexemes_eq_ok_iff]

/-- A reader gets through a beginning of a sentence, and through nothing else. -/
theorem isBeginning_iff {lexemes : List Lexeme} :
    IsBeginning (lexemes.map (·.token)) ↔
      ∃ reader, Reader.outset.run lexemes = .ok reader := by
  constructor
  · rintro ⟨rest, sentence⟩
    obtain ⟨placed, rfl⟩ : ∃ placed : List Lexeme, placed.map (·.token) = rest :=
      ⟨rest.map (⟨·, .nowhere⟩), by simp [Function.comp_def]⟩
    rw [← List.map_append, isSentence_iff] at sentence
    obtain ⟨definitions, last, runs, -⟩ := sentence
    rw [Reader.run_append] at runs
    cases first : Reader.outset.run lexemes with
    | error error => simp [first, Except.bind] at runs
    | ok reader => exact ⟨reader, rfl⟩
  · rintro ⟨reader, runs⟩
    obtain ⟨more, definitions, last, runsMore, finishes⟩ := reader.exists_reads
    have runsAll : Reader.outset.run (lexemes ++ more) = .ok last := by
      rw [Reader.run_append, runs]
      exact runsMore
    refine ⟨more.map (·.token), ?_⟩
    rw [← List.map_append]
    exact isSentence_iff.mpr ⟨definitions, last, runsAll, finishes⟩

section Behind

variable {lexemes : List Lexeme} {reader : Reader}
  (runs : Reader.outset.run lexemes = .ok reader)

include runs

theorem isSentence_iff_mem_expected :
    IsSentence (lexemes.map (·.token)) ↔ .endOfInput ∈ reader.stage.expected := by
  rw [isSentence_iff]
  simp only [Reader.Reads, runs, Except.ok.injEq, exists_eq_left']
  constructor
  · rintro ⟨definitions, finishes⟩
    by_contra goesOn
    rw [Reader.finish_of_not_mem goesOn] at finishes
    cases finishes
  · exact Reader.finish_of_mem

theorem isBeginning_concat_iff {token : Token} :
    IsBeginning (lexemes.map (·.token) ++ [token]) ↔ token.kind ∈ reader.stage.expected := by
  obtain ⟨lexeme, rfl⟩ : ∃ lexeme : Lexeme, lexeme.token = token := ⟨⟨token, .nowhere⟩, rfl⟩
  have placed : lexemes.map (·.token) ++ [lexeme.token] = (lexemes ++ [lexeme]).map (·.token) := by
    simp
  rw [placed, isBeginning_iff, ← Reader.step_isSome_iff]
  simp only [Reader.run_append, runs, Except.bind, Reader.run]
  cases reader.step lexeme <;> simp

/-- The stage of a reader lists all that can follow what it has taken, and nothing else. -/
theorem canFollow_iff {kind : Expectation} :
    CanFollow (lexemes.map (·.token)) kind ↔ kind ∈ reader.stage.expected := by
  unfold CanFollow
  simp only [isSentence_iff_mem_expected runs, isBeginning_concat_iff runs]
  constructor
  · rintro (⟨rfl, member⟩ | ⟨token, rfl, member⟩)
    · exact member
    · exact member
  · intro member
    by_cases isEnd : kind = .endOfInput
    · exact .inl ⟨isEnd, isEnd ▸ member⟩
    · obtain ⟨token, rfl⟩ := Expectation.exists_token isEnd
      exact .inr ⟨token, rfl, member⟩

end Behind

/-! ## Where reading stops -/

/-- What is not taken as a whole is taken up to some lexeme, and that one is refused. -/
theorem Reader.run_eq_error {reader : Reader} {lexemes : List Lexeme} {error : ReadError}
    (stuck : reader.run lexemes = .error error) :
    ∃ (first rest : List Lexeme) (lexeme : Lexeme) (last : Reader),
      lexemes = first ++ lexeme :: rest ∧ reader.run first = .ok last ∧
      last.step lexeme = none ∧ error = ⟨some lexeme, last.stage.expected⟩ := by
  induction lexemes generalizing reader with
  | nil => cases stuck
  | cons lexeme rest ih =>
      rw [Reader.run] at stuck
      cases moves : reader.step lexeme with
      | none =>
          rw [moves] at stuck
          cases stuck
          exact ⟨[], rest, lexeme, reader, rfl, rfl, moves, rfl⟩
      | some next =>
          rw [moves] at stuck
          obtain ⟨first, others, refused, last, rfl, runs, stops, rfl⟩ := ih stuck
          refine ⟨lexeme :: first, others, refused, last, rfl, ?_, stops, rfl⟩
          rw [Reader.run, moves]
          exact runs

/-- Where reading stops, the lexemes taken are the longest beginning. -/
theorem Program.ofLexemes_eq_error {length : Nat} {lexemes : List Lexeme} {error : ReadError}
    (stuck : Program.ofLexemes length lexemes = .error error) :
    ∃ count last, FirstImpossible (lexemes.map (·.token)) count ∧
      Reader.outset.run (lexemes.take count) = .ok last ∧
      error = ⟨lexemes[count]?, last.stage.expected⟩ := by
  cases runs : Reader.outset.run lexemes with
  | error found =>
      obtain rfl : found = error := by
        simpa [Program.ofLexemes, runs, bind, Except.bind] using stuck
      obtain ⟨first, rest, lexeme, last, rfl, runsFirst, refuses, rfl⟩ := Reader.run_eq_error runs
      have begins := isBeginning_iff.mpr ⟨last, runsFirst⟩
      have stops : ¬ IsBeginning (first.map (·.token) ++ [lexeme.token]) := by
        rw [isBeginning_concat_iff runsFirst, ← Reader.step_isSome_iff, refuses]
        exact Bool.noConfusion
      refine ⟨first.length, last, ?_, by simpa using runsFirst, by simp⟩
      rw [List.map_append, List.map_cons, ← List.length_map (·.token)]
      exact .of_append begins stops
  | ok last =>
      have same : last.finish = .error error := by
        cases finishes : last.finish with
        | ok definitions =>
            simp [Program.ofLexemes, runs, finishes, bind, Except.bind, pure, Except.pure] at stuck
        | error found => simpa [Program.ofLexemes, runs, finishes, bind, Except.bind] using stuck
      have goesOn : .endOfInput ∉ last.stage.expected := by
        intro mayStop
        obtain ⟨definitions, finishes⟩ := Reader.finish_of_mem mayStop
        cases finishes.symm.trans same
      refine ⟨lexemes.length, last, ?_, by simpa using runs, ?_⟩
      · rw [← List.length_map (·.token)]
        exact .of_isBeginning (isBeginning_iff.mpr ⟨last, runs⟩)
      · rw [Reader.finish_of_not_mem goesOn] at same
        rw [← Except.error.inj same, List.getElem?_length]

/-! ## Names of kinds -/

/-- All words and signs with a fixed text. -/
def Reserved.all : List Reserved :=
  [.define, .use, .as, .link, .arrow, .join, .split, .plus, .minus, .star, .equals, .bar,
    .openAngle, .closeAngle, .openBracket, .closeBracket, .openBrace, .closeBrace, .comma, .dot]

/-- All that may come next anywhere. -/
def Expectation.all : List Expectation :=
  [.number, .ident, .endOfInput] ++ Reserved.all.map .reserved

theorem Expectation.mem_all (kind : Expectation) : kind ∈ Expectation.all := by
  cases kind with
  | reserved word =>
      have listed : word ∈ Reserved.all := by cases word <;> decide
      exact List.mem_append_right _ (List.mem_map_of_mem listed)
  | _ => decide

/-- A message tells any two kinds apart. -/
theorem Expectation.describe_injective : Function.Injective Expectation.describe := by
  have apart : (Expectation.all.map Expectation.describe).Nodup := by decide +kernel
  exact fun first second => List.inj_on_of_nodup_map apart first.mem_all second.mem_all

/-- The names in a message are those of the kinds expected, each once and in order. -/
theorem exists_expectedNames (expected : List Expectation) :
    ∃ kinds : List Expectation, kinds.map Expectation.describe = expectedNames expected ∧
      (∀ kind, kind ∈ kinds ↔ kind ∈ expected) ∧
      (kinds.map Expectation.describe).Pairwise (· < ·) := by
  have named : expectedNames expected ∈ Set.range (List.map Expectation.describe) := by
    rw [Set.range_list_map]
    intro name listed
    obtain ⟨kind, -, rfl⟩ := List.mem_map.mp (Text.mem_sortedDistinct.mp listed)
    exact ⟨kind, rfl⟩
  obtain ⟨kinds, same⟩ := named
  refine ⟨kinds, same, fun kind => ?_, same ▸ Text.pairwise_sortedDistinct _⟩
  rw [← List.mem_map_of_injective Expectation.describe_injective, same, expectedNames,
    Text.mem_sortedDistinct, List.mem_map_of_injective Expectation.describe_injective]

/-! ## Messages -/

/--
The diagnostic of a source that reads up to its lexeme `count`: it points at that lexeme, or at the
end of the source, and names the kinds `expected` there.
-/
def refusal (source : List Char) (count : Nat) (expected : List Expectation) : Diagnostic :=
  let found := (lexemes source)[count]?
  let place := found.elim ⟨byteLength source, byteLength source⟩ (·.span)
  let name := found.elim "end of input" fun lexeme => "`" ++ lexeme.token.describe ++ "`"
  .error .malformed place
    ("expected " ++ " or ".intercalate (expected.map Expectation.describe) ++ ", found " ++ name)

theorem refusal_eq {source : List Char} {count : Nat} {kinds expected : List Expectation}
    (same : kinds.map Expectation.describe = expectedNames expected) :
    refusal source count kinds =
      (ReadError.mk (lexemes source)[count]? expected).diagnostic (byteLength source) := by
  unfold refusal ReadError.diagnostic ReadError.message
  rw [same]
  cases (lexemes source)[count]? <;> rfl

/--
A source whose tokens are no sentence yields no program and one diagnostic beside its lexical
faults.  That diagnostic points at the first token with which the tokens stop being the beginning of
a sentence, or at the end of the source if they all are one, and names what it found there.  What it
expected instead is exactly what goes on after the tokens before in some sentence, the end of the
input included where these are a sentence themselves: each once, in the order of the names.
-/
theorem readSource_first_impossible {source : List Char}
    (refused : ¬ IsSentence (sourceTokens source)) :
    ∃ count expected, FirstImpossible (sourceTokens source) count ∧
      (∀ kind, kind ∈ expected ↔ CanFollow ((sourceTokens source).take count) kind) ∧
      (expected.map Expectation.describe).Pairwise (· < ·) ∧
      (readSource source).program = none ∧
      (readSource source).diagnostics.Perm
        ((lexicalFaults source).map LexicalFault.diagnostic ++
          [refusal source count expected]) := by
  cases reads : Program.read source with
  | ok program =>
      rw [isSentence_sourceTokens, readSource_of_ok reads] at refused
      exact absurd rfl refused
  | error error =>
      obtain ⟨count, last, first, runs, rfl⟩ := Program.ofLexemes_eq_error reads
      obtain ⟨kinds, names, members, increasing⟩ := exists_expectedNames last.stage.expected
      obtain ⟨none, diagnostics⟩ := readSource_of_error reads
      refine ⟨count, kinds, first, fun kind => ?_, increasing, none, ?_⟩
      · rw [members, sourceTokens, ← List.map_take, canFollow_iff runs]
      · rw [refusal_eq names]
        exact diagnostics

/-- A source with a bracket where a block of links could go on in many ways. -/
def bracketSource : String :=
  "def main = [x | y] ? link x >-> y ] use + a"

theorem readSource_first_impossible_bracket :
    ¬ IsSentence (sourceTokens bracketSource.toList) ∧
    ∃ count expected, FirstImpossible (sourceTokens bracketSource.toList) count ∧
      (∀ kind, kind ∈ expected ↔
        CanFollow ((sourceTokens bracketSource.toList).take count) kind) ∧
      (lexicalFaults bracketSource.toList).length = 1 ∧
      refusal bracketSource.toList count expected = .error .malformed ⟨34, 35⟩
        ("expected '','' or ''.'' or ''<ident>'' or ''def'' or ''link'' or ''use'' or " ++
          "end of input, found `]`") := by
  have reads : Program.read bracketSource.toList = .error
      ⟨some ⟨.reserved .closeBracket, 34, 35⟩, .reserved .dot :: .reserved .comma :: .ident ::
        bodyExpected⟩ := by
    decide +kernel
  have refused : ¬ IsSentence (sourceTokens bracketSource.toList) := by
    rw [isSentence_sourceTokens, (readSource_of_error reads).1]
    exact Bool.noConfusion
  obtain ⟨count, expected, first, members, -, -, diagnostics⟩ :=
    readSource_first_impossible refused
  have same := diagnostics.symm.trans (readSource_of_error reads).2
  rw [List.perm_append_left_iff, List.singleton_perm_singleton] at same
  refine ⟨refused, count, expected, first, members, by decide +kernel, ?_⟩
  have names : expectedNames (.reserved .dot :: .reserved .comma :: .ident :: bodyExpected) =
      ["'',''", "''.''", "''<ident>''", "''def''", "''link''", "''use''", "end of input"] := by
    have sorted : ((.reserved .dot :: .reserved .comma :: .ident :: bodyExpected).map
        Expectation.describe).mergeSort (fun a b => a ≤ b) =
          ["'',''", "''.''", "''<ident>''", "''def''", "''link''", "''use''", "end of input"] := by
      simp [bodyExpected, Expectation.describe, Reserved.text, List.mergeSort,
        List.MergeSort.Internal.splitInTwo]
    rw [expectedNames, Text.sortedDistinct, sorted]
    decide
  rw [same, ReadError.diagnostic, ReadError.message, names]
  decide

end FlowDiagram

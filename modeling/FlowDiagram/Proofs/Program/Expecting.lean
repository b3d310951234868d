import FlowDiagram.Proofs.Program.Parts
import FlowDiagram.Proofs.Program.Stages

/-!
# What may come next

The kinds that a stage lists are those of the tokens it takes, and it lists the end of the input
exactly where a program may stop.  No stage is a dead end: from each, a few more tokens lead to
where a program may stop.
-/

namespace FlowDiagram

/-! ## Kinds of tokens -/

theorem Token.kind_eq_number {token : Token} :
    token.kind = .number ↔ ∃ value, token = .number value := by
  cases token <;> simp [Token.kind]

@[simp]
theorem Token.kind_ne_endOfInput (token : Token) : token.kind ≠ .endOfInput := by
  cases token <;> simp [Token.kind]

/-- Every kind but the end of the input is that of a token. -/
theorem Expectation.exists_token {kind : Expectation} (goesOn : kind ≠ .endOfInput) :
    ∃ token : Token, token.kind = kind := by
  cases kind with
  | reserved word => exact ⟨.reserved word, rfl⟩
  | number => exact ⟨.number 0, rfl⟩
  | ident => exact ⟨.ident "x", rfl⟩
  | endOfInput => exact absurd rfl goesOn

/-! ## Tokens that a stage takes -/

section Taken

variable {token : Token} {span : Span}

theorem Draft.next_isSome {draft : Draft} :
    (draft.next token span).isSome ↔ token = .reserved .use ∨ token = .reserved .link := by
  unfold Draft.next
  split <;> simp_all

theorem Draft.nextLink_isSome {draft : Draft} :
    (draft.nextLink token span).isSome ↔
      token.kind = .ident ∨ token = .reserved .use ∨ token = .reserved .link := by
  unfold Draft.nextLink
  split
  · simp [Token.kind]
  · rw [Draft.next_isSome, Token.kind_eq_ident]
    simp_all

theorem GenericsBearer.next_isSome {bearer : GenericsBearer} :
    (bearer.next token span).isSome ↔ token.kind ∈ genericsExpected := by
  simp only [genericsExpected, List.mem_cons, Token.kind_eq_reserved, List.not_mem_nil, or_false]
  unfold GenericsBearer.next
  split <;> simp_all

theorem ListPlace.exists_next {list : List Ident → ListPlace → Stage} {idents : List Ident}
    {place : ListPlace} :
    (∃ stage, place.next idents list token span = some stage) ↔
      token.kind = if place = .afterIdent then .reserved .comma else .ident := by
  cases place with
  | afterIdent =>
      simp only [ListPlace.next, if_true, Token.kind_eq_reserved]
      split <;> simp_all
  | opened | afterComma =>
      simp only [ListPlace.next, reduceCtorEq, if_false, Token.kind_eq_ident]
      split <;> simp_all

/-- A list of identifiers takes what goes on with it, and the words that close it. -/
theorem IsList.next_isSome {list : List Ident → ListPlace → Stage}
    {close : Reserved → List Ident → Span → Option Stage} (isList : IsList list close)
    {closing : List Reserved}
    (closes : ∀ word idents span, (close word idents span).isSome ↔ word ∈ closing)
    {idents : List Ident} {place : ListPlace} :
    ((list idents place).next token span).isSome ↔ token.kind ∈ place.expected closing := by
  have ends : (∃ stage word, token = .reserved word ∧ close word idents span = some stage) ↔
      token.kind ∈ closing.map .reserved := by
    rw [exists_comm]
    simp only [exists_and_left, ← Option.isSome_iff_exists, closes]
    simp [← Token.kind_eq_reserved, and_comm, eq_comm]
  simp only [Option.isSome_iff_exists, isList.next_iff, exists_or, exists_and_left, ends,
    ListPlace.exists_next]
  cases place <;> simp [ListPlace.mayEnd, ListPlace.expected]

section Closing

variable {word : Reserved} {idents : List Ident}

theorem GenericsBearer.closeUniversal_isSome {bearer : GenericsBearer} {opening : Nat} :
    (bearer.closeUniversal opening word idents span).isSome ↔ word ∈ [.bar, .closeAngle] := by
  cases word <;> simp [GenericsBearer.closeUniversal]

theorem GenericsBearer.closeExistential_isSome {bearer : GenericsBearer} {opening : Nat}
    {universal : List Ident} :
    (bearer.closeExistential opening universal word idents span).isSome ↔
      word ∈ [.closeAngle] := by
  cases word <;> simp [GenericsBearer.closeExistential]

theorem PortsBearer.closeInputs_isSome {bearer : PortsBearer} {opening : Nat} :
    (bearer.closeInputs opening word idents span).isSome ↔ word ∈ [.bar] := by
  cases word <;> simp [PortsBearer.closeInputs]

theorem PortsBearer.closeOutputs_isSome {bearer : PortsBearer} {opening : Nat}
    {inputs : List Ident} :
    (bearer.closeOutputs opening inputs word idents span).isSome ↔ word ∈ [.closeBracket] := by
  cases word <;> simp [PortsBearer.closeOutputs]

end Closing

/-- A stage takes the tokens of the kinds it lists, the start of the next definition included. -/
theorem Stage.takes_iff (stage : Stage) (token : Token) (span : Span) :
    (stage.next token span).isSome ∨ (stage.draft?.isSome ∧ token = .reserved .define) ↔
      token.kind ∈ stage.expected := by
  -- Lists come first, then stages that pass tokens on, then those that match them alone.
  cases stage with
  | inUniversal bearer opening =>
      simpa [Stage.draft?, Stage.expected] using
        (isList_universal bearer opening).next_isSome
          fun _ _ _ => GenericsBearer.closeUniversal_isSome
  | inExistential bearer opening universal =>
      simpa [Stage.draft?, Stage.expected] using
        (isList_existential bearer opening universal).next_isSome
          fun _ _ _ => GenericsBearer.closeExistential_isSome
  | inInputs bearer opening =>
      simpa [Stage.draft?, Stage.expected] using
        (isList_inputs bearer opening).next_isSome
          fun _ _ _ => PortsBearer.closeInputs_isSome
  | inOutputs bearer opening inputs =>
      simpa [Stage.draft?, Stage.expected] using
        (isList_outputs bearer opening inputs).next_isSome
          fun _ _ _ => PortsBearer.closeOutputs_isSome
  | afterEquals =>
      simpa [Stage.next, Stage.draft?, Stage.expected] using GenericsBearer.next_isSome
  | afterBoxName =>
      simp only [Stage.next, Stage.expected, List.mem_cons, Token.kind_eq_reserved]
      split
      · simp
      · simp_all [GenericsBearer.next_isSome, Stage.draft?]
  | inBody =>
      simp [Stage.next, Stage.expected, Stage.draft?, bodyExpected, Draft.next_isSome,
        Token.kind_eq_reserved, or_assoc]
  | inLinks =>
      simp [Stage.next, Stage.expected, Stage.draft?, bodyExpected, Draft.nextLink_isSome,
        Token.kind_eq_reserved, or_assoc]
  | inTarget | afterLink =>
      simp only [Stage.next, Stage.expected, Stage.draft?, bodyExpected, List.mem_cons,
        Token.kind_eq_reserved]
      split <;> simp_all [Draft.nextLink_isSome, or_assoc]
  | beforeCount =>
      simp only [Stage.next, Stage.expected, List.mem_cons, Token.kind_eq_number]
      split <;> simp_all [Stage.draft?]
  | beforeName | afterSign | beforeUseName | beforeSourcePort | beforeTarget | beforeTargetPort =>
      simp only [Stage.next, Stage.expected, List.mem_cons, Token.kind_eq_ident]
      split <;> simp_all [Stage.draft?]
  | outset | afterName | beforePorts | beforeBox | afterCount | afterPorts | inSource
  | afterSource =>
      simp only [Stage.next, Stage.expected, List.mem_cons, Token.kind_eq_reserved,
        Token.kind_eq_ident]
      split <;> simp_all [Stage.draft?]

end Taken

theorem Stage.endOfInput_mem_expected {stage : Stage} :
    .endOfInput ∈ stage.expected ↔ stage = .outset ∨ stage.draft?.isSome := by
  cases stage with
  | inUniversal _ _ _ place | inExistential _ _ _ _ place | inInputs _ _ _ place
  | inOutputs _ _ _ _ place =>
      cases place <;> simp [Stage.expected, ListPlace.expected, Stage.draft?]
  | _ => simp [Stage.expected, bodyExpected, genericsExpected, Stage.draft?]

/-! ## Readers -/

theorem Reader.step_isSome_iff {reader : Reader} {lexeme : Lexeme} :
    (reader.step lexeme).isSome ↔ lexeme.token.kind ∈ reader.stage.expected := by
  rw [← reader.stage.takes_iff lexeme.token lexeme.span, Reader.step]
  split
  · simp_all
  · split <;> simp_all [Option.isSome_iff_exists]

theorem Reader.finish_of_mem {reader : Reader} (mayStop : .endOfInput ∈ reader.stage.expected) :
    ∃ definitions, reader.finish = .ok definitions := by
  rw [Stage.endOfInput_mem_expected] at mayStop
  unfold Reader.finish
  split <;> simp_all

theorem Reader.finish_of_not_mem {reader : Reader}
    (goesOn : .endOfInput ∉ reader.stage.expected) :
    reader.finish = .error ⟨none, reader.stage.expected⟩ := by
  rw [Stage.endOfInput_mem_expected] at goesOn
  unfold Reader.finish
  split <;> simp_all

/-! ## Ways to the end -/

/-- How many identifiers a list lacks before it may end. -/
def ListPlace.lacks : ListPlace → Nat
  | .afterComma => 1
  | _ => 0

/-- At a stage, so many more tokens suffice to get to where a program may stop. -/
def Stage.toEnd : Stage → Nat
  | .outset | .inBody _ | .inLinks _ | .inTarget .. | .afterLink _ => 0
  | .beforeUseName .. | .beforeTarget .. | .beforeTargetPort .. => 1
  | .afterPorts .. | .inSource .. | .afterSource .. => 2
  | .beforeSourcePort .. => 3
  | .inOutputs _ _ _ _ place => 3 + place.lacks
  | .inInputs _ _ _ place => 4 + place.lacks
  | .beforePorts _ | .afterEquals .. | .afterBoxName .. => 5
  | .inUniversal _ _ _ place | .inExistential _ _ _ _ place => 6 + place.lacks
  | .afterName .. | .beforeBox .. | .afterSign .. | .afterCount .. => 6
  | .beforeName _ | .beforeCount .. => 7

/-- A token leads on to a stage that is closer to the end. -/
def Stage.Closer (stage : Stage) (span : Span) : Prop :=
  ∃ token next, stage.next token span = some next ∧ next.toEnd < stage.toEnd

/-- A list of identifiers comes closer by its word, or by the identifier that a comma asks for. -/
theorem IsList.closer {list : List Ident → ListPlace → Stage}
    {close : Reserved → List Ident → Span → Option Stage} (isList : IsList list close)
    {idents : List Ident} {span : Span} (word : Reserved) {next : Stage}
    (closes : close word idents span = some next) {most : Nat} (near : next.toEnd < most)
    (toEnd : ∀ idents place, (list idents place).toEnd = most + place.lacks) (place : ListPlace) :
    (list idents place).Closer span := by
  cases place with
  | afterComma =>
      refine ⟨.ident "x", list (⟨"x", span⟩ :: idents) .afterIdent, ?_, ?_⟩
      · exact isList.next_iff.mpr (.inl rfl)
      · simp [toEnd, ListPlace.lacks]
  | opened | afterIdent =>
      refine ⟨.reserved word, next, isList.next_iff.mpr (.inr ⟨rfl, word, rfl, closes⟩), ?_⟩
      simpa [toEnd, ListPlace.lacks] using near

theorem PortsBearer.toEnd_bear_lt (bearer : PortsBearer) (ports : Ports) :
    (bearer.bear ports).toEnd < 3 := by
  cases bearer <;> simp [PortsBearer.bear, Stage.toEnd]

theorem Stage.closer_of_not_mem {stage : Stage} (goesOn : .endOfInput ∉ stage.expected)
    (span : Span) : stage.Closer span := by
  cases stage with
  | outset | inBody | inLinks | inTarget | afterLink =>
      simp [Stage.expected, bodyExpected] at goesOn
  | inUniversal bearer opening idents place =>
      exact (isList_universal bearer opening).closer .closeAngle rfl (by simp [Stage.toEnd])
        (fun _ _ => rfl) place
  | inExistential bearer opening universal idents place =>
      exact (isList_existential bearer opening universal).closer .closeAngle rfl
        (by simp [Stage.toEnd]) (fun _ _ => rfl) place
  | inInputs bearer opening idents place =>
      exact (isList_inputs bearer opening).closer .bar rfl (by simp [Stage.toEnd, ListPlace.lacks])
        (fun _ _ => rfl) place
  | inOutputs bearer opening inputs idents place =>
      exact (isList_outputs bearer opening inputs).closer .closeBracket rfl
        (bearer.toEnd_bear_lt _) (fun _ _ => rfl) place
  | beforePorts | afterEquals | afterBoxName =>
      exact ⟨.reserved .openBracket, _, rfl, by simp [Stage.toEnd, ListPlace.lacks]⟩
  | afterName => exact ⟨.reserved .equals, _, rfl, by simp [Stage.toEnd]⟩
  | beforeBox => exact ⟨.reserved .join, _, rfl, by simp [Stage.toEnd]⟩
  | beforeCount => exact ⟨.number 0, _, rfl, by simp [Stage.toEnd]⟩
  | afterCount => exact ⟨.reserved .closeBrace, _, rfl, by simp [Stage.toEnd]⟩
  | afterPorts => exact ⟨.reserved .as, _, rfl, by simp [Stage.toEnd]⟩
  | inSource | afterSource => exact ⟨.reserved .arrow, _, rfl, by simp [Stage.toEnd]⟩
  | beforeName | afterSign | beforeUseName | beforeSourcePort | beforeTarget | beforeTargetPort =>
      exact ⟨.ident "x", _, rfl, by simp [Stage.toEnd]⟩

/-- Whatever a reader has taken, some lexemes complete it. -/
theorem Reader.exists_reads (reader : Reader) :
    ∃ lexemes definitions, reader.Reads lexemes definitions := by
  induction most : reader.stage.toEnd using Nat.strongRecOn generalizing reader with
  | ind most ih =>
      by_cases mayStop : .endOfInput ∈ reader.stage.expected
      · obtain ⟨definitions, finishes⟩ := Reader.finish_of_mem mayStop
        exact ⟨[], definitions, Reader.reads_nil.mpr finishes⟩
      · obtain ⟨token, next, goes, near⟩ := Stage.closer_of_not_mem mayStop .nowhere
        obtain ⟨lexemes, definitions, reads⟩ :=
          ih next.toEnd (most ▸ near) ⟨reader.definitions, next, Span.nowhere.stop⟩ rfl
        have moves : reader.step ⟨token, .nowhere⟩ =
            some ⟨reader.definitions, next, Span.nowhere.stop⟩ := by
          rw [Reader.step, goes]
        exact ⟨_, definitions, Reader.reads_cons.mpr ⟨_, moves, reads⟩⟩

end FlowDiagram

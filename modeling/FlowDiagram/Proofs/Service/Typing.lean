import FlowDiagram.Proofs.Service.Headers
import FlowDiagram.Proofs.Service.History
import FlowDiagram.Proofs.Service.Retention

/-!
# Typings that go with images

An image is answered with an identifier, and with the typing in a header if it was wanted and fits
there.  Who asks for the typing of that identifier next is answered the same text, whether or not it
was in the header.
-/

namespace FlowDiagram

/-- The request wants the typing: a field of its query says yes. -/
def Request.WantsTyping (request : Request) : Prop :=
  ∃ value, Service.queryField request "typing" = .ok (some value) ∧ Service.isYes value = true

namespace Service

variable {service : Service} {state : ServiceState} {visit : Visit} {step : String}
  {response : Response}

/-! ## Images -/

/-- The answer with an image is made of a compilation that is kept. -/
theorem exists_of_image {next : ServiceState} (post : visit.method = .post)
    (route : Route.ofPath? visit.target.path = some (.image step))
    (made : (service.image visit step).after state = (.ok response, next)) :
    ∃ order compilation rendered, visit.order? = some order ∧
      service.compile order = .ok compilation ∧
      (order.typing = true ↔ visit.WantsTyping) ∧
      response = imageResponse rendered (service.ids state.issued)
        (if order.typing = true then some compilation.typing else none) ∧
      next = ⟨state.store.insert (service.ids state.issued) compilation.typing,
        state.issued + 1⟩ := by
  unfold image at made
  obtain ⟨depthText, decoded, made⟩ := Handler.exists_ok_of_bind made
  obtain ⟨field, fieldRead, made⟩ := Handler.exists_ok_of_bind made
  obtain ⟨body, bodyRead, made⟩ := Handler.exists_ok_of_bind made
  obtain ⟨depth, depthRead, made⟩ := Handler.exists_ok_of_bind made
  obtain ⟨order, orderRead, made⟩ := Handler.exists_ok_of_bind made
  obtain ⟨compilation, compiled, made⟩ := Handler.exists_ok_of_bind made
  obtain ⟨rendered, -, made⟩ := Handler.exists_ok_of_bind made
  cases made
  refine ⟨_, compilation, rendered, ?_, ok_of_mapError compiled, ?_, rfl, rfl⟩
  · simp [Request.order?, post, route, decoded, fieldRead, bodyRead, depthRead, orderRead,
      Except.toOption]
  · rw [Request.WantsTyping, fieldRead]
    cases field <;> simp

theorem exists_of_answer (post : visit.method = .post)
    (route : Route.ofPath? visit.target.path = some (.image step))
    (answered : (service.answer state visit).1 = response) (succeeds : response.status = 200) :
    ∃ order compilation rendered, visit.order? = some order ∧
      service.compile order = .ok compilation ∧
      (order.typing = true ↔ visit.WantsTyping) ∧
      response = imageResponse rendered (service.ids state.issued)
        (if order.typing = true then some compilation.typing else none) ∧
      (service.answer state visit).2 =
        ⟨state.store.insert (service.ids state.issued) compilation.typing,
          state.issued + 1⟩ := by
  rcases made : (service.image visit step).after state with ⟨refusal | given, next⟩
  · have refused : service.answer state visit = (refusal.response, next) := by
      simp only [answer, post, route, handle, made, reduceCtorEq, if_false]
    rw [refused] at answered
    subst answered
    exact absurd succeeds refusal.status_ne
  · have given : service.answer state visit = (given, next) := by
      simp only [answer, post, route, handle, made]
    rw [given] at answered ⊢
    subst answered
    exact exists_of_image post route made

/-- Within the limits the service compiles as anyone does. -/
theorem compile_of_ok {order : Order} {compilation : Compilation}
    (compiles : service.compile order = .ok compilation) :
    FlowDiagram.compile order.code (service.options order) = .ok compilation := by
  simp only [compile] at compiles
  split at compiles
  · cases compiles
  · split at compiles
    · cases compiles
    · exact ok_of_mapError compiles

/-! ## Asking for typings -/

/-- What has just been kept under an identifier is answered to who asks for it. -/
theorem answer_of_sends {id : Uuid} {text : String} {asking : Visit}
    (there : state.store.value? id = some text) (sends : asking.Sends id.text) :
    (service.answer state asking).1 = typingFound asking.toRequest text := by
  rw [answer_of_names (sends.names?.trans id.read?_trimmed_text), Effect.run_read_found there]

/-- There is room for a typing in every state. -/
theorem value?_insert_after (service : Service) (history : List Visit) (id : Uuid)
    (typing : String) :
    ((service.after history).store.insert id typing).value? id = some typing := by
  have follows := service.follows_after history
  refine follows.holds.inStep.value?_insert_self ?_ id typing
  rw [follows.capacity]
  exact Nat.le_max_left 1 _

/--
An image that is answered, whatever was before, comes with an identifier, and there is a text that
whoever asks for the typing of that identifier next is answered.  The same text comes in a header
exactly if the request wants it and it has none of the characters U+0000 to U+001F, tabs (U+0009)
apart, and no U+007F.  It never has one of these unless a generator of the request has it in its
written name, that is before its first `#`.
-/
theorem typing_of_image (service : Service) (history : List Visit)
    (post : visit.method = .post)
    (route : Route.ofPath? visit.target.path = some (.image step))
    (answered : (service.answer (service.after history) visit).1 = response)
    (succeeds : response.status = 200) :
    ∃ order id text, visit.order? = some order ∧ response.id = some id ∧
      (∀ asking : Visit, asking.Sends id.text →
        (service.answer (service.after (history ++ [visit])) asking).1 =
          typingFound asking.toRequest text) ∧
      (response.typing.isSome = true ↔ visit.WantsTyping ∧ isHeaderText text = true) ∧
      (∀ value ∈ response.typing, value = text) ∧
      ((∀ generators ∈ order.generators, ∀ generator ∈ generators,
          isHeaderText (Symbol.written generator) = true) → isHeaderText text = true) := by
  obtain ⟨order, compilation, rendered, asks, compiles, wants, made, next⟩ :=
    exists_of_answer post route answered succeeds
  refine ⟨order, _, compilation.typing, asks, by rw [made]; rfl, ?_, ?_, ?_, ?_⟩
  · intro asking sends
    rw [after_append_one, next]
    exact answer_of_sends (value?_insert_after service history _ _) sends
  · rw [← wants, made]
    cases typed : order.typing <;> simp [imageResponse, Option.isSome_filter]
  · intro value sent
    rw [made] at sent
    cases typed : order.typing with
    | false => simp [imageResponse, typed] at sent
    | true =>
        simp only [imageResponse, typed, if_true, Option.mem_def, Option.filter_eq_some_iff,
          Option.some.injEq] at sent
        exact sent.1.symm
  · exact isHeaderText_typing (compile_of_ok compiles)

theorem typing_of_image_plain :
    (narrow.answer narrow.start (imageVisit .dot "q")).1.typing =
        some "[X: \x7b!q\x7d | Y: \x7bq\x7d]" ∧
      ∃ id, (narrow.answer narrow.start (imageVisit .dot "q")).1.id = some id ∧
        ∀ asking : Visit, asking.Sends id.text →
          (narrow.answer (narrow.after [imageVisit .dot "q"]) asking).1 =
            typingFound asking.toRequest "[X: \x7b!q\x7d | Y: \x7bq\x7d]" := by
  obtain ⟨route, succeeds, sent⟩ :
      Route.ofPath? (imageVisit .dot "q").target.path = some (.image "0") ∧
        (narrow.answer narrow.start (imageVisit .dot "q")).1.status = 200 ∧
        (narrow.answer narrow.start (imageVisit .dot "q")).1.typing =
          some "[X: \x7b!q\x7d | Y: \x7bq\x7d]" := by
    decide +kernel
  have post : (imageVisit .dot "q").method = .post := rfl
  obtain ⟨order, id, text, -, handed, asked, -, same, -⟩ :=
    typing_of_image narrow [] post route rfl succeeds
  obtain rfl := same _ sent
  exact ⟨sent, id, handed, asked⟩

/-- A line feed in a generator keeps the typing out of the header, but not from who asks for it. -/
theorem no_typing_of_lineFeed :
    (narrow.answer narrow.start (imageVisit .dot "a\\nb")).1.status = 200 ∧
      ¬ ((narrow.answer narrow.start (imageVisit .dot "a\\nb")).1.typing.isSome = true ↔
        (imageVisit .dot "a\\nb").WantsTyping) ∧
      (narrow.answer (narrow.answer narrow.start (imageVisit .dot "a\\nb")).2
          firstTypingVisit).1 =
        typingFound firstTypingVisit.toRequest "[X: \x7b!a\nb\x7d | Y: \x7ba\nb\x7d]" := by
  obtain ⟨succeeds, unsent, names, kept⟩ :
      (narrow.answer narrow.start (imageVisit .dot "a\\nb")).1.status = 200 ∧
        (narrow.answer narrow.start (imageVisit .dot "a\\nb")).1.typing = none ∧
        firstTypingVisit.names? = some (narrow.ids 0) ∧
        (narrow.answer narrow.start (imageVisit .dot "a\\nb")).2.store.value? (narrow.ids 0) =
          some "[X: \x7b!a\nb\x7d | Y: \x7ba\nb\x7d]" := by
    decide +kernel
  refine ⟨succeeds, fun same => ?_, ?_⟩
  · have query : (imageVisit .dot "a\\nb").target.query = [("typing", "1")] := by decide +kernel
    have wants : (imageVisit .dot "a\\nb").WantsTyping :=
      ⟨"1", by simp [queryField, Web.Target.single, query], by decide +kernel⟩
    have there := same.mpr wants
    rw [unsent] at there
    cases there
  · rw [answer_of_names names, Effect.run_read_found kept]

end Service

end FlowDiagram

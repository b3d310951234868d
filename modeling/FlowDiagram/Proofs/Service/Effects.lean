import FlowDiagram.Proofs.Service.Recency
import FlowDiagram.Service

/-!
# What a request comes to

Whatever the service keeps, a request comes to one operation on its store at most: a compilation is
kept under the next identifier, or the typing of an identifier is read.  Which one it is, and all of
the answer but what that operation finds, follows from the request alone.  So requests that are
handled at the same time are answered as if one after the other, in the order of their operations.
-/

namespace FlowDiagram

/-! ## What requests ask for -/

namespace Request

/-- The request asks for a compilation. -/
def Orders (request : Request) : Prop :=
  request.method = .post ∧ ∃ route, Service.Route.ofPath? request.target.path = some route ∧
    (route = .compile ∨ ∃ step, route = .image step)

/-- The compilation that a request asks for. -/
def order? (request : Request) : Option Order :=
  match request.method, Service.Route.ofPath? request.target.path with
  | .post, some (.image step) => do
    let depth ← (Service.decodeDepth step).toOption
    let typing ← (Service.queryField request "typing").toOption
    let body ← (Service.takeBody request).toOption
    let depth ← (Service.readDepth depth).toOption
    let order ← (Service.readOrder OrderDraft.imageForm body).toOption
    return { order with depth := depth, typing := (typing.map Service.isYes).getD false }
  | .post, some .compile => do
    let body ← (Service.takeBody request).toOption
    (Service.readOrder OrderDraft.compileForm body).toOption
  | _, _ => none

/-- The identifier whose typing a request asks for, from its query or else from its cookies. -/
def names? (request : Request) : Option Uuid :=
  match request.method, Service.Route.ofPath? request.target.path with
  | .get, some .typing | .head, some .typing => do
    let named ← (Service.queryField request "id").toOption
    let raw ← named.or (request.cookies.bind (Web.cookieValue? · Service.cookieName))
    Uuid.read? (Text.trimmed raw)
  | _, _ => none

/-- The request asks for a typing, with a text in its query or else in its cookies. -/
def Sends (request : Request) (text : String) : Prop :=
  (request.method = .get ∨ request.method = .head) ∧
    Service.Route.ofPath? request.target.path = some .typing ∧
    ∃ named, Service.queryField request "id" = .ok named ∧
      named.or (request.cookies.bind (Web.cookieValue? · Service.cookieName)) = some text

/-- What is sent of a response: to a request for the head alone, no body. -/
def sent (request : Request) (response : Response) : Response :=
  if request.method = .head then response.withoutBody else response

@[simp] theorem sent_status (request : Request) (response : Response) :
    (request.sent response).status = response.status := by
  unfold sent
  split <;> rfl

variable {request : Request}

theorem orders_of_order? {order : Order} (asks : request.order? = some order) :
    request.Orders := by
  unfold order? at asks
  split at asks
  case h_1 step method route => exact ⟨method, _, route, .inr ⟨step, rfl⟩⟩
  case h_2 method route => exact ⟨method, _, route, .inl rfl⟩
  case h_3 => cases asks

theorem Sends.names? {text : String} (sends : request.Sends text) :
    request.names? = Uuid.read? (Text.trimmed text) := by
  obtain ⟨get | head, route, named, fieldRead, written⟩ := sends
  · simp [Request.names?, get, route, fieldRead, written, Except.toOption]
  · simp [Request.names?, head, route, fieldRead, written, Except.toOption]

theorem Orders.names?_eq_none (orders : request.Orders) : request.names? = none := by
  simp only [names?, orders.1]

end Request

/-- A response that hands out the identifier of a compilation. -/
inductive Response.HandsOut (id : Uuid) (compilation : Compilation) : Response → Prop
  | image (rendered : Rendered) (typing : Option String)
      (own : ∀ text ∈ typing, text = compilation.typing) :
      HandsOut id compilation (Service.imageResponse rendered id typing)
  | record : HandsOut id compilation
      (.ofJson 200 (Service.compilationJson id compilation compilation.graph.json))

theorem Response.HandsOut.status {id : Uuid} {compilation : Compilation} {response : Response}
    (hands : Response.HandsOut id compilation response) : response.status = 200 := by
  cases hands <;> rfl

theorem ServiceError.status_ne (error : ServiceError) : error.status ≠ 200 := by
  cases error with
  | notCompiled failure =>
    change failure.category.status ≠ 200
    cases failure.category <;> decide
  | _ => simp [ServiceError.status]

theorem Refusal.status_ne (refusal : Refusal) : refusal.response.status ≠ 200 := by
  cases refusal with
  | failed error => exact error.status_ne
  | _ => simp [Refusal.response, Response.ofText, Response.bare]

/-! ## Handlers -/

namespace Handler

variable {α β : Type} {handler : Handler α} {next : α → Handler β} {state later : ServiceState}

theorem ok_bind (value : α) (next : α → Handler β) :
    (liftM (Except.ok value : Except Refusal α) : Handler α) >>= next = next value := rfl

theorem after_bind_of_ok {value : α} (done : handler.after state = (.ok value, later)) :
    (handler >>= next).after state = (next value).after later := by
  change (ExceptT.bindCont next (handler.after state).1).run (handler.after state).2 = _
  rw [done]
  rfl

/-- What succeeds has got past its first step. -/
theorem exists_ok_of_bind {step : Except Refusal α} {value : β}
    (done : (liftM step >>= next).after state = (.ok value, later)) :
    ∃ first, step = .ok first ∧ (next first).after state = (.ok value, later) := by
  cases step with
  | error refusal => cases done
  | ok first => exact ⟨first, rfl, done⟩

theorem after_bind_of_error {refusal : Refusal}
    (fails : handler.after state = (.error refusal, later)) :
    (handler >>= next).after state = (.error refusal, later) := by
  change (ExceptT.bindCont next (handler.after state).1).run (handler.after state).2 = _
  rw [fails]
  rfl

end Handler

namespace Service

theorem lookUp_of_found {state : ServiceState} {id : Uuid} {text : String}
    (there : state.store.value? id = some text) :
    (lookUp id).after state =
      (.ok (some text), { state with store := (state.store.get id).2 }) := by
  have found : (state.store.get id).1 = some text := by rw [RecentStore.get, there]
  rw [← found]
  rfl

/-- To look for a typing that is not there is no use of its identifier. -/
theorem lookUp_of_missing {state : ServiceState} {id : Uuid}
    (gone : state.store.value? id = none) : (lookUp id).after state = (.ok none, state) := by
  change (Except.ok (state.store.get id).1, { state with store := (state.store.get id).2 }) = _
  rw [RecentStore.get_of_value?_eq_none gone]

/-! ## Effects -/

/-- What a request comes to, with what it answers. -/
inductive Effect where
  | nothing (response : Response)
  /-- Keep a typing under the next identifier. -/
  | keep (typing : String) (answer : Uuid → Response)
  /-- Read the typing of an identifier, if it is there. -/
  | read (id : Uuid) (found : String → Response) (missing : Response)

def Effect.run (service : Service) (state : ServiceState) : Effect → Response × ServiceState
  | .nothing response => (response, state)
  | .keep typing answer =>
    let id := service.ids state.issued
    (answer id, ⟨state.store.insert id typing, state.issued + 1⟩)
  | .read id found missing =>
    match state.store.get id with
    | (some text, store) => (found text, { state with store := store })
    | (none, _) => (missing, state)

@[simp] theorem Effect.run_nothing (service : Service) (state : ServiceState)
    (response : Response) : (Effect.nothing response).run service state = (response, state) := rfl

@[simp] theorem Effect.run_keep (service : Service) (state : ServiceState) (typing : String)
    (answer : Uuid → Response) :
    (Effect.keep typing answer).run service state = (answer (service.ids state.issued),
      ⟨state.store.insert (service.ids state.issued) typing, state.issued + 1⟩) := rfl

theorem Effect.run_read_found {state : ServiceState} {id : Uuid} {text : String}
    (there : state.store.value? id = some text) (service : Service) (found : String → Response)
    (missing : Response) :
    (Effect.read id found missing).run service state =
      (found text, { state with store := (state.store.get id).2 }) := by
  simp only [Effect.run, RecentStore.get, there]

theorem Effect.run_read_missing {state : ServiceState} {id : Uuid}
    (gone : state.store.value? id = none) (service : Service) (found : String → Response)
    (missing : Response) :
    (Effect.read id found missing).run service state = (missing, state) := by
  rw [Effect.run, RecentStore.get_of_value?_eq_none gone]

/-- The answer to who asks for a typing. -/
def typingFound (request : Request) (text : String) : Response :=
  request.sent (.ofJson 200 (typingJson text))

/-- The answer to who names an identifier without a typing. -/
def typingMissing (request : Request) (id : Uuid) : Response :=
  request.sent (Refusal.failed (.notFound ("no compilation with id " ++ id.text))).response

@[simp] theorem typingFound_status (request : Request) (text : String) :
    (typingFound request text).status = 200 := request.sent_status _

@[simp] theorem typingMissing_status (request : Request) (id : Uuid) :
    (typingMissing request id).status = 404 := request.sent_status _

/-- What a request may come to, depending on what it asks for. -/
inductive Performs (service : Service) (request : Request) : Effect → Prop
  | refused {response : Response} (fails : response.status ≠ 200)
      (reads : request.names? = none) : Performs service request (.nothing response)
  | answered {response : Response} (succeeds : response.status = 200)
      (reads : request.names? = none) (orders : ¬ request.Orders) :
      Performs service request (.nothing response)
  | kept {order : Order} {compilation : Compilation} {answer : Uuid → Response}
      (asks : request.order? = some order) (compiles : service.compile order = .ok compilation)
      (hands : ∀ id, Response.HandsOut id compilation (answer id)) :
      Performs service request (.keep compilation.typing answer)
  | read {id : Uuid} (names : request.names? = some id) :
      Performs service request (.read id (typingFound request) (typingMissing request id))

/-- What is answered after a request has been handled. -/
def settled (request : Request) : Except Refusal Response × ServiceState → Response × ServiceState
  | (.ok response, state) => (response, state)
  | (.error refusal, state) => (request.sent refusal.response, state)

/-- To handle a request comes to an effect, whatever the state. -/
def Comes (service : Service) (request : Request) (handler : Handler Response) : Prop :=
  ∃ effect, service.Performs request effect ∧
    ∀ state, settled request (handler.after state) = effect.run service state

variable {service : Service} {request : Request} {visit : Visit}

theorem comes_of_error {refusal : Refusal} (reads : request.names? = none) :
    service.Comes request (throw refusal) :=
  ⟨.nothing (request.sent refusal.response), .refused (by simpa using refusal.status_ne) reads,
    fun _ => rfl⟩

/-- A step that does not look at the state fails alike in all, or goes on alike. -/
theorem Comes.bind {α : Type} {step : Except Refusal α} {next : α → Handler Response}
    (reads : request.names? = none)
    (goes : ∀ value, step = .ok value → service.Comes request (next value)) :
    service.Comes request (liftM step >>= next) := by
  cases step with
  | error refusal => exact comes_of_error reads
  | ok value => exact goes value rfl

theorem ok_of_mapError {ε δ α : Type} {f : ε → δ} {result : Except ε α} {value : α}
    (ok : result.mapError f = .ok value) : result = .ok value := by
  cases result with
  | error => cases ok
  | ok other =>
    cases ok
    rfl

/-- A compilation that succeeds is kept, and handed out with its identifier if nothing fails after
that. -/
theorem comes_of_compiled {order : Order} {compilation : Compilation}
    {next : Uuid → Handler Response} (asks : request.order? = some order)
    (compiles : service.compile order = .ok compilation) (answer : Uuid → Response)
    (goes : ∀ id, next id = pure (answer id))
    (hands : ∀ id, Response.HandsOut id compilation (answer id)) :
    service.Comes request (service.remember compilation >>= next) := by
  obtain rfl : next = fun id => pure (answer id) := funext goes
  exact ⟨.keep compilation.typing answer, .kept asks compiles hands, fun _ => rfl⟩

theorem image_comes {step : String} (post : visit.method = .post)
    (route : Route.ofPath? visit.target.path = some (.image step)) :
    service.Comes visit.toRequest (service.image visit step) := by
  have reads : visit.names? = none :=
    Request.Orders.names?_eq_none ⟨post, _, route, .inr ⟨step, rfl⟩⟩
  unfold image
  refine Comes.bind reads fun depthText decoded => ?_
  refine Comes.bind reads fun typing typingRead => ?_
  refine Comes.bind reads fun body bodyRead => ?_
  refine Comes.bind reads fun depth depthRead => ?_
  refine Comes.bind reads fun order orderRead => ?_
  refine Comes.bind reads fun compilation compiled => ?_
  refine Comes.bind reads fun rendered _ => ?_
  refine comes_of_compiled ?_ (ok_of_mapError compiled) (fun id => imageResponse rendered id _)
    (fun id => rfl) fun id => ?_
  · simp [Request.order?, post, route, decoded, typingRead, bodyRead, depthRead, orderRead,
      Except.toOption]
  · exact .image rendered _ (by split <;> simp)

/-- The graph can always be written, so nothing fails once the compilation has been kept. -/
theorem compileAll_comes (post : request.method = .post)
    (route : Route.ofPath? request.target.path = some .compile) :
    service.Comes request (service.compileAll request) := by
  have reads : request.names? = none :=
    Request.Orders.names?_eq_none ⟨post, _, route, .inl rfl⟩
  unfold compileAll
  refine Comes.bind reads fun body bodyRead => ?_
  refine Comes.bind reads fun order orderRead => ?_
  refine Comes.bind reads fun compilation compiled => ?_
  refine comes_of_compiled ?_ (ok_of_mapError compiled)
    (fun id => .ofJson 200 (compilationJson id compilation compilation.graph.json))
    (fun id => ?_) fun _ => .record
  · simp [Request.order?, post, route, bodyRead, orderRead, Except.toOption]
  · rw [Datum.toJson_eq compilation.graph.writable]
    rfl

theorem names?_eq_join (method : request.method = .get ∨ request.method = .head)
    (route : Route.ofPath? request.target.path = some .typing) :
    request.names? = (namedId request).toOption.join := by
  have named : request.names? = (do
      let named ← (queryField request "id").toOption
      let raw ← named.or (request.cookies.bind (Web.cookieValue? · cookieName))
      Uuid.read? (Text.trimmed raw)) := by
    obtain get | head := method
    · simp only [Request.names?, get, route]
    · simp only [Request.names?, head, route]
  rw [named, namedId]
  cases queryField request "id" with
  | error refusal => rfl
  | ok given =>
    simp only [Except.toOption, Option.bind_some, bind, Except.bind]
    cases given.or (request.cookies.bind (Web.cookieValue? · cookieName)) with
    | none => rfl
    | some raw =>
      cases idRead : Uuid.read? (Text.trimmed raw) <;>
        simp [idRead, pure, Except.pure]

/-- The typing that is asked for is read, unless no identifier is named. -/
theorem typing_comes (method : request.method = .get ∨ request.method = .head)
    (route : Route.ofPath? request.target.path = some .typing) :
    service.Comes request do return request.sent (← typing request) := by
  have orders : ¬ request.Orders := fun ⟨post, _⟩ => by simp [post] at method
  have names := names?_eq_join method route
  unfold typing
  cases reading : namedId request with
  | error refusal =>
    rw [reading] at names
    exact comes_of_error names
  | ok named =>
    rw [reading] at names
    rw [Handler.ok_bind]
    cases named with
    | none =>
      exact ⟨.nothing (request.sent (.ofJson 200 (typingJson ""))),
        .answered (request.sent_status _) names orders, fun state => rfl⟩
    | some id =>
      refine ⟨_, .read names, fun state => ?_⟩
      cases there : state.store.value? id with
      | none =>
        rw [Effect.run_read_missing there]
        refine congrArg (settled request) (Handler.after_bind_of_error ?_)
        exact Handler.after_bind_of_ok (lookUp_of_missing there)
      | some text =>
        rw [Effect.run_read_found there]
        refine congrArg (settled request) (Handler.after_bind_of_ok ?_)
        exact Handler.after_bind_of_ok (lookUp_of_found there)

/-- What is answered without a look at the state. -/
theorem comes_of_fixed (response : Response) (reads : request.names? = none)
    (fits : response.status = 200 → ¬ request.Orders) :
    service.Comes request (pure response) := by
  by_cases status : response.status = 200
  · exact ⟨.nothing response, .answered status reads (fits status), fun _ => rfl⟩
  · exact ⟨.nothing response, .refused status reads, fun _ => rfl⟩

theorem names?_eq_none_of_route {route : Route}
    (leads : Route.ofPath? request.target.path = some route)
    (other : route ≠ .typing ∨ (request.method ≠ .get ∧ request.method ≠ .head)) :
    request.names? = none := by
  unfold Request.names?
  split
  all_goals simp_all

/-- A method that a route does not have. -/
theorem comes_of_noMethod {route : Route} (leads : Route.ofPath? request.target.path = some route)
    (other : route ≠ .typing ∨ (request.method ≠ .get ∧ request.method ≠ .head)) :
    service.Comes request (pure (.bare 405)) :=
  comes_of_fixed _ (names?_eq_none_of_route leads other) fun status => by cases status

theorem handle_comes {route : Route} (leads : Route.ofPath? visit.target.path = some route) :
    service.Comes visit.toRequest (service.handle visit route visit.method) := by
  cases route with
  | image step =>
    cases method : visit.method with
    | post => exact image_comes method leads
    | _ => exact comes_of_noMethod leads (.inl nofun)
  | compile =>
    cases method : visit.method with
    | post => exact compileAll_comes method leads
    | _ => exact comes_of_noMethod leads (.inl nofun)
  | typing =>
    cases method : visit.method with
    | get =>
      have whole : typing visit.toRequest =
          do return visit.sent (← typing visit.toRequest) := by
        simp [Request.sent, method]
      rw [handle, whole]
      exact typing_comes (.inl method) leads
    | head =>
      have whole : (do return (← typing visit.toRequest).withoutBody) =
          do return visit.sent (← typing visit.toRequest) := by
        simp [Request.sent, method]
      rw [handle, whole]
      exact typing_comes (.inr method) leads
    | _ => exact comes_of_noMethod leads (.inr (by simp [method]))
  | health =>
    have reads := names?_eq_none_of_route leads (.inl nofun)
    have orders : ¬ visit.Orders := by
      rintro ⟨-, other, same, kind⟩
      rw [leads] at same
      cases same
      simp at kind
    cases method : visit.method with
    | get => exact comes_of_fixed _ reads fun _ => orders
    | head => exact comes_of_fixed _ reads fun _ => orders
    | _ => exact comes_of_noMethod leads (.inl nofun)

/-- Every request comes to an effect, whatever the state it is answered in. -/
theorem exists_effect (service : Service) (visit : Visit) :
    ∃ effect, service.Performs visit.toRequest effect ∧
      ∀ state, service.answer state visit = effect.run service state := by
  have handled : ∀ handler, service.Comes visit.toRequest handler →
      (∀ state, service.answer state visit = settled visit.toRequest (handler.after state)) →
      ∃ effect, service.Performs visit.toRequest effect ∧
        ∀ state, service.answer state visit = effect.run service state :=
    fun handler ⟨effect, performs, runs⟩ answers =>
      ⟨effect, performs, fun state => (answers state).trans (runs state)⟩
  by_cases options : visit.method = .options
  · refine handled _ (comes_of_fixed (.bare 200) ?_ ?_) fun state => ?_
    · simp [Request.names?, options]
    · rintro - ⟨post, -⟩
      simp [options] at post
    · rw [answer, options]
      rfl
  · cases leads : Route.ofPath? visit.target.path with
    | none =>
      refine handled _ (comes_of_fixed (.bare 404) ?_ nofun) fun state => ?_
      · simp [Request.names?, leads]
      · unfold answer
        split
        · contradiction
        · rfl
        · simp_all
    | some route =>
      refine handled _ (handle_comes leads) fun state => ?_
      unfold answer
      split
      case h_1 => contradiction
      case h_2 => simp_all
      case h_3 other same _ =>
        rw [leads] at same
        cases same
        rcases (service.handle visit route visit.method).after state with
          ⟨refusal | response, later⟩ <;> rfl

/-! ## Failures -/

variable {state : ServiceState}

/-- An effect that does not succeed leaves the state as it was. -/
theorem Performs.unchanged {effect : Effect} (performs : service.Performs request effect)
    (fails : (effect.run service state).1.status ≠ 200) :
    (effect.run service state).2 = state := by
  cases performs with
  | refused => rfl
  | answered => rfl
  | kept asks compiles hands => exact absurd (hands _).status fails
  | @read id names =>
    cases there : state.store.value? id with
    | none => rw [Effect.run_read_missing there]
    | some text =>
      rw [Effect.run_read_found there] at fails
      exact absurd (typingFound_status request text) fails

/-- A handler that refuses a request has not changed the state, however far it has come. -/
theorem handle_of_error {route : Route} {refusal : Refusal} {later : ServiceState}
    (leads : Route.ofPath? visit.target.path = some route)
    (refuses : (service.handle visit route visit.method).after state = (.error refusal, later)) :
    later = state := by
  have comes : service.Comes visit.toRequest (service.handle visit route visit.method) :=
    handle_comes leads
  obtain ⟨effect, performs, runs⟩ := comes
  have ran := runs state
  rw [refuses, settled] at ran
  have fails : (effect.run service state).1.status ≠ 200 := by
    rw [← ran, Request.sent_status]
    exact refusal.status_ne
  rw [← performs.unchanged fails, ← ran]

/-- An identifier that is named is read. -/
theorem answer_of_names {id : Uuid} (names : visit.names? = some id) :
    service.answer state visit = (Effect.read id (typingFound visit.toRequest)
      (typingMissing visit.toRequest id)).run service state := by
  obtain ⟨effect, performs, runs⟩ := exists_effect service visit
  rw [runs]
  cases performs with
  | refused _ reads => simp [reads] at names
  | answered _ reads => simp [reads] at names
  | kept asks => simp [(Request.orders_of_order? asks).names?_eq_none] at names
  | read named =>
    rw [names] at named
    cases named
    rfl

end Service

end FlowDiagram

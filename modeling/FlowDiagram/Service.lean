import FlowDiagram.RecentStore
import FlowDiagram.Service.Error
import FlowDiagram.Service.Form
import FlowDiagram.Service.Message
import FlowDiagram.Settings

/-!
# The service

The service compiles sources for its clients, one request after the other.  Each compilation that
succeeds gets an identifier, under which its typing can be asked for as long as it is among those
used last.  There is one state for all requests: what a request has done to it stays done, whether
or not the request is refused in the end.
-/

namespace FlowDiagram

structure Service where
  settings : Settings
  /-- The identifiers to hand out, in order. -/
  ids : Nat → Uuid

/-- What the service keeps between requests. -/
structure ServiceState where
  /-- The typings of the compilations used last; the typing is empty if it was not asked for. -/
  store : RecentStore Uuid String
  /-- How many identifiers have been handed out. -/
  issued : Nat

/-- A request, and what the renderer makes of texts while it is answered. -/
structure Visit extends Request where
  renderer : Renderer

/-- Why a request is not answered as asked. -/
inductive Refusal where
  | failed (error : ServiceError)
  /-- A field of the query that is there more than once. -/
  | repeatedField (name : String)
  /-- A step of the path that is no text. -/
  | notText (step : String)
  | bodyTooLong

def Refusal.response : Refusal → Response
  | .failed error => .ofJson error.status error.body
  | .repeatedField name =>
    .ofText 400 ("Failed to deserialize query string: duplicate field `" ++ name ++ "`")
  | .notText step => .ofText 400 ("Invalid URL: Invalid UTF-8 in `" ++ step ++ "`")
  | .bodyTooLong => .ofText 413 "Failed to buffer the request body: length limit exceeded"

/-- To handle a request may change the state, also if the request is refused. -/
abbrev Handler := ExceptT Refusal (StateM ServiceState)

/-- What a handler comes to in a state, and the state that it leaves. -/
def Handler.after {α : Type} (handler : Handler α) (state : ServiceState) :
    Except Refusal α × ServiceState :=
  handler.run.run state

namespace Service

/-- Nothing has been compiled yet. -/
def start (service : Service) : ServiceState := ⟨.empty service.settings.storeCapacity, 0⟩

/-! ## Compiling -/

/-- What is ordered is taken to be compiled in time. -/
def options (service : Service) (order : Order) : CompileOptions where
  root := order.root
  generators := order.generators
  typing := order.typing
  limits := ⟨order.depth, service.settings.maxNodes, false⟩
  checkExpired := false
  inferExpired := false

/-- Compile what is asked for, unless it is beyond the limits. -/
def compile (service : Service) (order : Order) : Except ServiceError Compilation :=
  let size := order.code.utf8ByteSize
  let limits := service.settings
  if limits.maxSourceBytes < size then
    .error (.tooLarge ("source is " ++ toString size ++ " bytes, the limit is " ++
      toString limits.maxSourceBytes))
  else if limits.maxDepth < order.depth then
    .error (.tooLarge ("expansion depth " ++ toString order.depth ++
      " exceeds the server limit of " ++ toString limits.maxDepth))
  else (FlowDiagram.compile order.code (service.options order)).mapError .notCompiled

/-- Give a compilation the next identifier and keep its typing. -/
def remember (service : Service) (compilation : Compilation) : Handler Uuid := do
  let state ← get
  let id := service.ids state.issued
  set (ServiceState.mk (state.store.insert id compilation.typing) (state.issued + 1))
  return id

/-- Read the typing of an identifier, which is a use of it. -/
def lookUp (id : Uuid) : Handler (Option String) := do
  let state ← get
  let (found, store) := state.store.get id
  set { state with store := store }
  return found

/-! ## Reading requests -/

/-- The longest body that is read, in bytes. -/
def maxBodyBytes : Nat := 2097152

def takeBody (request : Request) : Except Refusal String :=
  if maxBodyBytes < request.body.utf8ByteSize then .error .bodyTooLong else .ok request.body

/-- The value of a field of the query, if it is there. -/
def queryField (request : Request) (name : String) : Except Refusal (Option String) :=
  match request.target.single name with
  | .absent => .ok none
  | .given value => .ok (some value)
  | .repeated => .error (.repeatedField name)

/-- Whether the value of a field means yes. -/
def isYes (value : String) : Bool :=
  ["true", "1", "on", "yes"].contains (Text.trimmed value).toLower

def readOrder (form : Json.RecordForm OrderDraft) (body : String) : Except Refusal Order :=
  match form.read .empty body.toList with
  | .ok draft => .ok draft.order
  | .error fault =>
    .error (.failed (.badRequest ("invalid JSON body: " ++ fault.message body.toList)))

/-- The text of the step of the path that is the depth. -/
def decodeDepth (step : String) : Except Refusal String :=
  match Web.decoded? step with
  | some text => .ok text
  | none => .error (.notText "depth")

/-- Read the depth, a step of the path. -/
def readDepth (step : String) : Except Refusal Nat :=
  match Text.readNumeral Text.wordLimit (Text.trimmed step) with
  | .ok depth => .ok depth
  | .error _ =>
    .error (.failed (.badRequest ("expansion depth `" ++ step ++ "` is not a number")))

/-! ## Answers -/

/-- The cookie that holds the identifier of the last compilation. -/
def cookieName : String := "dflc_compilation"

def cookieText (id : Uuid) : String :=
  cookieName ++ "=" ++ id.text ++ "; HttpOnly; SameSite=Lax; Path=/"

/-- An image of a compilation; its typing goes with it if it is wanted and fits into a header. -/
def imageResponse (rendered : Rendered) (id : Uuid) (typing : Option String) : Response where
  status := 200
  contentType := some rendered.contentType
  typing := typing.filter isHeaderText
  id := some id
  cookie := some (cookieText id)
  body := .text rendered.body

/-- All that is known about a compilation, given the JSON form of its graph. -/
def compilationJson (id : Uuid) (compilation : Compilation) (graph : Json) : Json :=
  .record
    [("compilation_id", .string id.text),
      ("root", .string compilation.root),
      ("source_hash", .string compilation.fingerprint.source),
      ("ty", .string compilation.typing),
      ("signature", .ofOption Signature.json compilation.signature),
      ("graph", graph),
      ("dot", .string compilation.dot),
      ("warnings", .array (compilation.warnings.map Diagnostic.json))]

/-- Compile and render. -/
def image (service : Service) (visit : Visit) (step : String) : Handler Response := do
  let step ← decodeDepth step
  let typing := ((← queryField visit.toRequest "typing").map isYes).getD false
  let body ← takeBody visit.toRequest
  let depth ← readDepth step
  let order ← readOrder OrderDraft.imageForm body
  let compilation ← (service.compile { order with depth := depth, typing := typing }).mapError
    Refusal.failed
  let rendered ← (visit.renderer compilation.dot).mapError fun error =>
    Refusal.failed (.notRendered error)
  let id ← service.remember compilation
  return imageResponse rendered id (if typing then some compilation.typing else none)

/-- Compile and tell everything.  The graph is written only when the compilation has been kept. -/
def compileAll (service : Service) (request : Request) : Handler Response := do
  let order ← readOrder OrderDraft.compileForm (← takeBody request)
  let compilation ← (service.compile order).mapError Refusal.failed
  let id ← service.remember compilation
  let graph ← compilation.graph.datum.toJson.mapError fun reason =>
    Refusal.failed (.broken reason)
  return .ofJson 200 (compilationJson id compilation graph)

def typingJson (typing : String) : Json := .record [("ty", .string typing)]

/-- The identifier that a request names, in its query or else in its cookie. -/
def namedId (request : Request) : Except Refusal (Option Uuid) := do
  let named ← queryField request "id"
  match named.or (request.cookies.bind (Web.cookieValue? · cookieName)) with
  | none => return none
  | some raw =>
    match Uuid.read? (Text.trimmed raw) with
    | some id => return some id
    | none => .error (.failed (.badRequest ("`" ++ raw ++ "` is not a compilation id")))

/-- The typing of an earlier compilation; there is none yet for who names no identifier. -/
def typing (request : Request) : Handler Response := do
  match ← namedId request with
  | none => return .ofJson 200 (typingJson "")
  | some id =>
    match ← lookUp id with
    | some text => return .ofJson 200 (typingJson text)
    | none => throw (.failed (.notFound ("no compilation with id " ++ id.text)))

def health : Response :=
  .ofJson 200 (.record [("status", .string "ok"), ("version", .string version)])

/-! ## Routes -/

inductive Route where
  | image (step : String)
  | compile
  | typing
  | health
  deriving DecidableEq

/-- What a path leads to. -/
def Route.ofPath? : List String → Option Route
  | ["generate-image", step] => if step.isEmpty then none else some (.image step)
  | ["api", "compile"] => some .compile
  | ["get-typing"] => some .typing
  | ["health"] => some .health
  | _ => none

/-- Do what a request asks for on a route, if the route has the method. -/
def handle (service : Service) (visit : Visit) : Route → Method → Handler Response
  | .image step, .post => service.image visit step
  | .compile, .post => service.compileAll visit.toRequest
  | .typing, .get => typing visit.toRequest
  | .typing, .head => do return (← typing visit.toRequest).withoutBody
  | .health, .get => return health
  | .health, .head => return health.withoutBody
  | _, _ => return .bare 405

/-- Answer a request.  Any client may ask what is allowed, whatever the path. -/
def answer (service : Service) (state : ServiceState) (visit : Visit) :
    Response × ServiceState :=
  match visit.method, Route.ofPath? visit.target.path with
  | .options, _ => (.bare 200, state)
  | _, none => (.bare 404, state)
  | method, some route =>
    match (service.handle visit route method).after state with
    | (.ok response, state) => (response, state)
    | (.error refusal, state) =>
      let response := refusal.response
      (if method = .head then response.withoutBody else response, state)

/-- Answer requests one after the other. -/
def answers (service : Service) : ServiceState → List Visit → List Response
  | _, [] => []
  | state, visit :: rest =>
    let (response, state) := service.answer state visit
    response :: answers service state rest

end Service

end FlowDiagram

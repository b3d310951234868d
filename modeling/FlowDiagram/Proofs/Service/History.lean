import FlowDiagram.Proofs.Compilation.Typing
import FlowDiagram.Proofs.Service.Effects
import FlowDiagram.Proofs.Service.Identifiers

/-!
# Histories of requests

What a service answers is told by what it has been asked and has answered before.  A ledger notes
which identifiers have been handed out for which typings, and the order in which they have been
stored and read; a typing is answered while fewer others than there is room for have been used since
its own.
-/

namespace FlowDiagram

/-- What has been handed out in a history, and used. -/
structure Ledger where
  /-- How many identifiers have been handed out. -/
  issued : Nat
  /-- The typings that identifiers are bound to. -/
  bound : Uuid → Option String
  /-- The identifiers stored or read, the latest first. -/
  uses : List Uuid

namespace Ledger

def empty : Ledger := ⟨0, fun _ => none, []⟩

/-- The next identifier is handed out for a typing. -/
def bind (ledger : Ledger) (id : Uuid) (typing : String) : Ledger :=
  ⟨ledger.issued + 1, Function.update ledger.bound id (some typing), id :: ledger.uses⟩

theorem bound_bind_of_ne {id other : Uuid} (ne : other ≠ id) (ledger : Ledger) (typing : String) :
    (ledger.bind id typing).bound other = ledger.bound other := Function.update_of_ne ne ..

/-- An identifier is read. -/
def use (ledger : Ledger) (id : Uuid) : Ledger := { ledger with uses := id :: ledger.uses }

/-- The identifiers used since one was used last. -/
def usedSince (ledger : Ledger) (id : Uuid) : Finset Uuid :=
  (ledger.uses.takeWhile (· ≠ id)).toFinset

end Ledger

namespace Service

/-- The compilation that a request gets. -/
def compilation? (service : Service) (request : Request) : Option Compilation :=
  request.order?.bind fun order => (service.compile order).toOption

/-- Note what a request was answered; only a success counts. -/
def note (service : Service) (ledger : Ledger) (request : Request) (response : Response) : Ledger :=
  if response.status = 200 then
    match service.compilation? request, request.names? with
    | some compilation, _ => ledger.bind (service.ids ledger.issued) compilation.typing
    | none, some id => ledger.use id
    | none, none => ledger
  else ledger

/-- The state after a history, the earliest request first. -/
def after (service : Service) (history : List Visit) : ServiceState :=
  history.foldl (fun state visit => (service.answer state visit).2) service.start

/-- What there is to note of a history. -/
def ledger (service : Service) (history : List Visit) : Ledger :=
  (history.zip (service.answers service.start history)).foldl
    (fun ledger (visit, response) => service.note ledger visit.toRequest response) .empty

variable {service : Service}

/-! ## Answers over a history -/

@[simp] theorem length_answers (state : ServiceState) (history : List Visit) :
    (service.answers state history).length = history.length := by
  induction history generalizing state with
  | nil => rfl
  | cons visit rest ih => simp [answers, ih]

theorem answers_append (state : ServiceState) (before later : List Visit) :
    service.answers state (before ++ later) = service.answers state before ++
      service.answers (before.foldl (fun state visit => (service.answer state visit).2) state)
        later := by
  induction before generalizing state with
  | nil => rfl
  | cons visit rest ih => simp [answers, ih]

@[simp] theorem after_append_one (before : List Visit) (visit : Visit) :
    service.after (before ++ [visit]) = (service.answer (service.after before) visit).2 := by
  simp [after]

@[simp] theorem ledger_append_one (before : List Visit) (visit : Visit) :
    service.ledger (before ++ [visit]) = service.note (service.ledger before) visit.toRequest
      (service.answer (service.after before) visit).1 := by
  have last : service.answers service.start (before ++ [visit]) =
      service.answers service.start before ++ [(service.answer (service.after before) visit).1] :=
    answers_append _ _ _
  rw [ledger, last, List.zip_append (by simp), List.foldl_append]
  rfl

/-! ## What the ledger tells of the state -/

/-- A state that is as its ledger tells. -/
structure Follows (service : Service) (state : ServiceState) (ledger : Ledger) : Prop where
  issued : state.issued = ledger.issued
  capacity : state.store.capacity = max 1 service.settings.storeCapacity
  holds : state.store.Holds ledger.uses
  agrees : state.store.Agrees ledger.bound
  handedOut : ∀ id text, ledger.bound id = some text →
    id ∈ ledger.uses ∧ ∃ number < ledger.issued, service.ids number = id

theorem Follows.start : service.Follows service.start .empty where
  issued := rfl
  capacity := rfl
  holds := .empty _
  agrees := .empty _ _
  handedOut := nofun

variable {state : ServiceState} {ledger : Ledger} {request : Request}

theorem Follows.keep (follows : service.Follows state ledger) (typing : String) :
    service.Follows ⟨state.store.insert (service.ids state.issued) typing, state.issued + 1⟩
      (ledger.bind (service.ids ledger.issued) typing) := by
  have next : service.ids state.issued = service.ids ledger.issued := by rw [follows.issued]
  refine ⟨by simp [Ledger.bind, follows.issued], ?_, ?_, ?_, ?_⟩
  · exact (state.store.capacity_insert _ _).trans follows.capacity
  · exact next ▸ follows.holds.insert _ _
  · exact next ▸ follows.agrees.insert follows.holds.inStep _ _
  · intro id text bound
    by_cases new : id = service.ids ledger.issued
    · subst new
      exact ⟨List.mem_cons_self .., ledger.issued, Nat.lt_succ_self _, rfl⟩
    · rw [Ledger.bound_bind_of_ne new] at bound
      obtain ⟨used, number, below, numbered⟩ := follows.handedOut id text bound
      exact ⟨List.mem_cons_of_mem _ used, number, Nat.lt_succ_of_lt below, numbered⟩

theorem Follows.read (follows : service.Follows state ledger) {id : Uuid} {text : String}
    (there : state.store.value? id = some text) :
    service.Follows { state with store := (state.store.get id).2 } (ledger.use id) where
  issued := follows.issued
  capacity := (state.store.capacity_get id).trans follows.capacity
  holds := follows.holds.get there
  agrees := follows.agrees.get id
  handedOut other found bound :=
    (follows.handedOut other found bound).imp_left (List.mem_cons_of_mem _)

/-- And it is not there any more after that, or if it has never been bound. -/
theorem Follows.value?_eq_none (follows : service.Follows state ledger) {id : Uuid}
    (gone : ∀ text, ledger.bound id = some text →
      max 1 service.settings.storeCapacity ≤ (ledger.usedSince id).card) :
    state.store.value? id = none := by
  refine Option.eq_none_iff_forall_ne_some.mpr fun text there => ?_
  have recent := ((follows.holds.value?_isSome _).mp (Option.isSome_of_eq_some there)).2
  rw [follows.capacity] at recent
  exact absurd recent (Nat.not_lt.mpr (gone text (follows.agrees.value? there)))

/-! ## Notes -/

theorem compilation?_eq_some {order : Order} {compilation : Compilation}
    (asks : request.order? = some order) (compiles : service.compile order = .ok compilation) :
    service.compilation? request = some compilation := by
  simp [compilation?, asks, compiles, Except.toOption]

theorem compilation?_eq_none (orders : ¬ request.Orders) :
    service.compilation? request = none := by
  cases asks : request.order? with
  | none => simp [compilation?, asks]
  | some order => exact absurd (Request.orders_of_order? asks) orders

theorem note_of_failure {response : Response} (fails : response.status ≠ 200) :
    service.note ledger request response = ledger := if_neg fails

theorem note_of_read {response : Response} {id : Uuid} (names : request.names? = some id)
    (succeeds : response.status = 200) :
    service.note ledger request response = ledger.use id := by
  have orders : ¬ request.Orders := fun orders => by simp [orders.names?_eq_none] at names
  simp [note, succeeds, compilation?_eq_none orders, names]

theorem note_of_kept {response : Response} {order : Order} {compilation : Compilation}
    (asks : request.order? = some order) (compiles : service.compile order = .ok compilation)
    (succeeds : response.status = 200) :
    service.note ledger request response =
      ledger.bind (service.ids ledger.issued) compilation.typing := by
  simp [note, succeeds, compilation?_eq_some asks compiles]

/-- Each answer leaves a state as the ledger tells that notes it. -/
theorem Follows.answer (follows : service.Follows state ledger) (visit : Visit) :
    service.Follows (service.answer state visit).2
      (service.note ledger visit.toRequest (service.answer state visit).1) := by
  obtain ⟨effect, performs, runs⟩ := exists_effect service visit
  rw [runs]
  cases performs with
  | refused fails =>
    rw [Effect.run_nothing, note_of_failure fails]
    exact follows
  | answered succeeds reads orders =>
    simpa [note, succeeds, compilation?_eq_none orders, reads] using follows
  | kept asks compiles hands =>
    rw [Effect.run_keep, note_of_kept asks compiles (hands _).status]
    exact follows.keep _
  | @read id names =>
    cases there : state.store.value? id with
    | none =>
      rw [Effect.run_read_missing there, note_of_failure (by simp)]
      exact follows
    | some text =>
      rw [Effect.run_read_found there, note_of_read names (typingFound_status _ text)]
      exact follows.read there

theorem follows_after (service : Service) (history : List Visit) :
    service.Follows (service.after history) (service.ledger history) := by
  induction history using List.reverseRecOn with
  | nil => exact .start
  | append_singleton before visit ih =>
    rw [after_append_one, ledger_append_one]
    exact ih.answer visit

/-! ## What is bound stays bound -/

/-- The numbers of the identifiers handed out in a history. -/
def handedOut (service : Service) (history : List Visit) : Set Nat :=
  Set.Iio (service.ledger history).issued

/-- A service with room for one typing. -/
def narrow : Service where
  settings := { Settings.builtIn with storeCapacity := 1 }
  ids number := ⟨BitVec.ofNat 128 number⟩

/-- A request for an image with its typing, for a generator given in the form of the body. -/
def imageVisit (renderer : Renderer) (generator : String) : Visit where
  method := .post
  target := .ofText "/generate-image/0?typing=1"
  cookies := none
  body := "\x7b\"code\": \"def f = <a> [X | Y] use +a [X | Y] as A link X >-> A.X, A.Y >-> Y\", " ++
    "\"generators\": [\"" ++ generator ++ "\"]\x7d"
  renderer := renderer

/-- A request for the typing of the first identifier. -/
def firstTypingVisit : Visit where
  method := .get
  target := .ofText "/get-typing?id=00000000-0000-0000-0000-000000000000"
  cookies := none
  body := ""
  renderer := .dot

end Service

end FlowDiagram

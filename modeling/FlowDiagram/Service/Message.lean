import FlowDiagram.Json
import FlowDiagram.Uuid
import FlowDiagram.Web.Cookie

/-!
# Requests and responses

What a client sends to the service, and what it gets back.
-/

namespace FlowDiagram

inductive Method where
  | get
  | head
  | post
  | options
  | other
  deriving DecidableEq

def Method.ofName : String → Method
  | "GET" => .get
  | "HEAD" => .head
  | "POST" => .post
  | "OPTIONS" => .options
  | _ => .other

structure Request where
  method : Method
  target : Web.Target
  /-- The header that lists the cookies. -/
  cookies : Option String
  body : String

inductive Body where
  | empty
  | text (content : String)
  | json (content : Json)

structure Response where
  status : Nat
  contentType : Option String
  /-- The header with the typing of what was compiled. -/
  typing : Option String
  /-- The header with the identifier of what was compiled. -/
  id : Option Uuid
  /-- The header that sets the cookie with the identifier. -/
  cookie : Option String
  body : Body

namespace Response

/-- A response without a body. -/
def bare (status : Nat) : Response := ⟨status, none, none, none, none, .empty⟩

def ofText (status : Nat) (content : String) : Response :=
  { bare status with contentType := some "text/plain; charset=utf-8", body := .text content }

def ofJson (status : Nat) (content : Json) : Response :=
  { bare status with contentType := some "application/json", body := .json content }

/-- The same response without its body. -/
def withoutBody (response : Response) : Response := { response with body := .empty }

end Response

/-- Whether a text may be the value of a header: it has none of the characters U+0000 to U+001F,
tabs (U+0009) apart, and no U+007F. -/
def isHeaderText (text : String) : Bool :=
  text.toList.all fun c => c = '\t' || (32 ≤ c.toNat && c.toNat ≠ 127)

end FlowDiagram

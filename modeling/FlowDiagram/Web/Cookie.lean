import FlowDiagram.Text.Blank
import FlowDiagram.Web.Target

/-!
# Cookies

A request may carry a header that lists named values.  Entries that cannot be read are left out, and
of several with one name the last counts.
-/

namespace FlowDiagram.Web

/-- A header text of printable ASCII characters and tabs. -/
def isPlainHeader (text : String) : Bool :=
  text.toList.all fun c => c = '\t' || (32 ≤ c.toNat && c.toNat < 127)

/-- Read one entry of the header. -/
def cookie? (entry : List Char) : Option (String × String) :=
  if '=' ∈ entry then
    let (name, value) := cut '=' entry
    let name := Text.trimmed (String.ofList name)
    if name.isEmpty then none
    else
      match decoded? name, decoded? (Text.trimmed (String.ofList value)) with
      | some name, some value => some (name, value)
      | _, _ => none
  else none

/-- The cookies of a header. -/
def cookies (header : String) : List (String × String) :=
  if isPlainHeader header then (split ';' header.toList).filterMap cookie? else []

/-- The value of a cookie. -/
def cookieValue? (header : String) (name : String) : Option String :=
  ((cookies header).reverse.find? (·.1 = name)).map (·.2)

end FlowDiagram.Web

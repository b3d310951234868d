import FlowDiagram.Web.Percent

/-!
# Request targets

A target is a path and, after a question mark, a query of named fields.  What follows a number sign
belongs to neither.  An absolute target names a scheme and an authority before its path.
-/

namespace FlowDiagram.Web

/-- The pieces of a text between the separators, at least one. -/
def split (separator : Char) (text : List Char) : List (List Char) :=
  text.foldr (fun c pieces =>
    if c = separator then [] :: pieces
    else match pieces with
      | [] => [[c]]
      | piece :: rest => (c :: piece) :: rest) [[]]

/-- A text cut at the first separator, which belongs to neither part. -/
def cut (separator : Char) (text : List Char) : List Char × List Char :=
  (text.takeWhile (· ≠ separator), (text.dropWhile (· ≠ separator)).drop 1)

structure Target where
  /-- The steps of the path, as they are written. -/
  path : List String
  /-- The fields of the query with their values, decoded. -/
  query : List (String × String)

/-- The fields of a query; one without an equals sign has an empty value. -/
def fields (query : List Char) : List (String × String) :=
  ((split '&' query).filter (!·.isEmpty)).map fun field =>
    let (name, value) := cut '=' field
    (decodedField (String.ofList name), decodedField (String.ofList value))

/-- Whether a character may stand in a scheme. -/
def isSchemeChar (c : Char) : Bool := c.isAlphanum || c = '+' || c = '-' || c = '.'

/-- Whether an authority ends before a character. -/
def endsAuthority (c : Char) : Bool := c = '/' || c = '?' || c = '#'

/-- A target without scheme and authority; behind them its path may be left out. -/
def localPart (text : List Char) : List Char :=
  match text.dropWhile isSchemeChar with
  | ':' :: '/' :: '/' :: rest =>
    let path := rest.dropWhile (!endsAuthority ·)
    if path.head? = some '/' then path else '/' :: path
  | _ => text

/-- Read a target. -/
def Target.ofText (text : String) : Target :=
  let (path, query) := cut '?' ((localPart text.toList).takeWhile (· ≠ '#'))
  ⟨((split '/' path).drop 1).map String.ofList, fields query⟩

/-- A field that a query may hold at most once. -/
inductive Single where
  | absent
  | given (value : String)
  | repeated

/-- What a target says about a field. -/
def Target.single (target : Target) (name : String) : Single :=
  match target.query.filter (·.1 = name) with
  | [] => .absent
  | [(_, value)] => .given value
  | _ => .repeated

end FlowDiagram.Web

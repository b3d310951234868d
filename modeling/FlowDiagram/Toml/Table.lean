/-!
# Tables of TOML documents

A table binds keys to values, among them further tables.  How a table was written decides what may
still be added to it: a table is written once, but the tables in it may be written before it or
after it, and several bindings with dotted keys may share a table.
-/

namespace FlowDiagram.Toml

/-- How a table was written. -/
inductive Origin where
  /-- In braces, all at once. -/
  | braces
  /-- Under a header of its own. -/
  | header
  /-- As part of the path in the header of another table. -/
  | onPath
  /-- By the dotted key of a binding. -/
  | dotted
  deriving DecidableEq

inductive Value where
  | text (value : String)
  | integer (value : Int)
  | array (items : List Value)
  | table (origin : Origin) (bindings : List (String × Value))

/-- Keys with their values, in the order in which they were first written. -/
abbrev Table := List (String × Value)

namespace Value

def text? : Value → Option String
  | .text value => some value
  | _ => none

def natural? : Value → Option Nat
  | .integer value => if 0 ≤ value then some value.toNat else none
  | _ => none

/-- Whether a value is an array or a table with nothing in it. -/
def isHollow : Value → Bool
  | .array [] => true
  | .table _ [] => true
  | _ => false

/-- The name of a choice: a text, or the only key of a table, bound to nothing. -/
def choice? : Value → Option String
  | .text name => some name
  | .table _ [(name, content)] => if content.isHollow then some name else none
  | _ => none

end Value

namespace Table

/-- Replace the value of a key, which may be missing. -/
def alter? (key : String) (change : Option Value → Option Value) : Table → Option Table
  | [] => (change none).map fun value => [(key, value)]
  | (other, value) :: rest =>
    if other = key then (change (some value)).map fun value => (key, value) :: rest
    else (alter? key change rest).map ((other, value) :: ·)

/-- Bind the last key of a path; the keys before it lead to tables written by dotted keys alone. -/
def bind? (value : Value) : List String → Table → Option Table
  | [], _ => none
  | [key], table =>
    table.alter? key fun
      | none => some value
      | some _ => none
  | key :: path, table =>
    table.alter? key fun
      | none => (bind? value path []).map (.table .dotted)
      | some (.table .dotted inner) => (bind? value path inner).map (.table .dotted)
      | some _ => none

/-- Write the header of a table, which may have been on the path to another one so far. -/
def head? : List String → Table → Option Table
  | [], _ => none
  | [key], table =>
    table.alter? key fun
      | none => some (.table .header [])
      | some (.table .onPath inner) => some (.table .header inner)
      | some _ => none
  | key :: path, table =>
    table.alter? key fun
      | none => (head? path []).map (.table .onPath)
      | some (.table .braces _) => none
      | some (.table origin inner) => (head? path inner).map (.table origin)
      | some _ => none

/-- Change the table at a path. -/
def within? (change : Table → Option Table) : List String → Table → Option Table
  | [], table => change table
  | key :: path, table =>
    table.alter? key fun
      | some (.table origin inner) => (within? change path inner).map (.table origin)
      | _ => none

end Table

end FlowDiagram.Toml

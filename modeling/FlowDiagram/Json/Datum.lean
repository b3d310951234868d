import FlowDiagram.Json

/-!
# Data

What a value says of itself to whoever writes it down.  The keys of a table may be any data, while
the fields of a JSON object have names; so data with a key in them that has no name cannot be
written in JSON.
-/

namespace FlowDiagram

inductive Datum where
  | number (value : Int)
  | text (content : String)
  | list (items : List Datum)
  | table (rows : List (Datum × Datum))

namespace Datum

def ofNat (number : Nat) : Datum := .number number

def texts (contents : List String) : Datum := .list (contents.map .text)

/-- A table with a text for each key. -/
def record (fields : List (String × Datum)) : Datum :=
  .table (fields.map fun (name, value) => (.text name, value))

/-- A single field, which says of which kind a value is. -/
def tagged (tag : String) (value : Datum) : Datum := .record [(tag, value)]

/-! ## JSON forms -/

/-- The name of the field that stands for a key. -/
def fieldName : Datum → Except String String
  | .text content => .ok content
  | .number value => .ok (toString value)
  | _ => .error "key must be a string"

mutual

/-- The JSON form of data, or why there is none. -/
def toJson : Datum → Except String Json
  | .number value => .ok (.number value)
  | .text content => .ok (.string content)
  | .list items => do return .array (← itemsJson items)
  | .table rows => do return .record (← fieldsJson rows)

def itemsJson : List Datum → Except String (List Json)
  | [] => .ok []
  | item :: rest => do
    let form ← item.toJson
    return form :: (← itemsJson rest)

/-- Of fields with the same name the last one counts. -/
def fieldsJson : List (Datum × Datum) → Except String (List (String × Json))
  | [] => .ok []
  | (key, value) :: rest => do
    let name ← key.fieldName
    let form ← value.toJson
    let later ← fieldsJson rest
    return if later.any (·.1 == name) then later else (name, form) :: later

end

/-- There is a JSON form. -/
def Writable (datum : Datum) : Prop := ∃ form, datum.toJson = .ok form

variable {items : List Datum} {fields : List (String × Datum)}

@[simp] theorem writable_number (value : Int) : (number value).Writable := ⟨_, rfl⟩

@[simp] theorem writable_ofNat (value : Nat) : (ofNat value).Writable := writable_number _

@[simp] theorem writable_text (content : String) : (text content).Writable := ⟨_, rfl⟩

theorem writable_list (each : ∀ item ∈ items, item.Writable) : (list items).Writable := by
  have forms : ∃ forms, itemsJson items = .ok forms := by
    induction items with
    | nil => exact ⟨_, rfl⟩
    | cons item rest ih =>
      obtain ⟨form, first⟩ := each item List.mem_cons_self
      obtain ⟨forms, later⟩ := ih fun other member => each other (List.mem_cons_of_mem _ member)
      exact ⟨_, by rw [itemsJson, first, later]; rfl⟩
  obtain ⟨forms, written⟩ := forms
  exact ⟨_, by rw [toJson, written]; rfl⟩

theorem writable_list_map {α : Type} {tell : α → Datum} (each : ∀ value, (tell value).Writable)
    (values : List α) : (list (values.map tell)).Writable := by
  refine writable_list fun item member => ?_
  obtain ⟨value, -, rfl⟩ := List.mem_map.mp member
  exact each value

theorem writable_list_mapIdx {α : Type} {tell : Nat → α → Datum}
    (each : ∀ number value, (tell number value).Writable) (values : Array α) :
    (list (values.mapIdx tell).toList).Writable := by
  refine writable_list fun item member => ?_
  obtain ⟨number, inside, rfl⟩ := Array.mem_mapIdx.mp (Array.mem_toList_iff.mp member)
  exact each number _

@[simp] theorem writable_texts (contents : List String) : (texts contents).Writable :=
  writable_list_map writable_text contents

/-- The fields of a record have names, so it can be written if what they hold can be. -/
theorem writable_record (each : ∀ field ∈ fields, field.2.Writable) :
    (record fields).Writable := by
  have forms : ∃ forms,
      fieldsJson (fields.map fun (name, value) => (.text name, value)) = .ok forms := by
    induction fields with
    | nil => exact ⟨_, rfl⟩
    | cons field rest ih =>
      obtain ⟨form, first⟩ := each field List.mem_cons_self
      obtain ⟨forms, later⟩ := ih fun other member => each other (List.mem_cons_of_mem _ member)
      exact ⟨_, by rw [List.map_cons, fieldsJson, first, later]; rfl⟩
  obtain ⟨forms, written⟩ := forms
  exact ⟨_, by rw [record, toJson, written]; rfl⟩

theorem writable_tagged {value : Datum} (tag : String) (writable : value.Writable) :
    (tagged tag value).Writable :=
  writable_record (by simpa using writable)

/-- The JSON form of data that have one. -/
def json (datum : Datum) (writable : datum.Writable) : Json :=
  match written : datum.toJson with
  | .ok form => form
  | .error _ => absurd writable (by simp [Writable, written])

theorem toJson_eq {datum : Datum} (writable : datum.Writable) :
    datum.toJson = .ok (datum.json writable) := by
  unfold json
  split
  · assumption
  · next refused =>
    obtain ⟨form, written⟩ := writable
    rw [refused] at written
    cases written

end Datum

end FlowDiagram

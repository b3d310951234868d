/-!
# A store of recent values

The store keeps the values of the keys used last, up to its capacity.  To store a value and to read
one are both uses of its key; a value stored beyond the capacity costs the key used longest ago its
place.  The values are kept by their keys, and a queue of the keys tells when they were used.
-/

namespace FlowDiagram

structure RecentStore (κ ω : Type) where
  /-- How many values may be kept. -/
  capacity : Nat
  /-- The values with their keys, in an order that tells nothing. -/
  entries : List (κ × ω)
  /-- The keys, the one used longest ago first. -/
  order : List κ

namespace RecentStore

variable {κ ω : Type} [DecidableEq κ]

/-- Nothing stored yet; a store always has room for one value. -/
def empty (capacity : Nat) : RecentStore κ ω := ⟨max 1 capacity, [], []⟩

def size (store : RecentStore κ ω) : Nat := store.entries.length

def isEmpty (store : RecentStore κ ω) : Bool := store.entries.isEmpty

/-- The value stored under a key. -/
def value? (store : RecentStore κ ω) (key : κ) : Option ω :=
  (store.entries.find? (·.1 = key)).map (·.2)

/-- The entries of all keys but one. -/
def without (key : κ) (entries : List (κ × ω)) : List (κ × ω) :=
  entries.filter (·.1 ≠ key)

/-- Make a key the one used last. -/
def touch (store : RecentStore κ ω) (key : κ) : RecentStore κ ω :=
  { store with order := store.order.erase key ++ [key] }

/-- Drop the keys used longest ago, each with its value, while there are more than allowed. -/
def evict (capacity : Nat) : List κ → List (κ × ω) → List κ × List (κ × ω)
  | [], entries => ([], entries)
  | oldest :: later, entries =>
    if capacity < later.length + 1 then evict capacity later (without oldest entries)
    else (oldest :: later, entries)

/-- Store a value; only that of a key which has none yet takes up room. -/
def insert (store : RecentStore κ ω) (key : κ) (value : ω) : RecentStore κ ω :=
  let entries := (key, value) :: without key store.entries
  if (store.value? key).isSome then { store with entries := entries }.touch key
  else
    let (order, entries) := evict store.capacity (store.order ++ [key]) entries
    { store with entries := entries, order := order }

/-- Read the value of a key. -/
def get (store : RecentStore κ ω) (key : κ) : Option ω × RecentStore κ ω :=
  match store.value? key with
  | some value => (some value, store.touch key)
  | none => (none, store)

end RecentStore

end FlowDiagram

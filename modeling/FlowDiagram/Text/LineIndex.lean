import FlowDiagram.Text.Span

/-!
# Lines of a source

The offsets at which the lines of a source start are listed once.  The line of an offset is then
found by a binary search in the list, and its column by counting the characters from the start of
the line.  A lookup beyond the end of a list would leave an offset without a position; it never
happens, so every offset has one.
-/

namespace FlowDiagram

namespace Text

/-- The bytes of a text in UTF-8. -/
def bytes (text : List Char) : List UInt8 :=
  text.flatMap String.utf8EncodeChar

/-- The text before an offset and from there on, unless a character or nothing stands there. -/
def splitAt? : List Char → Nat → Option (List Char × List Char)
  | text, 0 => some ([], text)
  | [], _ + 1 => none
  | c :: rest, offset + 1 =>
    if offset + 1 < c.utf8Size then none
    else (splitAt? rest (offset + 1 - c.utf8Size)).map fun (before, behind) => (c :: before, behind)

/-- The text from one offset up to another, if both are between characters. -/
def slice? (text : List Char) (start stop : Nat) : Option (List Char) :=
  if stop < start then none
  else do
    let (_, behind) ← splitAt? text start
    let (piece, _) ← splitAt? behind (stop - start)
    return piece

end Text

/-! ## Searching -/

/-- Where a search ends: at the number that was wanted, or where it would have to be put. -/
inductive SearchResult where
  | found (place : Nat)
  | missing (place : Nat)
  deriving DecidableEq

/--
Look for a number among those at the places from `low` up to `high`, each greater than the one
before.
-/
def search? (values : Array Nat) (wanted low high : Nat) : Option SearchResult :=
  if low < high then
    let middle := low + (high - low) / 2
    match values[middle]? with
    | none => none
    | some value =>
      if value = wanted then some (.found middle)
      else if value < wanted then search? values wanted (middle + 1) high
      else search? values wanted low middle
  else some (.missing low)
termination_by high - low

/-- The number wanted is at the place found, or it is between the numbers next to the place. -/
def SearchResult.Marks (values : Array Nat) (wanted : Nat) : SearchResult → Prop
  | .found place => values[place]? = some wanted
  | .missing place =>
    place ≤ values.size ∧
      (∀ before value, place = before + 1 → values[before]? = some value → value < wanted) ∧
      ∀ value, values[place]? = some value → wanted < value

/-- A search within range ends at a place that it marks rightly. -/
theorem search?_marks {values : Array Nat} {wanted low high : Nat} (ordered : low ≤ high)
    (inside : high ≤ values.size)
    (below : ∀ before value, low = before + 1 → values[before]? = some value → value < wanted)
    (above : ∀ value, values[high]? = some value → wanted < value) :
    ∃ result, search? values wanted low high = some result ∧ result.Marks values wanted := by
  fun_induction search? values wanted low high with
  | case1 low high less middle outside =>
    have := Array.getElem?_eq_none_iff.mp outside
    omega
  | case2 low high less middle there => exact ⟨_, rfl, there⟩
  | case3 low high less middle value there different smaller ih =>
    refine ih (by omega) inside (fun before other next found => ?_) above
    obtain rfl : before = middle := (Nat.succ.inj next).symm
    exact Option.some.inj (there.symm.trans found) ▸ smaller
  | case4 low high less middle value there different notSmaller ih =>
    refine ih (by omega) (by omega) below fun other found => ?_
    have greater : wanted < value :=
      Nat.lt_of_le_of_ne (Nat.not_lt.mp notSmaller) (Ne.symm different)
    exact Option.some.inj (there.symm.trans found) ▸ greater
  | case5 low high done =>
    obtain rfl : low = high := by omega
    exact ⟨_, rfl, inside, below, above⟩

/-- Every search through all values ends. -/
theorem exists_marks (values : Array Nat) (wanted : Nat) :
    ∃ result, search? values wanted 0 values.size = some result ∧ result.Marks values wanted :=
  search?_marks (Nat.zero_le _) (Nat.le_refl _) nofun fun value past => by simp at past

/-! ## Line starts -/

/-- Where the lines of a source start. -/
structure LineIndex where
  source : List Char
  starts : Array Nat

namespace LineIndex

/-- The byte that ends a line. -/
def newline : UInt8 := 10

/-- The offsets behind the newlines among the bytes from `offset` on. -/
def startsBehind (offset : Nat) : List UInt8 → List Nat
  | [] => []
  | byte :: rest =>
    if byte = newline then (offset + 1) :: startsBehind (offset + 1) rest
    else startsBehind (offset + 1) rest

/-- The first line starts with the source, and every other one behind a newline. -/
def ofSource (source : List Char) : LineIndex :=
  ⟨source, (0 :: startsBehind 0 (Text.bytes source)).toArray⟩

/-- The line that an offset is on, counted from zero. -/
def line? (index : LineIndex) (offset : Nat) : Option Nat :=
  match search? index.starts offset 0 index.starts.size with
  | some (.found line) => some line
  | some (.missing (line + 1)) => some line
  | some (.missing 0) | none => none

/-- How many characters stand from `start` up to `stop`; inside a character, bytes are counted. -/
def column (index : LineIndex) (start stop : Nat) : Nat :=
  match Text.slice? index.source start stop with
  | some text => text.length
  | none => stop - start

/-- The position of an offset; one past the end is taken for the end. -/
def position? (index : LineIndex) (offset : Nat) : Option Position := do
  let stop := min offset (byteLength index.source)
  let line ← index.line? stop
  let start ← index.starts[line]?
  if stop < start then none else return ⟨line + 1, index.column start stop + 1⟩

theorem position?_eq {index : LineIndex} {offset stop line start : Nat}
    (stops : min offset (byteLength index.source) = stop) (found : index.line? stop = some line)
    (starts : index.starts[line]? = some start) (le : start ≤ stop) :
    index.position? offset = some ⟨line + 1, index.column start stop + 1⟩ := by
  simp [position?, stops, found, starts, Nat.not_lt.mpr le]

/-- The line found starts at or before the offset. -/
theorem exists_line (source : List Char) (offset : Nat) :
    ∃ line start, (ofSource source).line? offset = some line ∧
      (ofSource source).starts[line]? = some start ∧ start ≤ offset := by
  obtain ⟨result, searched, marks⟩ :=
    exists_marks (ofSource source).starts offset
  unfold line?
  rw [searched]
  cases result with
  | found line => exact ⟨line, offset, rfl, marks, Nat.le_refl offset⟩
  | missing place =>
    obtain ⟨inside, below, above⟩ := marks
    cases place with
    | zero => exact absurd (above 0 rfl) (Nat.not_lt_zero offset)
    | succ line =>
      have there := Array.getElem?_eq_getElem inside
      exact ⟨line, _, rfl, there, Nat.le_of_lt (below line _ rfl there)⟩

theorem isSome_position? (source : List Char) (offset : Nat) :
    ((ofSource source).position? offset).isSome = true := by
  obtain ⟨line, start, found, starts, le⟩ := exists_line source (min offset (byteLength source))
  rw [position?_eq rfl found starts le]
  rfl

end LineIndex

/-- The position of a byte offset; an offset past the end is taken for the end. -/
def Position.ofOffset (text : List Char) (offset : Nat) : Position :=
  ((LineIndex.ofSource text).position? offset).get (LineIndex.isSome_position? text offset)

end FlowDiagram

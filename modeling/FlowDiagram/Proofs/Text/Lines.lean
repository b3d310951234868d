import FlowDiagram.Text.LineIndex
import Mathlib.Data.List.DropRight
import Mathlib.Data.List.Count
import Mathlib.Data.List.Pairwise

/-!
# Positions are exact

Every offset of a source has a position.  Its line counts the newlines before the offset, and its
column, where the offset is between characters, the characters behind the last of them.  So
positions are in the order of the offsets.
-/

namespace FlowDiagram

/-! ## Bytes -/

namespace Text

/-- An offset is between characters of a text, or at one of its ends. -/
def IsBoundary (text : List Char) (offset : Nat) : Prop :=
  ∃ before behind, text = before ++ behind ∧ byteLength before = offset

/-- What stands behind the last newline of a text. -/
def lastLine (text : List Char) : List Char :=
  text.rtakeWhile (· ≠ '\n')

@[simp]
theorem bytes_append (first second : List Char) :
    bytes (first ++ second) = bytes first ++ bytes second :=
  List.flatMap_append

@[simp]
theorem length_bytes (text : List Char) : (bytes text).length = byteLength text := by
  induction text with
  | nil => rfl
  | cons c rest ih =>
      change (String.utf8EncodeChar c ++ bytes rest).length = c.utf8Size + byteLength rest
      rw [List.length_append, String.length_utf8EncodeChar, ih]

theorem newline_eq_ofNat_iff (value : Nat) :
    LineIndex.newline = UInt8.ofNat value ↔ value % 256 = 10 := by
  rw [eq_comm, ← UInt8.toNat_inj, UInt8.toNat_ofNat']
  rfl

theorem take_bytes (before behind : List Char) :
    (bytes (before ++ behind)).take (byteLength before) = bytes before := by
  rw [bytes_append, ← length_bytes, List.take_left]

/-- Among the bytes of a character, that of a newline occurs for the newline itself alone. -/
theorem count_newline_utf8EncodeChar (c : Char) :
    (String.utf8EncodeChar c).count LineIndex.newline = if c = '\n' then 1 else 0 := by
  have same_iff : c = '\n' ↔ c.val.toNat = 10 := by
    rw [Char.ext_iff, ← UInt32.toNat_inj]
    rfl
  rw [String.utf8EncodeChar.eq_1]
  split
  · rename_i small
    simp only [List.count_singleton, beq_iff_eq, eq_comm (b := LineIndex.newline),
      newline_eq_ofNat_iff, same_iff, Nat.mod_eq_of_lt (by omega : c.val.toNat < 256)]
  · -- the bytes of all other characters are above those of one
    have other : ¬ c = '\n' := by
      rw [same_iff]
      omega
    rw [if_neg other, List.count_eq_zero]
    split
    · simp only [List.mem_cons, List.not_mem_nil, or_false, newline_eq_ofNat_iff]
      omega
    · split <;>
      · simp only [List.mem_cons, List.not_mem_nil, or_false, newline_eq_ofNat_iff]
        omega

theorem count_newline_bytes (text : List Char) :
    (bytes text).count LineIndex.newline = text.count '\n' := by
  induction text with
  | nil => rfl
  | cons c rest ih =>
      change (String.utf8EncodeChar c ++ bytes rest).count LineIndex.newline = _
      rw [List.count_append, count_newline_utf8EncodeChar, ih, List.count_cons, Nat.add_comm]
      simp

/-- What stands between two boundaries of a text. -/
theorem exists_between {text : List Char} {first second : Nat} (boundary : IsBoundary text first)
    (further : IsBoundary text second) (less : first < second) :
    ∃ between before behind, text = before ++ (between ++ behind) ∧ byteLength before = first ∧
      byteLength (before ++ between) = second ∧ between ≠ [] := by
  obtain ⟨before, rest, rfl, rfl⟩ := boundary
  obtain ⟨whole, behind, same, rfl⟩ := further
  rcases List.append_eq_append_iff.mp same with ⟨between, rfl, rfl⟩ | ⟨between, rfl, rfl⟩
  · refine ⟨between, before, behind, rfl, rfl, rfl, ?_⟩
    rintro rfl
    simp at less
  · rw [byteLength_append] at less
    omega

/-! ## Slices -/

theorem splitAt?_append (before behind : List Char) :
    splitAt? (before ++ behind) (byteLength before) = some (before, behind) := by
  induction before with
  | nil => simp [splitAt?]
  | cons c rest ih =>
      obtain ⟨less, size⟩ := Nat.exists_eq_succ_of_ne_zero (Nat.ne_of_gt c.utf8Size_pos)
      have offset : byteLength (c :: rest) = less + byteLength rest + 1 := by
        rw [byteLength_cons, size]
        omega
      have left : less + byteLength rest + 1 - c.utf8Size = byteLength rest := by omega
      rw [List.cons_append, offset, splitAt?, if_neg (by omega), left, ih, Option.map_some]

theorem slice?_append (before piece behind : List Char) :
    slice? (before ++ (piece ++ behind)) (byteLength before) (byteLength (before ++ piece)) =
      some piece := by
  have length : byteLength (before ++ piece) - byteLength before = byteLength piece := by simp
  rw [slice?, if_neg (by simp), splitAt?_append, length]
  simp [splitAt?_append]

end Text

/-! ## Line starts -/

namespace LineIndex

theorem startsBehind_append (offset : Nat) (first second : List UInt8) :
    startsBehind offset (first ++ second) =
      startsBehind offset first ++ startsBehind (offset + first.length) second := by
  induction first generalizing offset with
  | nil => rfl
  | cons byte rest ih =>
      have length : offset + (byte :: rest).length = offset + 1 + rest.length := by
        rw [List.length_cons]
        omega
      simp only [List.cons_append, startsBehind, ih, length]
      split <;> rfl

theorem length_startsBehind (offset : Nat) (bytes : List UInt8) :
    (startsBehind offset bytes).length = bytes.count newline := by
  induction bytes generalizing offset with
  | nil => rfl
  | cons byte rest ih =>
      rw [startsBehind, List.count_cons]
      split <;> simp [*]

theorem mem_startsBehind {offset start : Nat} {bytes : List UInt8}
    (member : start ∈ startsBehind offset bytes) :
    offset < start ∧ start ≤ offset + bytes.length := by
  induction bytes generalizing offset with
  | nil => cases member
  | cons byte rest ih =>
      have later (member : start ∈ startsBehind (offset + 1) rest) :
          offset < start ∧ start ≤ offset + (byte :: rest).length := by
        obtain ⟨above, within⟩ := ih member
        rw [List.length_cons]
        omega
      rw [startsBehind] at member
      split at member
      · rcases List.mem_cons.mp member with rfl | member
        · rw [List.length_cons]
          omega
        · exact later member
      · exact later member

theorem startsBehind_increasing (offset : Nat) (bytes : List UInt8) :
    (startsBehind offset bytes).Pairwise (· < ·) := by
  induction bytes generalizing offset with
  | nil => exact .nil
  | cons byte rest ih =>
      rw [startsBehind]
      split
      · exact List.pairwise_cons.mpr ⟨fun _ member => (mem_startsBehind member).1, ih _⟩
      · exact ih _

/-- The starts of the lines up to an offset come first, and their number is that of the lines. -/
structure UpTo (index : LineIndex) (offset : Nat) (first later : List Nat) : Prop where
  starts : index.starts.toList = first ++ later
  nonempty : first ≠ []
  increasing : first.Pairwise (· < ·)
  before : ∀ start ∈ first, start ≤ offset
  behind : ∀ start ∈ later, offset < start

variable {index : LineIndex} {offset : Nat} {first later : List Nat}

theorem UpTo.lt_length_iff (upTo : index.UpTo offset first later) {place start : Nat}
    (there : index.starts[place]? = some start) : place < first.length ↔ start ≤ offset := by
  rw [← Array.getElem?_toList, upTo.starts, List.getElem?_append] at there
  split at there
  · exact iff_of_true ‹_› (upTo.before start (List.mem_of_getElem? there))
  · exact iff_of_false ‹_› (Nat.not_le.mpr (upTo.behind start (List.mem_of_getElem? there)))

theorem UpTo.starts_getElem? (upTo : index.UpTo offset first later) {place : Nat}
    (inside : place < first.length) : index.starts[place]? = some first[place] := by
  rw [← Array.getElem?_toList, upTo.starts, List.getElem?_append_left inside,
    List.getElem?_eq_getElem inside]

/-- The search finds the last of the starts up to an offset. -/
theorem UpTo.line?_eq (upTo : index.UpTo offset first later) :
    index.line? offset = some (first.length - 1) := by
  have some_start : 0 < first.length := List.length_pos_of_ne_nil upTo.nonempty
  obtain ⟨result, searched, marks⟩ :=
    exists_marks index.starts offset
  unfold line?
  rw [searched]
  cases result with
  | found line =>
      have inside := (upTo.lt_length_iff marks).mpr (Nat.le_refl offset)
      -- a start behind this one would be up to the offset and above it
      have last : ¬ line + 1 < first.length := by
        intro next
        have here : first[line] = offset :=
          Option.some.inj ((upTo.starts_getElem? inside).symm.trans marks)
        have above := List.pairwise_iff_getElem.mp upTo.increasing line (line + 1) inside next
          (Nat.lt_succ_self line)
        have bounded := upTo.before _ (List.getElem_mem next)
        omega
      exact congrArg some (by omega)
  | missing place =>
      obtain ⟨inside, below, above⟩ := marks
      have notInside : ¬ place < first.length := by
        intro next
        have bounded := upTo.before _ (List.getElem_mem next)
        have beyond := above _ (upTo.starts_getElem? next)
        omega
      cases place with
      | zero => exact absurd some_start notInside
      | succ line =>
          have there := Array.getElem?_eq_getElem inside
          have before := below line _ rfl there
          have lineInside := (upTo.lt_length_iff there).mpr (Nat.le_of_lt before)
          exact congrArg some (by omega)

/-- The position of an offset is on the last line that starts before it or there. -/
theorem UpTo.position?_eq (upTo : index.UpTo (min offset (byteLength index.source)) first later) :
    index.position? offset = some ⟨first.length,
      index.column (first.getLast upTo.nonempty) (min offset (byteLength index.source)) + 1⟩ := by
  have some_start : 0 < first.length := List.length_pos_of_ne_nil upTo.nonempty
  have last : first.length - 1 < first.length := Nat.sub_lt some_start Nat.one_pos
  have there : index.starts[first.length - 1]? = some (first.getLast upTo.nonempty) := by
    rw [upTo.starts_getElem? last, List.getLast_eq_getElem]
  have le := upTo.before _ (List.getLast_mem upTo.nonempty)
  rw [LineIndex.position?_eq rfl upTo.line?_eq there le, Nat.sub_add_cancel some_start]

/-- The lines up to an offset start with the source and behind the newlines before the offset. -/
theorem ofSource_upTo (source : List Char) {offset : Nat} (within : offset ≤ byteLength source) :
    (ofSource source).UpTo offset (0 :: startsBehind 0 ((Text.bytes source).take offset))
      (startsBehind offset ((Text.bytes source).drop offset)) where
  starts := by
    have length : ((Text.bytes source).take offset).length = offset := by simp [within]
    conv => lhs; rw [ofSource, ← List.take_append_drop offset (Text.bytes source)]
    rw [startsBehind_append, length, Nat.zero_add]
    rfl
  nonempty := List.cons_ne_nil _ _
  increasing := List.pairwise_cons.mpr
    ⟨fun _ member => (mem_startsBehind member).1, startsBehind_increasing _ _⟩
  before start member := by
    rcases List.mem_cons.mp member with rfl | member
    · exact Nat.zero_le offset
    · have bound := (mem_startsBehind member).2
      rw [List.length_take] at bound
      omega
  behind _ member := (mem_startsBehind member).1

/-- The last line of a text starts where the characters behind its last newline do. -/
theorem getLast_startsBehind (text : List Char) :
    (0 :: startsBehind 0 (Text.bytes text)).getLast (List.cons_ne_nil _ _) =
      byteLength (text.rdropWhile (· ≠ '\n')) := by
  induction text using List.reverseRecOn with
  | nil => rfl
  | append_singleton before c ih =>
      have split : startsBehind 0 (Text.bytes (before ++ [c])) =
          startsBehind 0 (Text.bytes before) ++
            startsBehind (byteLength before) (Text.bytes [c]) := by
        rw [Text.bytes_append, startsBehind_append, Text.length_bytes, Nat.zero_add]
      by_cases ends : c = '\n'
      · subst ends
        have new : startsBehind (byteLength before) (Text.bytes ['\n']) =
            [byteLength before + 1] := rfl
        rw [List.rdropWhile_concat_neg _ _ _ (by simp), byteLength_append]
        simp only [split, new, ← List.cons_append, List.getLast_append_singleton]
        rfl
      · have nothing : startsBehind (byteLength before) (Text.bytes [c]) = [] := by
          rw [← List.length_eq_zero_iff, length_startsBehind, Text.count_newline_bytes]
          simp [ends]
        rw [List.rdropWhile_concat_pos _ _ _ (by simpa using ends), ← ih]
        simp only [split, nothing, List.append_nil]

/-- Between characters, the column counts those behind the last newline. -/
theorem column_append (before behind : List Char) :
    (ofSource (before ++ behind)).column (byteLength (before.rdropWhile (· ≠ '\n')))
      (byteLength before) = (Text.lastLine before).length := by
  have parts : before.rdropWhile (· ≠ '\n') ++ Text.lastLine before = before :=
    List.rdropWhile_append_rtakeWhile
  have slice := Text.slice?_append (before.rdropWhile (· ≠ '\n')) (Text.lastLine before) behind
  rw [← List.append_assoc, parts] at slice
  simp only [column, ofSource, slice]

end LineIndex

/-! ## Positions -/

namespace Position

/-- On an earlier line, or on the same one in an earlier column. -/
def Before (first second : Position) : Prop :=
  first.line < second.line ∨ first.line = second.line ∧ first.column < second.column

/-- The lines and columns are counted that an offset has before it. -/
structure Locates (position : Position) (source : List Char) (offset : Nat) : Prop where
  line : position.line = ((Text.bytes source).take offset).count LineIndex.newline + 1
  column : ∀ before behind, source = before ++ behind → byteLength before = offset →
    position.column = (Text.lastLine before).length + 1

theorem exists_position (source : List Char) (offset : Nat) :
    ∃ position, (LineIndex.ofSource source).position? offset = some position ∧
      position.Locates source (min offset (byteLength source)) := by
  have upTo := LineIndex.ofSource_upTo source (Nat.min_le_right offset (byteLength source))
  refine ⟨_, LineIndex.UpTo.position?_eq upTo, ?_, ?_⟩
  · rw [List.length_cons, LineIndex.length_startsBehind]
  · rintro before behind rfl length
    have stop : min offset (byteLength (LineIndex.ofSource (before ++ behind)).source) =
        byteLength before := length.symm
    simp only [stop, ← length, Text.take_bytes, LineIndex.getLast_startsBehind,
      LineIndex.column_append before behind]

variable {first second : Position} {before between behind : List Char}

theorem Locates.line_eq (locates : first.Locates (before ++ behind) (byteLength before)) :
    first.line = before.count '\n' + 1 := by
  rw [locates.line, Text.take_bytes, Text.count_newline_bytes]

/-- Farther on in a source, the line or at least the column is a later one. -/
theorem Locates.ascending
    (locates : first.Locates (before ++ (between ++ behind)) (byteLength before))
    (further : second.Locates (before ++ (between ++ behind)) (byteLength (before ++ between)))
    (apart : between ≠ []) : first.Before second := by
  have regroup : before ++ (between ++ behind) = (before ++ between) ++ behind :=
    (List.append_assoc ..).symm
  have line := locates.line_eq
  have furtherLine := (regroup ▸ further).line_eq
  rw [List.count_append] at furtherLine
  by_cases ends : '\n' ∈ between
  · have more := List.count_pos_iff.mpr ends
    exact .inl (by omega)
  · have none_ := List.count_eq_zero.mpr ends
    have goesOn : Text.lastLine (before ++ between) = Text.lastLine before ++ between := by
      have stays : ∀ c ∈ between.reverse, decide (c ≠ '\n') = true := by
        intro c member
        exact decide_eq_true fun same => ends (same ▸ List.mem_reverse.mp member)
      unfold Text.lastLine List.rtakeWhile
      rw [List.reverse_append, List.takeWhile_append_of_pos stays, List.reverse_append,
        List.reverse_reverse]
    have some_between := List.length_pos_of_ne_nil apart
    refine .inr ⟨by omega, ?_⟩
    rw [locates.column before _ rfl rfl, further.column _ behind regroup rfl, goesOn,
      List.length_append]
    omega

theorem Before.ne (before : first.Before second) : first ≠ second := by
  rintro rfl
  rcases before with line | ⟨-, column⟩
  · exact Nat.lt_irrefl _ line
  · exact Nat.lt_irrefl _ column

end Position

/--
The position of every offset is found, and counts what it should; between characters, positions
are in the order of the offsets, so different ones have different positions.
-/
theorem Position.ofOffset_exact (source : List Char) :
    (∀ offset, (LineIndex.ofSource source).position? offset = some (.ofOffset source offset) ∧
      (ofOffset source offset).Locates source (min offset (byteLength source))) ∧
    (∀ first second, Text.IsBoundary source first → Text.IsBoundary source second →
      first < second → (ofOffset source first).Before (ofOffset source second)) ∧
    ∀ first second, Text.IsBoundary source first → Text.IsBoundary source second →
      ofOffset source first = ofOffset source second → first = second := by
  have located (offset : Nat) :
      (LineIndex.ofSource source).position? offset = some (ofOffset source offset) ∧
        (ofOffset source offset).Locates source (min offset (byteLength source)) := by
    obtain ⟨position, found, locates⟩ := exists_position source offset
    have same : ofOffset source offset = position := by simp [ofOffset, found]
    exact ⟨same ▸ found, same ▸ locates⟩
  have ascending (first second : Nat) (firstBoundary : Text.IsBoundary source first)
      (secondBoundary : Text.IsBoundary source second) (less : first < second) :
      (ofOffset source first).Before (ofOffset source second) := by
    obtain ⟨between, before, behind, rfl, rfl, rfl, apart⟩ :=
      Text.exists_between firstBoundary secondBoundary less
    have locates := (located (byteLength before)).2
    have further := (located (byteLength (before ++ between))).2
    rw [Nat.min_eq_left (by simp)] at locates further
    exact locates.ascending further apart
  refine ⟨located, ascending, fun first second firstBoundary secondBoundary same => ?_⟩
  rcases Nat.lt_trichotomy first second with less | equal | greater
  · exact absurd same (ascending first second firstBoundary secondBoundary less).ne
  · exact equal
  · exact absurd same.symm (ascending second first secondBoundary firstBoundary greater).ne

/-- Two lines whose first characters take two bytes each. -/
def accented : List Char := "é\nλx".toList

/-- Behind the first character of the second line is its second column. -/
theorem Position.ofOffset_exact_accented :
    ofOffset accented 3 = ⟨2, 1⟩ ∧ ofOffset accented 5 = ⟨2, 2⟩ ∧ ofOffset accented 99 = ⟨2, 3⟩ ∧
      (ofOffset accented 3).Before (ofOffset accented 5) :=
  ⟨by decide +kernel, by decide +kernel, by decide +kernel,
    (ofOffset_exact accented).2.1 3 5 ⟨['é', '\n'], ['λ', 'x'], rfl, rfl⟩
      ⟨['é', '\n', 'λ'], ['x'], rfl, rfl⟩ (by decide)⟩

end FlowDiagram

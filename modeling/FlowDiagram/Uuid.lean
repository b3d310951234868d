import FlowDiagram.Text.Joined

/-!
# Universally unique identifiers

An identifier is a number of 128 bits.  It is written in hexadecimal digits, in groups of 8, 4, 4, 4
and 12.
-/

namespace FlowDiagram

structure Uuid where
  bits : BitVec 128
  deriving DecidableEq

namespace Uuid

/-- The digits of an identifier, the highest first. -/
def digits (id : Uuid) : List Char :=
  (List.range 32).map fun place => Nat.digitChar ((id.bits >>> (4 * (31 - place))).toNat % 16)

/-- The written form. -/
def text (id : Uuid) : String :=
  let digits := id.digits
  "-".intercalate
    ([(0, 8), (8, 4), (12, 4), (16, 4), (20, 12)].map fun (start, length) =>
      String.ofList ((digits.drop start).take length))

/-- The value of a hexadecimal digit. -/
def digitValue? (c : Char) : Option Nat :=
  if '0' ≤ c && c ≤ '9' then some (c.toNat - '0'.toNat)
  else if 'a' ≤ c && c ≤ 'f' then some (c.toNat - 'a'.toNat + 10)
  else if 'A' ≤ c && c ≤ 'F' then some (c.toNat - 'A'.toNat + 10)
  else none

/-- The identifier with the given 32 digits. -/
def ofDigits? (digits : List Char) : Option Uuid :=
  if digits.length = 32 then
    (digits.mapM digitValue?).map fun values =>
      ⟨BitVec.ofNat 128 (values.foldl (fun total value => 16 * total + value) 0)⟩
  else none

/-- The identifier with the given groups of digits, a hyphen between each two. -/
def ofGroups? (text : List Char) : Option Uuid :=
  let hyphens := [8, 13, 18, 23]
  if text.length = 36 && hyphens.all (fun place => text[place]? == some '-') then
    ofDigits? ((text.zipIdx.filter fun (_, place) => place ∉ hyphens).map (·.1))
  else none

/-- What stands before the groups in a name, whatever the case of its letters. -/
def nameStart : String := "urn:uuid:"

/-- Read an identifier: digits alone or in groups, the groups also in braces or as a name. -/
def read? (text : String) : Option Uuid :=
  let body := text.toList
  if body.length = 32 then ofDigits? body
  else if body.length = 38 && body.head? == some '\x7b' && body.getLast? == some '\x7d' then
    ofGroups? ((body.drop 1).take 36)
  else if body.length = 45 && (body.take 9).map Char.toLower = nameStart.toList then
    ofGroups? (body.drop 9)
  else ofGroups? body

end Uuid

end FlowDiagram

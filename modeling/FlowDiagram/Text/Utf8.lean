/-!
# Characters of a byte sequence

Bytes are read as UTF-8.  Bytes that belong to no character are either refused or replaced: the
longest beginning of a character that ends there counts as one fault, and any other byte as a fault
of its own.
-/

namespace FlowDiagram.Text.Utf8

/-- The number of further bytes that a first byte asks for, with the range of the next of them. -/
def opening (byte : UInt8) : Option (Nat × UInt8 × UInt8) :=
  if byte < 0x80 then some (0, 0x80, 0xbf)
  else if byte < 0xc2 then none
  else if byte < 0xe0 then some (1, 0x80, 0xbf)
  else if byte = 0xe0 then some (2, 0xa0, 0xbf)
  else if byte = 0xed then some (2, 0x80, 0x9f)
  else if byte < 0xf0 then some (2, 0x80, 0xbf)
  else if byte = 0xf0 then some (3, 0x90, 0xbf)
  else if byte < 0xf4 then some (3, 0x80, 0xbf)
  else if byte = 0xf4 then some (3, 0x80, 0x8f)
  else none

/-- The bits of a first byte that count. -/
def payload (byte : UInt8) : Nat → Nat
  | 0 => byte.toNat
  | 1 => byte.toNat % 0x20
  | 2 => byte.toNat % 0x10
  | _ => byte.toNat % 0x08

/--
Where a reader stands: between characters, or inside one with the value so far, the number of
bytes it still owes, and the range of the next.
-/
inductive Stage where
  | between
  | inside (value owed : Nat) (low high : UInt8)

/-- A character, or the place of a fault. -/
abbrev Item := Option Char

/-- What a byte between characters begins. -/
def Stage.begin (byte : UInt8) : List Item × Stage :=
  match opening byte with
  | none => ([none], .between)
  | some (0, _, _) => ([some (Char.ofNat byte.toNat)], .between)
  | some (owed, low, high) => ([], .inside (payload byte owed) owed low high)

/-- What one more byte completes, and where the reader then stands. -/
def Stage.next (byte : UInt8) : Stage → List Item × Stage
  | .between => Stage.begin byte
  | .inside value owed low high =>
    if low ≤ byte && byte ≤ high then
      let value := 0x40 * value + byte.toNat % 0x40
      if owed ≤ 1 then ([some (Char.ofNat value)], .between)
      else ([], .inside value (owed - 1) 0x80 0xbf)
    else
      let (items, stage) := Stage.begin byte
      (none :: items, stage)

/-- The items of a byte sequence. -/
def items : Stage → List UInt8 → List Item
  | .between, [] => []
  | .inside .., [] => [none]
  | stage, byte :: rest =>
    let (found, stage) := stage.next byte
    found ++ items stage rest

/-- The text of a byte sequence without faults. -/
def decode? (bytes : List UInt8) : Option String :=
  ((items .between bytes).mapM id).map String.ofList

/-- The text of a byte sequence, with a replacement character for each fault. -/
def decodeLossy (bytes : List UInt8) : String :=
  String.ofList ((items .between bytes).map (·.getD (Char.ofNat 0xfffd)))

end FlowDiagram.Text.Utf8

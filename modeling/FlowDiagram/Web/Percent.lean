import FlowDiagram.Text.Utf8
import FlowDiagram.Uuid

/-!
# Percent encoding

In addresses and cookies any byte may be written as a percent sign and two hexadecimal digits.  A
percent sign without two digits stands for itself.
-/

namespace FlowDiagram.Web

/-- The value of a hexadecimal digit that is a byte. -/
def hexValue? (byte : UInt8) : Option Nat :=
  Uuid.digitValue? (Char.ofNat byte.toNat)

/-- The bytes meant by encoded bytes. -/
def decodedBytes : List UInt8 → List UInt8
  | [] => []
  | 0x25 :: high :: low :: rest =>
    match hexValue? high, hexValue? low with
    | some h, some l => UInt8.ofNat (16 * h + l) :: decodedBytes rest
    | _, _ => 0x25 :: decodedBytes (high :: low :: rest)
  | byte :: rest => byte :: decodedBytes rest

/-- The text meant by an encoded one, if it is one. -/
def decoded? (text : String) : Option String :=
  Text.Utf8.decode? (decodedBytes text.toUTF8.toList)

/-- The text of a form field, where a plus sign stands for a space. -/
def decodedField (text : String) : String :=
  let bytes := text.toUTF8.toList.map fun byte => if byte = 0x2b then 0x20 else byte
  Text.Utf8.decodeLossy (decodedBytes bytes)

end FlowDiagram.Web

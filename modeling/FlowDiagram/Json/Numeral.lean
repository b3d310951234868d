import FlowDiagram.Decimal.Shortest
import FlowDiagram.Json.Fault
import FlowDiagram.Text.Numeral

/-!
# Numbers in JSON texts

A number has a whole part, and may have a fraction and an exponent.  Without these two it is an
integer, if it fits into 64 bits; any other number is taken in double precision.
-/

namespace FlowDiagram.Json

inductive Numeral where
  | natural (value : Nat)
  /-- The number `-value`. -/
  | negative (value : Nat)
  | floating (value : Float)

/-- What a message calls a number. -/
def Numeral.describe : Numeral → String
  | .natural value => "integer `" ++ toString value ++ "`"
  | .negative value => "integer `-" ++ toString value ++ "`"
  | .floating value => "floating point `" ++ floatText value ++ "`"

/-! ## The parts of a number -/

structure Exponent where
  /-- Whether the exponent is negative. -/
  down : Bool
  /-- Whether it has a sign. -/
  signed : Bool
  digits : List Char

/-- A number as it is written. -/
structure WrittenNumber where
  negative : Bool
  whole : List Char
  /-- The digits after the point, none if there is no point. -/
  fraction : List Char
  exponent : Option Exponent

/-- How many characters the parts of a number after its sign take. -/
def WrittenNumber.length (number : WrittenNumber) : Nat :=
  number.whole.length +
    (if number.fraction.isEmpty then 0 else 1 + number.fraction.length) +
    match number.exponent with
    | none => 0
    | some exponent => 1 + (if exponent.signed then 1 else 0) + exponent.digits.length

/-- The digits that a text starts with; without any, what is left of the text. -/
def digitsOf (text : List Char) : Except (List Char) (List Char) :=
  match text.takeWhile Char.isDigit with
  | [] => .error text
  | digits => .ok digits

/-- The whole part; a zero stands alone. -/
def scanWhole (text : List Char) : Except (List Char) (List Char) := do
  match ← digitsOf text with
  | '0' :: _ :: _ => .error (text.drop 1)
  | digits => .ok digits

def scanFraction : List Char → Except (List Char) (List Char)
  | '.' :: rest => digitsOf rest
  | _ => .ok []

/-- The digits after the sign of an exponent. -/
def scanSigned : List Char → Except (List Char) Exponent
  | '+' :: rest => do return ⟨false, true, ← digitsOf rest⟩
  | '-' :: rest => do return ⟨true, true, ← digitsOf rest⟩
  | rest => do return ⟨false, false, ← digitsOf rest⟩

def scanExponent : List Char → Except (List Char) (Option Exponent)
  | 'e' :: rest => do return some (← scanSigned rest)
  | 'E' :: rest => do return some (← scanSigned rest)
  | _ => .ok none

/-- The number that a text starts with; failing that, the text from the wrong character on. -/
def WrittenNumber.scan (negative : Bool) (text : List Char) :
    Except (List Char) WrittenNumber := do
  let whole ← scanWhole text
  let rest := text.drop whole.length
  let fraction ← scanFraction rest
  let rest := rest.drop (if fraction.isEmpty then 0 else 1 + fraction.length)
  return ⟨negative, whole, fraction, ← scanExponent rest⟩

/-! ## The value of a number -/

/-- Take digits into a number as long as it fits into 64 bits; the digits that are left. -/
def absorb (value : Nat) : List Char → Nat × List Char
  | [] => (value, [])
  | c :: rest =>
    let next := 10 * value + (c.toNat - '0'.toNat)
    if next < Text.wordLimit then absorb next rest else (value, c :: rest)

/-- The greatest exponent. -/
def maxExponent : Nat := 2147483647

/-- No integer is smaller than the negative of this number. -/
def maxNegative : Nat := 9223372036854775808

/-- The value of an exponent; if it is too large, the digits after the one that made it so. -/
def exponentValue (value : Nat) : List Char → Except (List Char) Nat
  | [] => .ok value
  | c :: rest =>
    let next := 10 * value + (c.toNat - '0'.toNat)
    if next ≤ maxExponent then exponentValue next rest else .error rest

def powerOfTen (exponent : Nat) : Float := Float.ofScientific 1 false exponent

/-- Divide by a power of ten, in steps that double precision can make. -/
def shrink (value : Float) (exponent : Nat) : Float :=
  if exponent ≤ 308 then value / powerOfTen exponent
  else if value == 0 then value
  else shrink (value / powerOfTen 308) (exponent - 308)
termination_by exponent

/-- Multiply by a power of ten, unless the result is too large. -/
def enlarge? (value : Float) (exponent : Nat) : Option Float :=
  if exponent ≤ 308 then
    let product := value * powerOfTen exponent
    if product.isInf then none else some product
  else if value == 0 then some value
  else none

/-- The number `value * 10 ^ exponent`, unless it is too large. -/
def scaled? (value : Nat) (exponent : Int) : Option Float :=
  let value := (UInt64.ofNat value).toFloat
  if 0 ≤ exponent then enlarge? value exponent.toNat else some (shrink value (-exponent).toNat)

/-- The value of a number; if it is out of range, how many of its characters are unread. -/
def WrittenNumber.value (number : WrittenNumber) : Except Nat Numeral :=
  let (whole, wholeLeft) := absorb 0 number.whole
  let (digits, fractionLeft) := absorb whole number.fraction
  let scale : Int := wholeLeft.length - (number.fraction.length - fractionLeft.length : Nat)
  let floating (value : Float) : Numeral := .floating (if number.negative then -value else value)
  let finish : Option Float → Except Nat Numeral
    | some value => .ok (floating value)
    | none => .error 0
  match number.exponent with
  | some exponent =>
    match exponentValue 0 exponent.digits with
    | .ok power => finish (scaled? digits (if exponent.down then scale - power else scale + power))
    | .error unread =>
      if digits ≠ 0 && !exponent.down then .error unread.length else .ok (floating 0)
  | none =>
    if !number.fraction.isEmpty || !wholeLeft.isEmpty then finish (scaled? digits scale)
    else if !number.negative then .ok (.natural digits)
    else if digits = 0 || maxNegative < digits then finish (scaled? digits 0)
    else .ok (.negative digits)

end FlowDiagram.Json

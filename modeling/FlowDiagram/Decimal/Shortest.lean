/-!
# Shortest decimal numbers

Of all decimal numbers that a binary number stands for, namely those that round to it, the one with
the fewest digits is written; of two with that many digits, the nearer one, and of two equally near
the even one.
-/

namespace FlowDiagram

/-- The number `digits * 10 ^ scale`. -/
structure Decimal where
  digits : Nat
  scale : Int
  deriving DecidableEq

/-- The positive number `mantissa * 2 ^ exponent`. -/
structure Binary where
  mantissa : Nat
  exponent : Int
  /-- Whether the next smaller number is only half as far away as the next larger one. -/
  atPower : Bool
  deriving DecidableEq

namespace Binary

/-- The parts of a binary number of double precision that is positive and finite. -/
def ofBits (bits : UInt64) : Binary :=
  let fraction := (bits &&& 0xfffffffffffff).toNat
  let exponent := ((bits >>> 52) &&& 0x7ff).toNat
  if exponent = 0 then ⟨fraction, -1074, false⟩
  else ⟨0x10000000000000 + fraction, (exponent : Int) - 1075, fraction = 0 && 1 < exponent⟩

/-- How many decimal digits stand before the point; every number is taken to exceed
`10 ^ (-400)`. -/
def order (number : Binary) : Int :=
  let whole := number.mantissa * Nat.pow 2 number.exponent.toNat * Nat.pow 10 400 /
    Nat.pow 2 (-number.exponent).toNat
  ((Nat.toDigits 10 whole).length : Int) - 400

/--
The nearest decimal of the given scale among those that round to the number.  All sizes are
compared in quarters of the last binary place, multiplied by what makes them whole.
-/
def onGrid? (number : Binary) (scale : Int) : Option Nat :=
  let place := number.exponent - 2
  let unit := Nat.pow 10 scale.toNat * Nat.pow 2 (-place).toNat
  let quarter := Nat.pow 2 place.toNat * Nat.pow 10 (-scale).toNat
  let value := 4 * number.mantissa * quarter
  let low := value - (if number.atPower then 1 else 2) * quarter
  let high := value + 2 * quarter
  let closed := number.mantissa % 2 = 0
  let stands (digits : Nat) : Bool :=
    let size := digits * unit
    (low < size && size < high) || (closed && (size = low || size = high))
  let below := value / unit
  match stands below, stands (below + 1) with
  | true, true =>
    let above := 2 * (value - below * unit)
    if above < unit || (above = unit && below % 2 = 0) then some below else some (below + 1)
  | true, false => some below
  | false, true => some (below + 1)
  | false, false => none

end Binary

/-- The same number without zeros at the end of its digits. -/
def Decimal.reduced (number : Decimal) : Decimal :=
  let zeros := ((Nat.toDigits 10 number.digits).reverse.takeWhile (· = '0')).length
  ⟨number.digits / Nat.pow 10 zeros, number.scale + zeros⟩

/-- The decimal with the fewest digits; seventeen always suffice. -/
def Binary.shortest (number : Binary) : Decimal :=
  let order := number.order
  ((List.range 17).findSome? fun (count : Nat) =>
    let scale := order - (count + 1)
    (number.onGrid? scale).map fun digits => (Decimal.mk digits scale).reduced).getD ⟨0, 0⟩

/-! ## Written numbers -/

/--
The text of a decimal: with a point if it is no less than ten to the minus fifth and less than ten
to the sixteenth, else with an exponent, which always has a sign.
-/
def Decimal.text (number : Decimal) : String :=
  let digits := toString number.digits
  let length : Int := digits.length
  let point := length + number.scale
  let zeros (count : Int) : String := String.ofList (List.replicate count.toNat '0')
  if 0 ≤ number.scale && point ≤ 16 then digits ++ zeros number.scale ++ ".0"
  else if 0 < point && point ≤ 16 then
    String.ofList (digits.toList.take point.toNat) ++ "." ++
      String.ofList (digits.toList.drop point.toNat)
  else if -5 < point && point ≤ 0 then "0." ++ zeros (-point) ++ digits
  else
    let exponent := (if 0 < point then "e+" else "e") ++ toString (point - 1)
    match digits.toList with
    | first :: second :: rest =>
      String.ofList [first, '.'] ++ String.ofList (second :: rest) ++ exponent
    | _ => digits ++ exponent

/-- The text of a number of double precision that is finite. -/
def floatText (number : Float) : String :=
  let bits := number.toBits
  let sign := if bits >>> 63 = 1 then "-" else ""
  let size := bits &&& 0x7fffffffffffffff
  sign ++ (if size = 0 then "0.0" else (Binary.ofBits size).shortest.text)

end FlowDiagram

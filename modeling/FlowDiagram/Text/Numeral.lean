/-!
# Numerals

Natural numbers below a limit, read from decimal digits that may follow a plus sign.  A numeral is
judged from left to right: at each character first whether it is a digit, then whether the number
so far is below the limit.
-/

namespace FlowDiagram.Text

/-- Why a text is no numeral. -/
inductive NumeralError where
  | empty
  | notADigit
  | tooLarge
  deriving DecidableEq

def NumeralError.message : NumeralError → String
  | .empty => "cannot parse integer from empty string"
  | .notADigit => "invalid digit found in string"
  | .tooLarge => "number too large to fit in target type"

/-- Go on reading digits after the number `value`. -/
def readDigits (limit value : Nat) : List Char → Except NumeralError Nat
  | [] => .ok value
  | c :: rest =>
    if c.isDigit then
      let next := 10 * value + (c.toNat - '0'.toNat)
      if next < limit then readDigits limit next rest else .error .tooLarge
    else .error .notADigit

/-- Read a number below the limit. -/
def readNumeral (limit : Nat) (text : String) : Except NumeralError Nat :=
  match text.toList with
  | [] => .error .empty
  | ['+'] => .error .notADigit
  | '+' :: digits => readDigits limit 0 digits
  | digits => readDigits limit 0 digits

/-- Numbers that a machine word holds lie below this limit. -/
def wordLimit : Nat := 18446744073709551616

end FlowDiagram.Text

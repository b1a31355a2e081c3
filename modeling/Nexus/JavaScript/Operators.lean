import Nexus.JavaScript.Json
import Mathlib.Algebra.Group.Nat.Defs

/-! Parsed values under `?.` and `||`. No value that `JSON.parse` makes inherits
a property with a name that is asked for here. -/

set_option autoImplicit false

namespace Nexus.JavaScript.Json

/-- `value?.name`, where `none` is `undefined`. -/
def Value.property (name : String) : Value → Option Value
  | .object members => (members.find? fun member => member.1 == ofString name).map Prod.snd
  | _ => none

def digitsValue (digits : List ℕ) : ℕ :=
  digits.foldl (fun value unit => 10 * value + (unit - '0'.toNat)) 0

/-- The digits of a literal as a whole number, and the power of ten it is scaled
by. -/
def decimal (literal : List ℕ) : ℕ × Int :=
  let text := (lexMinus literal).2
  let integer := text.takeWhile isDigit
  let rest := text.dropWhile isDigit
  let fraction := if rest.head? = some '.'.toNat then rest.tail.takeWhile isDigit else []
  let rest := if rest.head? = some '.'.toNat then rest.tail.dropWhile isDigit else rest
  let (sign, exponent) := lexSign rest.tail
  let power : Int := digitsValue exponent
  (digitsValue (integer ++ fraction),
    (if sign = ['-'.toNat] then -power else power) - fraction.length)

/-- Whether the nearest double is a zero: nothing lies between it and the
half of the least positive double, 2⁻¹⁰⁷⁴. -/
def isZero (literal : List ℕ) : Bool :=
  let (digits, power) := decimal literal
  if power < 0 then digits * 2 ^ 1075 ≤ 10 ^ power.natAbs else digits = 0

def Value.truthy : Value → Bool
  | .null => false
  | .boolean value => value
  | .number literal => !isZero literal
  | .string units => units ≠ []
  | .array _ | .object _ => true

/-- `left || right` -/
def either (left : Option Value) (right : Value) : Value :=
  match left with
  | some value => if value.truthy then value else right
  | none => right

end Nexus.JavaScript.Json

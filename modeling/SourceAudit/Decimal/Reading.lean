/-
Module: SourceAudit.Decimal.Reading
Layer: Numbers
Purpose: The double that a decimal numeral stands for. The leading digits that fit into 64 bits are
  taken as a whole number and scaled by a power of ten, in one step whenever the power itself is a
  double. Numerals of up to fifteen digits and moderate size are therefore read exactly to the
  nearest double.
Main exports: Numeral, Numeral.toFloat?
-/

namespace SourceAudit

/-- A decimal numeral: sign, digits before and after the point, and exponent. -/
structure Numeral where
  negative : Bool
  whole : List Nat
  fraction : List Nat
  exponent : Int
deriving DecidableEq, Repr

/-- Takes digits into a number as long as it stays below `2 ^ 64`. The count of digits that were
    taken and the digits that were not come with it. -/
def takeDigits : (value taken : Nat) → List Nat → Nat × Nat × List Nat
  | value, taken, [] => (value, taken, [])
  | value, taken, d :: ds =>
    if value * 10 + d < 18446744073709551616 then takeDigits (value * 10 + d) (taken + 1) ds
    else (value, taken, d :: ds)

/-- `x` times ten to the power of `exponent`, or nothing when the result is too large. Below the
    smallest power that is a double it goes on in steps of 308. -/
def scaleByTen (x : Float) (exponent : Int) : (fuel : Nat) → Option Float
  | 0 => some 0.0
  | fuel + 1 =>
    if exponent.natAbs ≤ 308 then
      let power := Float.ofScientific 1 false exponent.natAbs
      if 0 ≤ exponent then
        let y := x * power
        if y.isInf then none else some y
      else some (x / power)
    else if x == 0.0 then some x
    else if 0 ≤ exponent then none
    else scaleByTen (x / Float.ofScientific 1 false 308) (exponent + 308) fuel

namespace Numeral

/-- The size of the numeral, or nothing when it is too large for a double. Digits of the whole part
    that do not fit still count for the exponent; digits of the fraction that do not fit do not. -/
def size? (n : Numeral) : Option Float :=
  let (value, _, rest) := takeDigits 0 0 n.whole
  let (value, taken, _) := takeDigits value 0 n.fraction
  let exponent := n.exponent + Int.ofNat rest.length - Int.ofNat taken
  if value = 0 then some 0.0
  else scaleByTen (UInt64.ofNat value).toFloat exponent (n.whole.length + n.fraction.length + 4)

/-- The double that the numeral stands for. -/
def toFloat? (n : Numeral) : Option Float := n.size?.map fun x => if n.negative then -x else x

end Numeral

end SourceAudit

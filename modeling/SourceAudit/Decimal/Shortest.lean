/-
Module: SourceAudit.Decimal.Shortest
Layer: Numbers
Purpose: The fewest decimal digits that read back as a given double. For one digit, two digits and so
  on, the two neighbours of the number on that decimal grid are tried; the first grid with a
  neighbour inside the interval that rounds to the double wins, and of two neighbours the nearer.
Main exports: Decimal, Decimal.shortest, Decimal.positional, Decimal.jsonText, Decimal.plainText
-/
import SourceAudit.Decimal.Binary

namespace SourceAudit

/-- The number `digits * 10 ^ exponent` with a sign. -/
structure Decimal where
  negative : Bool
  digits : Nat
  exponent : Int
deriving DecidableEq, Repr

namespace Decimal

/-- How many decimal digits a number has; zero has one. -/
def digitCount (n : Nat) : Nat := (toString n).length

/-- The largest `p` with `10 ^ p ≤ num / den`, for a positive fraction. The digit counts leave two
    candidates. -/
def magnitude (num den : Nat) : Int :=
  let guess : Int := Int.ofNat (digitCount num) - Int.ofNat (digitCount den)
  if den * Nat.pow 10 guess.toNat ≤ num * Nat.pow 10 (-guess).toNat then guess else guess - 1

/-- Whether the grid point `d * 10 ^ k` lies in the interval around the double, whose ends are
    `low / den` and `high / den`. The ends belong to it when `closed`. -/
def within (low high den : Nat) (closed : Bool) (d : Nat) (k : Int) : Bool :=
  let point := d * Nat.pow 10 k.toNat * den
  let scale := Nat.pow 10 (-k).toNat
  if closed then low * scale ≤ point && point ≤ high * scale
  else low * scale < point && point < high * scale

/-- The digits on the first grid of at most `fuel` more digits that has a point in the interval. -/
def searchGrid (value low high den : Nat) (closed : Bool) (p : Int) : (fuel n : Nat) → Nat × Int
  | 0, n =>
    let k := p - Int.ofNat n + 1
    (value * Nat.pow 10 (-k).toNat / (den * Nat.pow 10 k.toNat), k)
  | fuel + 1, n =>
    let k := p - Int.ofNat n + 1
    let num := value * Nat.pow 10 (-k).toNat
    let unit := den * Nat.pow 10 k.toNat
    let d := num / unit
    let below := within low high den closed d k
    let above := within low high den closed (d + 1) k
    let twice := 2 * (num - d * unit)
    if below && above then
      if twice < unit || (twice = unit && d % 2 = 0) then (d, k) else (d + 1, k)
    else if below then (d, k)
    else if above then (d + 1, k)
    else searchGrid value low high den closed p fuel (n + 1)

/-- Takes the zeros off the end of the digits. -/
def dropZeros : (fuel digits : Nat) → (exponent : Int) → Nat × Int
  | 0, digits, exponent => (digits, exponent)
  | fuel + 1, digits, exponent =>
    if digits % 10 = 0 && digits != 0 then dropZeros fuel (digits / 10) (exponent + 1)
    else (digits, exponent)

/-- The shortest decimal that reads back as the double. -/
def shortest (x : Float) : Decimal :=
  let b := Binary.ofFloat x
  if b.mantissa = 0 then ⟨b.negative, 0, 0⟩
  else
    let value := b.numerator 4
    let den := b.denominator * 4
    let step := Nat.pow 2 b.exponent.toNat
    let low := value - (if b.narrowBelow then 1 else 2) * step
    let high := value + 2 * step
    let (digits, exponent) :=
      searchGrid value low high den (b.mantissa % 2 == 0) (magnitude value den) 17 1
    let (digits, exponent) := dropZeros 20 digits exponent
    ⟨b.negative, digits, exponent⟩

/-- The sign in front of a number. -/
def sign (negative : Bool) : String := if negative then "-" else ""

/-- Positional notation. A whole number ends in `wholeEnding`. -/
def positional (wholeEnding : String) (d : Decimal) : String :=
  let digits := (toString d.digits).toList
  let point := Int.ofNat digits.length + d.exponent
  let body :=
    if 0 ≤ d.exponent then
      String.ofList (digits ++ List.replicate d.exponent.toNat '0') ++ wholeEnding
    else if 0 < point then
      String.ofList (digits.take point.toNat) ++ "." ++ String.ofList (digits.drop point.toNat)
    else "0." ++ String.ofList (List.replicate (-point).toNat '0' ++ digits)
  sign d.negative ++ body

/-- Notation with an exponent. -/
def scientific (d : Decimal) : String :=
  let digits := (toString d.digits).toList
  let lead := digits.take 1
  let rest := digits.drop 1
  let power := Int.ofNat digits.length + d.exponent - 1
  sign d.negative ++ String.ofList lead ++
    (if rest.isEmpty then "" else "." ++ String.ofList rest) ++ "e" ++ toString power

/-- The text of a number in JSON: positional with a point from 0.00001 up to sixteen digits before
    the point, with an exponent beyond. -/
def jsonText (x : Float) : String :=
  let d := shortest x
  let point := Int.ofNat (digitCount d.digits) + d.exponent
  if d.digits = 0 || (-5 < point && point ≤ 16) then d.positional ".0" else d.scientific

/-- The text of a number in prose: positional throughout, whole numbers without a point. -/
def plainText (x : Float) : String := (shortest x).positional ""

end Decimal

end SourceAudit

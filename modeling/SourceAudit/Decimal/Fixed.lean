/-
Module: SourceAudit.Decimal.Fixed
Layer: Numbers
Purpose: Doubles with a fixed number of decimal places. The exact value is rounded to the nearest
  multiple, and a value exactly between two goes to the even one.
Main exports: roundDiv, Decimal.fixedText
-/
import SourceAudit.Decimal.Shortest

namespace SourceAudit

/-- The whole number nearest to `num / den`; of two equally near ones the even one. -/
def roundDiv (num den : Nat) : Nat :=
  let q := num / den
  let twice := 2 * (num % den)
  if twice < den || (twice = den && q % 2 = 0) then q else q + 1

/-- The text of a number with `places` decimal places, at least one. -/
def Decimal.fixedText (places : Nat) (x : Float) : String :=
  let b := Binary.ofFloat x
  let scaled := (toString (roundDiv (b.numerator (Nat.pow 10 places)) b.denominator)).toList
  let padded := List.replicate (places + 1 - scaled.length) '0' ++ scaled
  let whole := padded.length - places
  Decimal.sign b.negative ++ String.ofList (padded.take whole) ++ "." ++
    String.ofList (padded.drop whole)

end SourceAudit

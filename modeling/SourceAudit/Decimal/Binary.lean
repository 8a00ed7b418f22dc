/-
Module: SourceAudit.Decimal.Binary
Layer: Numbers
Purpose: A double taken apart into its sign and the exact number `mantissa * 2 ^ exponent` that it
  stands for, so that what is printed of it is decided in exact arithmetic.
Main exports: Binary, Binary.ofFloat, Binary.numerator, Binary.denominator
-/

namespace SourceAudit

/-- The parts of a finite double. -/
structure Binary where
  negative : Bool
  mantissa : Nat
  exponent : Int
  /-- Whether the next smaller double is only half as far away as the next larger one. -/
  narrowBelow : Bool
deriving DecidableEq, Repr

namespace Binary

/-- The parts of a double. An infinity or NaN has no such parts and is read as if its exponent field
    were an ordinary one. -/
def ofFloat (x : Float) : Binary :=
  let bits := x.toBits.toNat
  let fraction := bits % 4503599627370496
  let field := bits / 4503599627370496 % 2048
  let negative := bits / 9223372036854775808 == 1
  if field = 0 then ⟨negative, fraction, -1074, false⟩
  else ⟨negative, fraction + 4503599627370496, Int.ofNat field - 1075, fraction == 0 && 1 < field⟩

/-- The numerator of the number's size as a fraction, when it is multiplied by `scale`. -/
def numerator (b : Binary) (scale : Nat) : Nat := b.mantissa * scale * Nat.pow 2 b.exponent.toNat

/-- The denominator of the number's size as a fraction. -/
def denominator (b : Binary) : Nat := Nat.pow 2 (-b.exponent).toNat

end Binary

end SourceAudit

/-
Module: SourceAudit.Text.CodeSet
Layer: Text
Purpose: Sets of Unicode code points kept as their boundaries, and stepped runs of code points that
  move by a fixed distance. Both are read by bisection, so that a property of a standard with
  hundreds of ranges is a plain sorted array here and a logarithmic test when it is asked.
Main exports: countUpTo, CodeSet, CodeSet.contains, Shift, Shift.moves, ShiftTable.apply
-/

namespace SourceAudit

/-- How many entries of a sorted table are at most `n`, counted from its front. `itemAt?` gives the
    entries by position, and the answer is sought between `lo` and `hi`. Each step halves the
    interval, so `fuel` steps settle a table of fewer than `2 ^ fuel` entries. -/
@[specialize]
def countUpTo (itemAt? : Nat → Option Nat) (n : Nat) : (fuel lo hi : Nat) → Nat
  | 0, lo, _ => lo
  | fuel + 1, lo, hi =>
    if lo < hi then
      let mid := (lo + hi) / 2
      match itemAt? mid with
      | some b => if b ≤ n then countUpTo itemAt? n fuel (mid + 1) hi else countUpTo itemAt? n fuel lo mid
      | none => lo
    else lo

/-- A set of code points given by its boundaries in ascending order: the first code point inside,
    the first one outside again, and so on. -/
structure CodeSet where
  bounds : Array Nat

/-- A code point is in the set when an odd number of boundaries has been passed on the way to it. -/
def CodeSet.contains (s : CodeSet) (n : Nat) : Bool :=
  countUpTo (fun i => s.bounds[i]?) n 24 0 s.bounds.size % 2 == 1

/-- A run of code points `first`, `first + step`, … up to `last`, each of which is moved by
    `distance`. -/
structure Shift where
  first : Nat
  last : Nat
  step : Nat
  distance : Int

/-- Whether the run holds the code point `n`. -/
def Shift.moves (s : Shift) (n : Nat) : Bool :=
  s.first ≤ n && n ≤ s.last && (n - s.first) % s.step == 0

/-- A table of runs in ascending order, none of which reaches into the next. -/
abbrev ShiftTable := Array Shift

/-- The code point that `n` moves to; a code point of no run stays where it is. The only run that
    can hold it is the last one that starts at or before it. -/
def ShiftTable.apply (t : ShiftTable) (n : Nat) : Nat :=
  match countUpTo (fun i => (t[i]?).map Shift.first) n 24 0 t.size with
  | 0 => n
  | i + 1 =>
    match t[i]? with
    | some s => if s.moves n then (Int.ofNat n + s.distance).toNat else n
    | none => n

end SourceAudit

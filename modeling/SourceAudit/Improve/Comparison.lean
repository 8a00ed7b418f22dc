/-
Module: SourceAudit.Improve.Comparison
Layer: Improvement
Purpose: Two versions of a text side by side, line by line, and the measurements of what changed
  between them.
Main exports: ChangeType, LineComparison, compareLines, ImprovementMetrics, ImprovementMetrics.between
-/
import SourceAudit.Pattern.Build

namespace SourceAudit

/-- What happened to a line. -/
inductive ChangeType where
  | unchanged | modified | added | removed
deriving DecidableEq, Repr

/-- One line of a comparison. -/
structure LineComparison where
  /-- The position, counted from 1. -/
  lineNumber : Nat
  /-- The line before; empty past the end. -/
  before : String
  /-- The line after; empty past the end. -/
  after : String
  isDifferent : Bool
  changeType : ChangeType
deriving DecidableEq, Repr

namespace LineComparison

/-- A line that only the first version has. -/
def removed (n : Nat) (line : Text) : LineComparison := ⟨n, line.str, "", true, .removed⟩

/-- A line that only the second version has. -/
def added (n : Nat) (line : Text) : LineComparison := ⟨n, "", line.str, true, .added⟩

/-- A line that both versions have. -/
def paired (n : Nat) (before after : Text) : LineComparison :=
  if before = after then ⟨n, before.str, after.str, false, .unchanged⟩
  else ⟨n, before.str, after.str, true, .modified⟩

end LineComparison

/-- The rows for two lists of lines, from number `n` on; `done` holds the rows before, backwards. -/
def compareFrom (n : Nat) (done : List LineComparison) :
    (before after : List Text) → List LineComparison
  | [], [] => done.reverse
  | b :: bs, [] => compareFrom (n + 1) (.removed n b :: done) bs []
  | [], a :: as => compareFrom (n + 1) (.added n a :: done) [] as
  | b :: bs, a :: as => compareFrom (n + 1) (.paired n b a :: done) bs as

/-- Two texts line by line. -/
def compareLines (before after : String) : List LineComparison :=
  compareFrom 1 [] (Text.of before).lines (Text.of after).lines

/-- Measurements before and after. -/
structure ImprovementMetrics where
  linesChanged : Nat
  consolesRemoved : Int
  varsReplaced : Int
  sizeReduction : Int
  /-- The reduction in percent of the size before, to two decimal places. -/
  sizeReductionPercent : Float
  linesBefore : Nat
  linesAfter : Nat
  sizeBefore : Nat
  sizeAfter : Nat
deriving Repr

/-- The number of positions at which two lists differ, positions past either end included. -/
def countDifferences : (before after : List Text) → (found : Nat) → Nat
  | [], [], found => found
  | [], after, found => found + after.length
  | before, [], found => found + before.length
  | b :: bs, a :: as, found => countDifferences bs as (if b = a then found else found + 1)

/-- A share of a whole in percent, rounded to two decimal places with halves away from zero; a share
    of nothing is zero. -/
def percentOf (part : Int) (whole : Nat) : Float :=
  if whole = 0 then 0.0 else ((Float.ofInt part / Nat.toFloat whole) * 10000.0).round / 100.0

namespace ImprovementMetrics

/-- The measurements between two versions of a text. -/
def between (old new : String) : ImprovementMetrics :=
  let before := Text.of old
  let after := Text.of new
  let drop (p : Pattern) : Int := Int.ofNat (p.count before) - Int.ofNat (p.count after)
  let reduction := Int.ofNat before.length - Int.ofNat after.length
  { linesChanged := countDifferences before.lines after.lines 0
    consolesRemoved := drop (.text "console.")
    varsReplaced := drop (wholeWord "var")
    sizeReduction := reduction
    sizeReductionPercent := percentOf reduction before.length
    linesBefore := before.lines.length
    linesAfter := after.lines.length
    sizeBefore := before.length
    sizeAfter := after.length }

end ImprovementMetrics

end SourceAudit

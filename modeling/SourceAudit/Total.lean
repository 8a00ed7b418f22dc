/-
Module: SourceAudit.Total
Layer: Numbers
Purpose: Sums of counts, exact and as a word of 64 bits holds them.
Main exports: total, wordSize, wordTotal
-/

namespace SourceAudit

/-- All counts together. -/
def total (counts : List Nat) : Nat := counts.foldr (· + ·) 0

/-- The total of counts and more counts. -/
theorem total_append (a b : List Nat) : total (a ++ b) = total a + total b := by
  induction a with
  | nil => simp [total]
  | cons n a ih =>
    have h : total (n :: (a ++ b)) = n + total (a ++ b) := rfl
    have h' : total (n :: a) = n + total a := rfl
    rw [List.cons_append, h, h', ih, Nat.add_assoc]

/-- How many values a word of 64 bits has. -/
def wordSize : Nat := 18446744073709551616

/-- All counts together, as a word of 64 bits holds them: above the greatest word the sum starts
    again at zero. -/
def wordTotal (counts : List Nat) : Nat := total counts % wordSize

/-- As long as the sum fits into a word, nothing is lost. -/
theorem wordTotal_eq_total {counts : List Nat} (h : total counts < wordSize) :
    wordTotal counts = total counts :=
  Nat.mod_eq_of_lt h

end SourceAudit

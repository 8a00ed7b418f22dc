/-
Module: SourceAudit.Fault
Layer: Domain
Purpose: What can go wrong while sources are read or scanned, by cause, and the one place that words
  it. A scan of one rule category never stops the others: a fault there counts as "nothing found".
Main exports: Fault, Fault.message, isolate, isolate_ite
-/

namespace SourceAudit

/-- Why an operation gave no result. -/
inductive Fault where
  /-- A file could not be listed, measured or read. -/
  | io (reason : String)
  /-- A pattern made from the source cannot be used. -/
  | pattern (reason : String)
  /-- Anything else. -/
  | other (reason : String)
deriving DecidableEq, Repr

/-- The wording of a fault. -/
def Fault.message : Fault → String
  | .io reason => "io error: " ++ reason
  | .pattern reason => "pattern error: " ++ reason
  | .other reason => reason

/-- The findings of one rule category; a category that fails finds nothing. -/
def isolate {α : Type} : Except Fault (List α) → List α
  | .ok found => found
  | .error _ => []

theorem isolate_ite {α : Type} {c : Prop} [Decidable c] (found : List α) (fault : Fault) :
    isolate (if c then .ok found else .error fault) = if c then found else [] := by
  split <;> rfl

end SourceAudit

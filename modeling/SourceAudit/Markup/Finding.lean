/-
Module: SourceAudit.Markup.Finding
Layer: Domain
Purpose: What the validation of a markup document gives: findings in three lists, a verdict and a
  score, and the same laid out as a report on one file.
Main exports: Markup.FindingKind, Markup.Finding, Markup.Check, Markup.Validation, Markup.Report
-/
import SourceAudit.Fix.Kind

namespace SourceAudit.Markup

/-- How grave a finding is. -/
inductive FindingKind where
  /-- A violation of the standard; it makes the document invalid. -/
  | error
  /-- Probably a mistake. -/
  | warning
  /-- A recommendation. -/
  | suggestion
  /-- A note that costs nothing. -/
  | info
deriving DecidableEq, Repr

/-- A finding in a document. -/
structure Finding where
  /-- The line, counted from 1; 0 stands for the whole document. -/
  line : Nat
  kind : FindingKind
  category : String
  message : String
  /-- How to mend it. -/
  suggestion : String
  /-- A replacement, or a hint at one. -/
  fixCode : String
  autoFix : Bool
  fixKind : Option FixKind
deriving DecidableEq, Repr

/-- A finding and what it takes off the score. -/
structure Check where
  finding : Finding
  penalty : Nat
deriving DecidableEq, Repr

namespace Check

/-- A finding that has to be mended by hand. -/
def manual (kind : FindingKind) (line : Nat) (category message suggestion fixCode : String)
    (penalty : Nat) : Check :=
  ⟨⟨line, kind, category, message, suggestion, fixCode, false, none⟩, penalty⟩

/-- A finding that a fix mends. -/
def fixable (kind : FindingKind) (line : Nat) (category message suggestion fixCode : String)
    (fix : FixKind) (penalty : Nat) : Check :=
  ⟨⟨line, kind, category, message, suggestion, fixCode, true, some fix⟩, penalty⟩

end Check

/-- The result of validating a document. -/
structure Validation where
  isValid : Bool
  errors : List Finding
  warnings : List Finding
  /-- Recommendations and notes. -/
  suggestions : List Finding
  score : UInt8
deriving DecidableEq, Repr

/-- The verdict on a document. -/
inductive Status where
  | valid | invalid
deriving DecidableEq, Repr

/-- The counts and the verdict of a report. -/
structure Summary where
  errorCount : Nat
  warningCount : Nat
  suggestionCount : Nat
  status : Status
  message : String
deriving DecidableEq, Repr

/-- The report on one document. -/
structure Report where
  fileName : String
  /-- The name of the validator. -/
  validator : String
  isValid : Bool
  score : UInt8
  /-- Errors and warnings together. -/
  totalIssues : Nat
  errors : List Finding
  warnings : List Finding
  suggestions : List Finding
  summary : Summary
deriving DecidableEq, Repr

end SourceAudit.Markup

/-
Module: SourceAudit.Issue
Layer: Domain
Purpose: What the rules report: issues, which stand on a line, and suggestions, which may name the
  fix that settles them.
Main exports: IssueKind, Issue, Impact, Suggestion, Suggestion.fixedBy, Suggestion.rated, Outcome
-/
import SourceAudit.Fix.Kind

namespace SourceAudit

/-- How grave an issue is. -/
inductive IssueKind where
  | error | warning | info
deriving DecidableEq, Repr

/-- A finding on a line. -/
structure Issue where
  kind : IssueKind
  /-- The line, counted from 1; 0 stands for the whole document. -/
  line : Nat
  message : String
  /-- A short tag for programs. -/
  code : String
deriving DecidableEq, Repr

/-- How much is gained by following a suggestion. -/
inductive Impact where
  | low | medium | high
deriving DecidableEq, Repr

/-- A recommendation. -/
structure Suggestion where
  category : String
  message : String
  /-- Whether a fix is expected to settle it. -/
  autoFix : Bool
  /-- A hint that names the rule in words. -/
  fixCode : Option String
  impact : Option Impact
  /-- The fix that settles it. -/
  fixKind : Option FixKind
deriving DecidableEq, Repr

namespace Suggestion

/-- A recommendation that has to be followed by hand. -/
def manual (category message : String) : Suggestion := ⟨category, message, false, none, none, none⟩

/-- The recommendation, settled by a rule. -/
def fixedBy (s : Suggestion) (kind : FixKind) (hint : String) : Suggestion :=
  { s with autoFix := true, fixKind := some kind, fixCode := some hint }

/-- The recommendation with its impact. -/
def rated (s : Suggestion) (impact : Impact) : Suggestion := { s with impact := some impact }

/-- The suggestion that asks for exactly one rule. -/
def requesting (kind : FixKind) : Suggestion := (manual "manual" kind.id).fixedBy kind kind.id

end Suggestion

/-- What a rule category reports. -/
inductive Outcome where
  | issue (i : Issue)
  | suggestion (s : Suggestion)
deriving DecidableEq, Repr

namespace Outcome

/-- An error on a line. -/
def error (line : Nat) (message code : String) : Outcome := .issue ⟨.error, line, message, code⟩

/-- A warning on a line. -/
def warning (line : Nat) (message code : String) : Outcome := .issue ⟨.warning, line, message, code⟩

/-- A note on a line. -/
def info (line : Nat) (message code : String) : Outcome := .issue ⟨.info, line, message, code⟩

/-- A recommendation with its impact, to be followed by hand. -/
def advice (category message : String) (impact : Impact) : Outcome :=
  .suggestion ((Suggestion.manual category message).rated impact)

/-- A recommendation with its impact, settled by a rule. -/
def fixable (category message : String) (kind : FixKind) (hint : String) (impact : Impact) : Outcome :=
  .suggestion (((Suggestion.manual category message).fixedBy kind hint).rated impact)

end Outcome

end SourceAudit

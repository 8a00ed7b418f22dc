/-
Module: SourceAudit.Rule.Html
Layer: Rules
Purpose: The rule for HTML files: the findings of the validation become issues, and those that a
  fix mends become suggestions as well.
Main exports: Html.rules, Html.outcomesOf
-/
import SourceAudit.Markup.Validate
import SourceAudit.Rule.Basic

namespace SourceAudit.Html

/-- The tag of an issue that comes from the validation. -/
def issueCode (category : String) : String :=
  "W3C_" ++ Text.str (category.toList.map fun c => if c = ' ' then '_' else c.toUpper)

/-- What is gained by mending a finding. -/
def impactOf : Markup.FindingKind → Impact
  | .error => .high
  | .warning => .medium
  | .suggestion => .low
  | .info => .low

/-- The suggestion for a finding that a fix mends. -/
def autofixOf (f : Markup.Finding) : List Outcome :=
  match f.fixKind with
  | some kind =>
    if f.autoFix then
      [.fixable (Text.of f.category).lower.str f.suggestion kind f.fixCode (impactOf f.kind)]
    else []
  | none => []

/-- The outcomes of a finding. -/
def outcomesOf (f : Markup.Finding) : List Outcome :=
  (match f.kind with
    | .error => [.error f.line f.message (issueCode f.category)]
    | .warning => [.warning f.line f.message (issueCode f.category)]
    | .suggestion | .info =>
      if f.autoFix then [] else [.suggestion (.manual "best-practice" f.suggestion)]) ++
    autofixOf f

/-- The validation as a rule. -/
def validation [Engine] : Rule := fun file => .ok <|
  let result := Markup.validate file.content
  (result.errors ++ result.warnings ++ result.suggestions).flatMap outcomesOf

/-- The rules for HTML files. -/
def rules [Engine] : List Rule := [validation]

end SourceAudit.Html

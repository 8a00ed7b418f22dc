/-
Module: SourceAudit.Rule.Basic
Layer: Rules
Purpose: What a rule sees of a file and what a rule is. A rule looks at the whole file at once and
  either reports outcomes or fails; a failing rule silences only itself.
Main exports: SourceView, SourceView.ofFile, SourceView.isJsxLike, Rule, Rule.outcomes
-/
import SourceAudit.Fault
import SourceAudit.Issue
import SourceAudit.Source.Basic

namespace SourceAudit

/-- A file as the rules see it. -/
structure SourceView where
  content : Text
  /-- The extension in lower case. -/
  extension : Text
  lines : List Text

namespace SourceView

/-- The view of a file with this name and text. -/
def ofFile (fileName : String) (content : Text) : SourceView :=
  ⟨content, extensionOf (Text.of fileName), content.lines⟩

/-- Whether the text imports from the React package. -/
def importsReact (content : Text) : Bool :=
  content.includes "from 'react'" || content.includes "from \"react\""

/-- Whether markup can be expected in the code: by the extension, or because React is imported. -/
def isJsxLike (file : SourceView) : Bool := isJsxExtension file.extension || importsReact file.content

end SourceView

/-- One rule category. -/
abbrev Rule := SourceView → Except Fault (List Outcome)

/-- What a list of rules reports about a file, in the order of the rules. -/
def Rule.outcomes (rules : List Rule) (file : SourceView) : List Outcome :=
  rules.flatMap fun rule => isolate (rule file)

end SourceAudit

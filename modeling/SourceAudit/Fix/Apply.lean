/-
Module: SourceAudit.Fix.Apply
Layer: Fixes
Purpose: The edit that each fix makes. Only the removal of unused imports can fail.
Main exports: FixKind.edit, applyFix
-/
import SourceAudit.Fix.Console
import SourceAudit.Fix.Imports
import SourceAudit.Fix.Lines
import SourceAudit.Fix.Markup
import SourceAudit.Fix.Script

namespace SourceAudit

/-- The edit of a fix, for a file with this name. -/
def FixKind.edit [Engine] (kind : FixKind) (fileName : String) (t : Text) : Except Fault Text :=
  match kind with
  | .removeConsoleLogs => .ok (Fix.removeConsoleCalls t)
  | .replaceVar => .ok (Fix.replaceVar t)
  | .addSemicolons => .ok (Fix.addSemicolons t)
  | .trimTrailingWhitespace => .ok (Fix.trimTrailingBlanks t)
  | .fixIndentation => .ok (Fix.fixIndentation t)
  | .removeUnusedImports => Fix.removeUnusedImports t
  | .addMissingKeys => .ok (Fix.addMissingKeys t)
  | .addViewportMeta => .ok (Fix.addViewportMeta t)
  | .removeCommentedCode => .ok (Fix.removeCommentedCode t)
  | .addAltAttributes => .ok (Fix.addAltAttributes t)
  | .replaceDeprecatedTags => .ok (Fix.replaceDeprecatedTags t)
  | .addDoctype => .ok (Fix.addDoctype t)
  | .extractInlineStyles => .ok (Fix.extractInlineStyles t)
  | .annotateNestedLoops => .ok (Fix.annotateNestedLoops t)
  | .extractMagicNumbers => .ok (Fix.extractMagicNumbers fileName t)
  | .addReactImport => .ok (Fix.addReactImport fileName t)
  | .addCharsetMeta => .ok (Fix.addCharsetMeta t)
  | .addHtmlLang => .ok (Fix.addHtmlLang t)
  | .stripVoidSlash => .ok (Fix.stripVoidSlash fileName t)

/-- The code after one fix. -/
def applyFix [Engine] (kind : FixKind) (fileName code : String) : Except Fault String :=
  (kind.edit fileName (Text.of code)).map Text.str

end SourceAudit

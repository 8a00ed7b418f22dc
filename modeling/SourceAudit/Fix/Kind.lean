/-
Module: SourceAudit.Fix.Kind
Layer: Domain
Purpose: The closed set of fixes, with the identifier of each, the shorter names it also
  answers to, and the way an untagged suggestion is matched to a rule by its wording.
Main exports: FixKind, FixKind.all, FixKind.id, FixKind.ofId?, FixKind.infer?
-/
import SourceAudit.Text.Basic

namespace SourceAudit

/-- The fixes. -/
inductive FixKind where
  | removeConsoleLogs
  | replaceVar
  | addSemicolons
  | trimTrailingWhitespace
  | fixIndentation
  | removeUnusedImports
  | addMissingKeys
  | addViewportMeta
  | removeCommentedCode
  | addAltAttributes
  | replaceDeprecatedTags
  | addDoctype
  | extractInlineStyles
  | annotateNestedLoops
  | extractMagicNumbers
  | addReactImport
  | addCharsetMeta
  | addHtmlLang
  | stripVoidSlash
deriving DecidableEq, Repr

namespace FixKind

/-- Every rule, in the order of precedence used when a rule has to be guessed. -/
def all : List FixKind :=
  [.removeConsoleLogs, .replaceVar, .addSemicolons, .trimTrailingWhitespace, .fixIndentation,
    .removeUnusedImports, .addMissingKeys, .addViewportMeta, .removeCommentedCode,
    .addAltAttributes, .replaceDeprecatedTags, .addDoctype, .extractInlineStyles,
    .annotateNestedLoops, .extractMagicNumbers, .addReactImport, .addCharsetMeta, .addHtmlLang,
    .stripVoidSlash]

/-- The stable identifier. -/
def id : FixKind → String
  | .removeConsoleLogs => "remove-console-logs"
  | .replaceVar => "replace-var"
  | .addSemicolons => "add-semicolons"
  | .trimTrailingWhitespace => "trim-trailing-whitespace"
  | .fixIndentation => "fix-indentation"
  | .removeUnusedImports => "remove-unused-imports"
  | .addMissingKeys => "add-missing-keys"
  | .addViewportMeta => "add-viewport-meta"
  | .removeCommentedCode => "remove-commented-code"
  | .addAltAttributes => "add-alt-attributes"
  | .replaceDeprecatedTags => "replace-deprecated-tags"
  | .addDoctype => "add-doctype"
  | .extractInlineStyles => "extract-inline-styles"
  | .annotateNestedLoops => "annotate-nested-loops"
  | .extractMagicNumbers => "extract-magic-numbers"
  | .addReactImport => "add-react-import"
  | .addCharsetMeta => "add-charset-meta"
  | .addHtmlLang => "add-html-lang"
  | .stripVoidSlash => "strip-void-slash"

/-- The shorter names a rule also answers to. -/
def aliases : FixKind → List String
  | .removeConsoleLogs => ["console", "consoles", "console-log"]
  | .replaceVar => ["var", "var-to-let"]
  | .addSemicolons => ["semicolons", "semi"]
  | .trimTrailingWhitespace => ["whitespace", "trailing-whitespace"]
  | .fixIndentation => ["indent", "indentation"]
  | .removeUnusedImports => ["imports", "unused-imports"]
  | .addMissingKeys => ["keys", "react-keys"]
  | .addViewportMeta => ["viewport"]
  | .removeCommentedCode => ["comments", "commented-code"]
  | .addAltAttributes => ["alt"]
  | .replaceDeprecatedTags => ["deprecated", "deprecated-tags"]
  | .addDoctype => ["doctype"]
  | .extractInlineStyles => ["inline-styles", "styles"]
  | .annotateNestedLoops => ["nested-loops", "loops"]
  | .extractMagicNumbers => ["magic-numbers", "constants"]
  | .addReactImport => ["react", "react-import"]
  | .addCharsetMeta => ["charset"]
  | .addHtmlLang => ["lang"]
  | .stripVoidSlash => ["void-slash", "trailing-slash"]

/-- The rule with an identifier or shorter name, read without the blanks around it and in any
    case. -/
def ofId? (id : String) : Option FixKind :=
  let wanted := (Text.of id).trim.lower.str
  all.find? fun kind => kind.id == wanted || kind.aliases.contains wanted

/-- Whether a suggestion without a rule asks for this one, judged by its category, its message and
    its hint. -/
def answers (category : String) (message hint : Text) : FixKind → Bool
  | .removeConsoleLogs => hint.includes "console.log"
  | .replaceVar => hint.includes "var with const/let"
  | .addSemicolons => category == "syntax" && message.includes "semicolon"
  | .trimTrailingWhitespace => category == "formatting"
  | .fixIndentation => message.includes "indentation"
  | .removeUnusedImports => message.includesAny ["unused import", "Unused import"]
  | .addMissingKeys => message.includes "key"
  | .addViewportMeta => hint.includes "viewport meta tag"
  | .removeCommentedCode => message.includes "Commented out code"
  | .addAltAttributes =>
    message.includes "alt" || hint.includes "alt" || message.includes "Image missing"
  | .replaceDeprecatedTags => message.includes "Deprecated" || hint.includes "deprecated"
  | .addDoctype => message.includes "DOCTYPE" || hint.includes "DOCTYPE"
  | .extractInlineStyles => message.includes "Inline styles" || hint.includes "inline styles"
  | .annotateNestedLoops => message.includes "Nested loops" || hint.includes "nested loops"
  | .extractMagicNumbers => message.includes "Magic numbers" || hint.includes "magic numbers"
  | .addReactImport => message.includes "Missing React import" || hint.includes "React import"
  | .addCharsetMeta => message.includes "charset" || hint.includes "charset"
  | .addHtmlLang => message.includes "lang attribute" || hint.includes "lang attribute"
  | .stripVoidSlash => message.includes "trailing slash" || hint.includes "trailing slash"

/-- The first rule, in order of precedence, that a suggestion without a rule asks for. -/
def infer? (category message : String) (hint : Option String) : Option FixKind :=
  all.find? (answers category message.toList (hint.getD "").toList)

end FixKind

end SourceAudit

/-
Module: SourceAudit.Source.Language
Layer: Domain
Purpose: The languages that files are counted under, by extension.
Main exports: Language, Language.name, Language.ofName?
-/
import SourceAudit.Source.Basic

namespace SourceAudit

/-- A language that lines are counted under. -/
inductive Language where
  | javaScript | jsx | typeScript | tsx | css | html | json | python | php | solidity | vue | svelte
  | rust | markdown | plainText | go | java | c | ruby | shell | toml | yaml | sass
deriving DecidableEq, Repr

namespace Language

/-- The display name. -/
def name : Language → String
  | .javaScript => "JavaScript"
  | .jsx => "JSX"
  | .typeScript => "TypeScript"
  | .tsx => "TSX"
  | .css => "CSS"
  | .html => "HTML"
  | .json => "JSON"
  | .python => "Python"
  | .php => "PHP"
  | .solidity => "Solidity"
  | .vue => "Vue"
  | .svelte => "Svelte"
  | .rust => "Rust"
  | .markdown => "Markdown"
  | .plainText => "Plain Text"
  | .go => "Go"
  | .java => "Java"
  | .c => "C"
  | .ruby => "Ruby"
  | .shell => "Shell"
  | .toml => "TOML"
  | .yaml => "YAML"
  | .sass => "Sass"

/-- The language of an extension. -/
def table : List (String × Language) :=
  [("js", .javaScript), ("mjs", .javaScript), ("jsx", .jsx), ("ts", .typeScript), ("tsx", .tsx),
    ("css", .css), ("html", .html), ("htm", .html), ("json", .json), ("py", .python),
    ("php", .php), ("sol", .solidity), ("vue", .vue), ("svelte", .svelte), ("rs", .rust),
    ("md", .markdown), ("txt", .plainText), ("go", .go), ("java", .java), ("c", .c), ("rb", .ruby),
    ("sh", .shell), ("toml", .toml), ("yml", .yaml), ("scss", .sass)]

/-- The language of a file, by its extension. -/
def ofName? (fileName : String) : Option Language := table.lookup (extensionOf (Text.of fileName)).str

end Language

end SourceAudit

/-
Module: SourceAudit.Imports.Statement
Layer: Import graph
Purpose: Import and export statements as they are read from a text, and the local names an import
  binds.
Main exports: ImportSpec.localBindings, importStatements, exportedNames, unusedImportsOf
-/
import SourceAudit.Deep.Finding
import SourceAudit.Rule.Script
import SourceAudit.Text.WholeWord

namespace SourceAudit

open Pattern

/-- The local names an import binds: the default name first, then the named ones by their
    aliases. -/
def ImportSpec.localBindings (i : ImportSpec) : List Text :=
  (i.default.toList.map Text.of) ++ i.named.map fun entry => localBinding (Text.of entry)

/-- An import; group 1 is the list in braces, group 2 the default name and group 3 the source. -/
def importStatement : Pattern :=
  text "import" ++ gap ++
    ((text "\x7b" ++ group 1 (many1 (noneOf "\x7d")) ++ text "\x7d") ||| group 2 name) ++ gap ++
    text "from" ++ gap ++ quote ++ group 3 (many1 (noneOf "'\"")) ++ quote

/-- An exported declaration; group 1 is its name. -/
def exportStatement : Pattern :=
  text "export" ++ gap ++ perhaps (text "default" ++ gap) ++
    anyOf [text "const", text "function", text "class"] ++ gap ++ group 1 name

/-- The entries of a list in braces, trimmed and without empty ones. -/
def importEntries (list : Text) : List String :=
  (((list.pieces (· == ',')).map Text.trim).filter fun entry => !entry.isEmpty).map Text.str

/-- The import that a match stands for. -/
def ImportSpec.ofHit (hit : Hit) : ImportSpec where
  named := importEntries (hit.groupChars 1)
  default := (hit.group? 2).map fun span => span.chars.str
  source := (hit.groupChars 3).str

/-- The imports of a text, in order. -/
def importStatements (t : Text) : List ImportSpec := (importStatement.findAll t).map ImportSpec.ofHit

/-- The names of the exported declarations, in order. -/
def exportedNames (t : Text) : List String :=
  (exportStatement.findAll t).map fun hit => (hit.groupChars 1).str

/-- The imported names that are mentioned only once in the file. -/
def unusedImportsOf [Engine] (fileName : String) (t : Text) (imports : List ImportSpec) :
    Except Fault (List UnusedImport) := do
  let words := t.wordIndex
  let found ← imports.mapM fun i => do
    let names ← i.localBindings.mapM fun name => do
      let n ← words.countWord name
      return if n = 1 then [UnusedImport.mk fileName name.str i.source] else []
    return names.flatten
  return found.flatten

end SourceAudit

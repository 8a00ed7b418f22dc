/-
Module: SourceAudit.Fix.Imports
Layer: Fixes
Purpose: Fixes of import lines: those that bind only names mentioned nowhere in the rest of the
  file are dropped, and the React import is put in front of the first one.
Main exports: importBindings?, removeUnusedImports, addReactImport
-/
import SourceAudit.Rule.Script

namespace SourceAudit.Fix

open Pattern in
/-- An import line with a source; group 1 is what it binds. -/
def importClause : Pattern :=
  .edge .textStart ++ blanks ++ text "import" ++ gap ++ perhaps (text "type" ++ gap) ++
    group 1 (.fewest (noneOf "\n") 1) ++ gap ++ text "from" ++ gap ++ quote

open Pattern in
/-- A list in braces; group 1 is what stands between them. -/
def namedClause : Pattern := text "\x7b" ++ group 1 (many (noneOf "\x7d")) ++ text "\x7d"

/-- The text without `start` at its beginning, however often it stands there. -/
def stripLeading (start : Text) : (fuel : Nat) → Text → Text
  | 0, t => t
  | fuel + 1, t => if t.startsWith start then stripLeading start fuel (t.drop start.length) else t

/-- The names bound by a list in braces. -/
def namedBindings (entries : Text) : List Text :=
  ((entries.pieces (· == ',')).map fun entry =>
    let name := localBinding entry
    (stripLeading "type " name.length name).trim).filter fun name => !name.isEmpty

/-- The names bound outside braces: a default name or an alias of everything. -/
def plainBindings (clause : Text) : List Text :=
  ((clause.pieces (· == ',')).map fun part => localBinding part.trim).filter fun name => !name.isEmpty

/-- The local names bound by an import line, or nothing for a line that is no such import. -/
def importBindings? (line : Text) : Option (List Text) :=
  match importClause.find line with
  | none => none
  | some hit =>
    let clause := hit.groupChars 1
    match namedClause.find clause with
    | some named =>
      let outside := splice clause 0 [(named, [])]
      some (namedBindings (named.groupChars 1) ++ plainBindings outside)
    | none => some (plainBindings clause)

/-- Whether a line starts, after blanks, with the import keyword. -/
def isImportLine (line : Text) : Bool := line.trimStart.startsWith "import "

/-- Whether one of the names is mentioned in the text. -/
def mentionsAny [Engine] (body : WordIndex) : List Text → Except Fault Bool
  | [] => .ok false
  | name :: names => do
    let n ← body.countWord name
    if 0 < n then return true else mentionsAny body names

/-- Whether a line is to be kept: it is no import, binds nothing, or binds a name that is
    mentioned. -/
def keepsImport [Engine] (body : WordIndex) (line : Text) : Except Fault Bool :=
  match importBindings? line with
  | none => .ok true
  | some [] => .ok true
  | some names => mentionsAny body names

/-- The lines to be kept. -/
def keptLines [Engine] (body : WordIndex) : List Text → Except Fault (List Text)
  | [] => .ok []
  | line :: lines => do
    let keep ← keepsImport body line
    let rest ← keptLines body lines
    return if keep then line :: rest else rest

/-- The text without the imports that are not used in its other lines. -/
def removeUnusedImports [Engine] (t : Text) : Except Fault Text := do
  let body := Text.unlines (t.lines.filter fun line => !isImportLine line)
  let kept ← keptLines body.wordIndex t.lines
  return Text.unlines kept

/-- The import that markup in script code needs. -/
def reactImportLine : Text := "import React from 'react';"

/-- The React import before the first import, or in front of everything. -/
def addReactImport (fileName : String) (t : Text) : Text :=
  let jsxLike := isJsxExtension (extensionOf (Text.of fileName)) || SourceView.importsReact t
  if !jsxLike || t.includes "import React" then t
  else
    let n := (t.lines.findIdx? isImportLine).getD 0
    Text.unlines (t.lines.take n ++ reactImportLine :: t.lines.drop n)

end SourceAudit.Fix

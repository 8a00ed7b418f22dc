/-
Module: SourceAudit.Fix.Lines
Layer: Fixes
Purpose: The fixes that go line by line: newer declaration keywords, semicolons, blanks at line
  ends, indentation by nesting, and lines of code left in comments. A carriage return at the end of a
  line stays where it is.
Main exports: mapLines, replaceVar, addSemicolons, trimTrailingBlanks, fixIndentation,
  removeCommentedCode
-/
import SourceAudit.Rule.Universal

namespace SourceAudit.Fix

/-- A line edited apart from one carriage return at its end. -/
def editLine (edit : Text → Text) (line : Text) : Text :=
  edit line.splitReturn.1 ++ line.splitReturn.2

/-- Every line edited. -/
def mapLines (edit : Text → Text) (t : Text) : Text :=
  Text.unlines (t.lines.map (editLine edit))

/-- The dated keyword in a declaration; group 1 is what follows it. -/
def varKeyword : Pattern := .wordEdge ++ .text "var" ++ .group 1 (.gap ++ .one isNameStart)

/-- The line with the dated keyword replaced: by the one for variables if there is an equals sign,
    else by the one for constants. -/
def replaceVarInLine (line : Text) : Text :=
  let keyword : Text := if line.contains '=' then "let" else "const"
  varKeyword.replaceAll (fun hit => keyword ++ hit.groupChars 1) line

/-- Newer declaration keywords. -/
def replaceVar (t : Text) : Text := mapLines replaceVarInLine t

/-- Whether a trimmed line is a statement that its author has left without a semicolon. -/
def lacksSemicolon (trimmed : Text) : Bool :=
  !trimmed.isEmpty &&
    trimmed.includesAny ["return ", "const ", "let ", "var "] &&
    !trimmed.endsWithOneOf
      [';', '{', '}', ',', '(', '[', '=', '>', '+', '-', '&', '|', '?', ':'] &&
    !(trimmed.startsWith "//" || trimmed.startsWith "/*" || trimmed.startsWith "*") &&
    !trimmed.includesAny ["import ", "export "]

/-- The line with the semicolon it lacks. -/
def addSemicolonToLine (line : Text) : Text :=
  if lacksSemicolon line.trim then line.trimEnd ++ ";" else line

/-- Semicolons after declarations and returns. -/
def addSemicolons (t : Text) : Text := mapLines addSemicolonToLine t

/-- No blanks at line ends. -/
def trimTrailingBlanks (t : Text) : Text := mapLines Text.trimEnd t

/-- The level of a trimmed line, given the level before it: a closing bracket in front takes one
    off. -/
def lineLevel (level : Nat) (trimmed : Text) : Nat :=
  if trimmed.startsWithOneOf ['}', ']', ')'] then level - 1 else level

/-- A trimmed line at its level, two spaces for each; a blank line has no indentation. -/
def indentedLine (level : Nat) (trimmed : Text) : Text :=
  if trimmed.isEmpty then [] else List.replicate (2 * level) ' ' ++ trimmed

/-- The level after a trimmed line, given its own level: an opening bracket at its end adds one. -/
def nextLevel (level : Nat) (trimmed : Text) : Nat :=
  if trimmed.endsWithOneOf ['{', '[', '('] then level + 1 else level

/-- The lines indented one after the other, starting at a level; `done` holds those before them,
    backwards. -/
def indentLines (level : Nat) (done : List Text) : (lines : List Text) → List Text
  | [] => done.reverse
  | line :: lines =>
    let trimmed := line.splitReturn.1.trim
    let own := lineLevel level trimmed
    indentLines (nextLevel own trimmed) ((indentedLine own trimmed ++ line.splitReturn.2) :: done) lines

/-- Indentation by nesting. -/
def fixIndentation (t : Text) : Text := Text.unlines (indentLines 0 [] t.lines)

/-- No lines of code in comments. -/
def removeCommentedCode (t : Text) : Text :=
  Text.unlines (t.lines.filter fun line => !isCommentedCode line)

end SourceAudit.Fix

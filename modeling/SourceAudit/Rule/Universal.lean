/-
Module: SourceAudit.Rule.Universal
Layer: Rules
Purpose: The rules for files of every family: leftover debugging, dated declarations, open tasks,
  size, branching, nesting, unexplained numbers, repetition, nested loops, dead code, long functions
  and parameter lists, and stray blanks at line ends.
Main exports: Universal.rules, isCommentedCode, magicNumbers, hasTrailingBlank
-/
import SourceAudit.Pattern.Build
import SourceAudit.Repetition
import SourceAudit.Rule.Basic
import SourceAudit.Text.Line

namespace SourceAudit

/-- Whether a line is a comment that reads like code. -/
def isCommentedCode (line : Text) : Bool :=
  line.trim.startsWith "//" &&
    line.trim.includesAny ["function", "const", "let", "var", "=", "return"]

/-- A number of at least two digits that stands as a word of its own. -/
def numberPattern : Pattern := .wordEdge ++ .most isDecimalDigit 2 ++ .wordEdge

/-- Numbers that need no explanation. -/
def plainNumbers : List String := ["0", "1", "2", "10", "100", "1000"]

/-- The unexplained numbers of a text, in order and with repetition. -/
def magicNumbers (t : Text) : List Text :=
  ((numberPattern.findAll t).map Hit.chars).filter fun n => !(plainNumbers.map Text.of).contains n

/-- Whether a line, apart from one carriage return, ends in a space or a tab. -/
def hasTrailingBlank (line : Text) : Bool := line.splitReturn.1.endsWithOneOf [' ', '\t']

namespace Universal

open Pattern

/-- A declaration with the dated keyword. -/
def varDeclaration : Pattern := wordEdge ++ text "var" ++ gap ++ .one isNameStart

/-- A loop whose body reaches another loop before any closing brace. -/
def nestedLoop : Pattern :=
  text "for" ++ blanks ++ text "(" ++ many (noneOf ")") ++ text ")" ++ many (noneOf "\x7b") ++
    text "\x7b" ++ many (noneOf "\x7d") ++ text "for" ++ blanks ++ text "("

/-- A named function up to the first brace that closes at the start of a line. -/
def functionBlock : Pattern :=
  text "function" ++ gap ++ name ++ blanks ++ text "(" ++ many (noneOf ")") ++ text ")" ++ blanks ++
    text "\x7b" ++ leap ++ text "\n\x7d"

/-- An arrow function bound to a constant, up to the first brace that closes at the start of a
    line. -/
def arrowBlock : Pattern :=
  text "const" ++ gap ++ name ++ blanks ++ text "=" ++ blanks ++ text "(" ++ many (noneOf ")") ++
    text ")" ++ blanks ++ text "=>" ++ blanks ++ text "\x7b" ++ leap ++ text "\n\x7d"

/-- A keyword that branches. -/
def branch : Pattern :=
  anyOf [text "if" ++ blanks ++ text "(", text "else", text "for" ++ blanks ++ text "(",
    text "while" ++ blanks ++ text "(", text "switch" ++ blanks ++ text "("]

/-- The start of a function declaration. -/
def functionStart : Pattern :=
  (text "function" ++ gap ++ name) ||| (text "const" ++ gap ++ name ++ blanks ++ text "=" ++ blanks ++ text "(")

/-- A parameter list of fifty characters or more. -/
def longParameterList : Pattern :=
  text "function" ++ gap ++ name ++ blanks ++ text "(" ++ .most (noneOf ")") 50 ++ text ")"

/-- Leftover logging. -/
def debugStatements : Rule := fun file => .ok <|
  if file.content.includes "console.log" then
    [.warning (file.content.lineHolding "console.log")
        "console.log() found - should be removed in production" "CONSOLE_LOG",
      .fixable "optimization" "Remove console.log statements or use a proper logging library"
        .removeConsoleLogs "Remove all console.log statements" .low]
  else []

/-- Dated declarations. -/
def varUsage : Rule := fun file => .ok <|
  match varDeclaration.find file.content with
  | some hit =>
    [.warning (file.content.lineAt hit.offset) "Using \"var\" instead of \"let\" or \"const\"" "USE_VAR",
      .fixable "modernization" "Replace \"var\" with \"const\" or \"let\" for better scoping"
        .replaceVar "Replace var with const/let" .medium]
  | none => []

/-- Open tasks left in the text. -/
def todoComments : Rule := fun file => .ok <|
  match file.lines.findIdx? fun line => line.includes "TODO" || line.includes "FIXME" with
  | some i => [.info (i + 1) "TODO/FIXME comment found" "TODO_COMMENT"]
  | none => []

/-- Files of more than three hundred lines. -/
def fileLength : Rule := fun file => .ok <|
  let n := file.lines.length
  if 300 < n then
    [.advice "maintainability"
      s!"Large file ({n} lines). Consider splitting into smaller, focused modules" .medium]
  else []

/-- More than twenty branches. -/
def complexity : Rule := fun file => .ok <|
  if 20 < branch.count file.content then
    [.advice "complexity"
      "High cyclomatic complexity. Consider simplifying logic or using pattern matching" .high]
  else []

/-- The deepest nesting of a text, with two blanks of indentation for a level. -/
def nestingLevel (lines : List Text) : Nat :=
  ((lines.filter fun line => !line.isBlankText).map fun line => line.indentation.length / 2).foldl max 0

/-- Nesting beyond five levels. -/
def nestingDepth : Rule := fun file => .ok <|
  let depth := nestingLevel file.lines
  if 5 < depth then
    [.advice "complexity"
      s!"Deep nesting detected (level {depth}). Consider early returns or extracting functions" .medium]
  else []

/-- Three or more unexplained numbers. -/
def unexplainedNumbers : Rule := fun file => .ok <|
  if (magicNumbers file.content).length < 3 then []
  else
    [.fixable "readability"
      "Magic numbers found. Consider using named constants for better code clarity"
      .extractMagicNumbers "Extract magic numbers to constants" .medium]

/-- Long lines that occur more than twice. -/
def duplicateLines : Rule := fun file => .ok <|
  let long := (file.lines.map Text.trim).filter fun line => 30 ≤ line.length
  let counts := Frequencies.of long
  if long.any fun line => 2 < counts.count line then
    [.advice "maintainability"
      "Duplicate code detected. Consider extracting into reusable functions or components" .medium]
  else []

/-- Loops in loops. -/
def nestedLoops : Rule := fun file => .ok <|
  if nestedLoop.occurs file.content then
    [.fixable "performance"
      "Nested loops detected. Consider optimizing with Map, Set, or single-pass algorithms"
      .annotateNestedLoops "Add optimization comment for nested loops" .high]
  else []

/-- More than three lines of code left in comments. -/
def commentedCode : Rule := fun file => .ok <|
  if 3 < (file.lines.filter isCommentedCode).length then
    [.fixable "cleanliness" "Commented out code found. Remove dead code to keep codebase clean"
      .removeCommentedCode "Remove commented out code" .low]
  else []

/-- Functions of more than fifty lines, named ones first. -/
def longFunctions : Rule := fun file => .ok <|
  let sizes := (functionBlock.findAll file.content ++ arrowBlock.findAll file.content).map
    fun hit => hit.chars.lines.length
  (sizes.filter (50 < ·)).map fun n =>
    .advice "maintainability"
      s!"Long function detected ({n} lines). Consider breaking into smaller functions for better readability"
      .high

/-- Long parameter lists. -/
def longParameters : Rule := fun file => .ok <|
  if longParameterList.occurs file.content then
    [.advice "maintainability"
      "Long parameter list detected. Consider using object destructuring or parameter objects" .medium]
  else []

/-- More than ten functions. -/
def functionCount : Rule := fun file => .ok <|
  if 10 < functionStart.count file.content then
    [.advice "maintainability" "Consider breaking down large functions into smaller ones" .medium]
  else []

/-- More than three lines with blanks at their end. -/
def trailingBlanks : Rule := fun file => .ok <|
  let n := (file.lines.filter hasTrailingBlank).length
  if 3 < n then
    [.fixable "formatting" s!"Trailing whitespace found on {n} lines"
      .trimTrailingWhitespace "Remove trailing whitespace" .low]
  else []

/-- The rules for every family, in the order they report. -/
def rules : List Rule :=
  [debugStatements, varUsage, todoComments, fileLength, complexity, nestingDepth,
    unexplainedNumbers, duplicateLines, nestedLoops, commentedCode, longFunctions, longParameters,
    functionCount, trailingBlanks]

end Universal

end SourceAudit

/-
Module: SourceAudit.Rule.Backend
Layer: Rules
Purpose: The rules for Python, PHP, Solidity and Vue files.
Main exports: Python.rules, Php.rules, Solidity.rules, Vue.rules
-/
import SourceAudit.Pattern.Build
import SourceAudit.Rule.Basic
import SourceAudit.Text.Line

namespace SourceAudit

open Pattern

namespace Python

/-- A call of the print function. -/
def printCall : Pattern := wordEdge ++ text "print" ++ blanks ++ text "("

/-- A loop over the indices of a sequence. -/
def rangeLen : Pattern :=
  wordEdge ++ text "range" ++ blanks ++ text "(" ++ blanks ++ text "len" ++ blanks ++ text "("

/-- A comparison with None by equality. -/
def noneComparison : Pattern := .one (oneOf "=!") ++ text "=" ++ blanks ++ text "None" ++ wordEdge

/-- Printing instead of logging. -/
def printing : Rule := fun file => .ok <|
  match printCall.find file.content with
  | some hit =>
    [.warning (file.content.lineAt hit.offset) "print() found - use the logging module instead"
        "PY_PRINT",
      .advice "optimization" "Replace print() debugging with the logging module" .low]
  | none => []

/-- Loops over indices. -/
def indexLoops : Rule := fun file => .ok <|
  match rangeLen.find file.content with
  | some hit =>
    [.warning (file.content.lineAt hit.offset) "range(len(...)) iteration - use enumerate() instead"
        "PY_RANGE_LEN",
      .advice "modernization" "Iterate with enumerate() instead of range(len(...))" .low]
  | none => []

/-- Comparisons with None. -/
def noneComparisons : Rule := fun file => .ok <|
  match noneComparison.find file.content with
  | some hit =>
    [.warning (file.content.lineAt hit.offset) "Comparison to None with == - use \"is None\" instead"
      "PY_NONE_COMPARISON"]
  | none => []

/-- The rules for Python files. -/
def rules : List Rule := [printing, indexLoops, noneComparisons]

end Python

namespace Php

/-- A call that ends the program. -/
def dieCall : Pattern := wordEdge ++ (text "die" ||| text "exit") ++ blanks ++ text "("

/-- The removed database function. -/
def mysqlQuery : Rule := fun file => .ok <|
  if file.content.includes "mysql_query" then
    [.error (file.content.lineHolding "mysql_query")
        "mysql_query() is removed and prone to SQL injection" "PHP_MYSQL_QUERY",
      .advice "security" "Use PDO or mysqli with prepared statements" .high]
  else []

/-- Calls that end the program. -/
def dieExit : Rule := fun file => .ok <|
  match dieCall.find file.content with
  | some hit =>
    [.warning (file.content.lineAt hit.offset)
      "die()/exit() used - prefer exceptions and proper error handling" "PHP_DIE_EXIT"]
  | none => []

/-- Files without the opening tag. -/
def openTag : Rule := fun file => .ok <|
  if file.content.includes "<?php" then []
  else [.error 1 "Missing opening <?php tag" "PHP_MISSING_OPEN_TAG"]

/-- The rules for PHP files. -/
def rules : List Rule := [mysqlQuery, dieExit, openTag]

end Php

namespace Solidity

/-- A function; group 1 is what stands between its parameters and its body. -/
def functionHeader : Pattern :=
  wordEdge ++ text "function" ++ gap ++ name ++ blanks ++ text "(" ++ many (noneOf ")") ++ text ")" ++
    group 1 (many (noneOf "\x7b;"))

/-- A word that says who may call. -/
def visibilityWord : Pattern :=
  wordEdge ++ anyOf [text "public", text "private", text "internal", text "external"] ++ wordEdge

/-- Files that do not fix the version of the compiler. -/
def compilerVersion : Rule := fun file => .ok <|
  if file.content.includes "pragma solidity" then []
  else
    [.error 1 "Missing \"pragma solidity\" version directive" "SOL_MISSING_PRAGMA",
      .advice "security" "Pin the compiler version with a pragma solidity directive" .high]

/-- Functions that do not say who may call them. -/
def visibility : Rule := fun file => .ok <|
  let lines := file.content.lineIndex
  ((functionHeader.findAll file.content).filter fun hit =>
    !visibilityWord.occurs (hit.groupChars 1)).map fun hit =>
      .warning (lines.lineAt hit.offset)
        "Function declared without explicit visibility modifier" "SOL_NO_VISIBILITY"

/-- The rules for Solidity files. -/
def rules : List Rule := [compilerVersion, visibility]

end Solidity

namespace Vue

/-- An element that is repeated. -/
def forTag : Pattern :=
  text "<" ++ many (noneOf ">") ++ wordEdge ++ text "v-for" ++ blanks ++ text "=" ++
    many (noneOf ">") ++ text ">"

/-- A key binding. -/
def keyBinding : Pattern :=
  ((.one isBlank ++ text ":") ||| (wordEdge ++ text "v-bind:")) ++ text "key" ++ blanks ++ text "="

/-- A condition on an element. -/
def ifBinding : Pattern := wordEdge ++ text "v-if" ++ blanks ++ text "="

/-- Repeated elements without a key. -/
def forKey : Rule := fun file => .ok <|
  let lines := file.content.lineIndex
  ((forTag.findAll file.content).filter fun tag => !keyBinding.occurs tag.chars).map fun tag =>
    .warning (lines.lineAt tag.offset) "v-for without :key binding" "VUE_MISSING_KEY"

/-- Repetition and condition on one element. -/
def ifWithFor : Rule := fun file => .ok <|
  if (forTag.findAll file.content).any fun tag => ifBinding.occurs tag.chars then
    [.advice "performance"
      "Avoid v-if and v-for on the same element; filter the list in a computed property" .medium]
  else []

/-- The rules for Vue files. -/
def rules : List Rule := [forKey, ifWithFor]

end Vue

end SourceAudit

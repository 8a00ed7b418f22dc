/-
Module: SourceAudit.Deep.Semantics
Layer: Deep analysis
Purpose: Balance of brackets, use of declared names, and type annotations.
Main exports: syntaxErrors, semanticIssues, constReassignment?, typeSafety
-/
import SourceAudit.Deep.Finding
import SourceAudit.Pattern.Build
import SourceAudit.Text.Line
import SourceAudit.Text.WholeWord

namespace SourceAudit

open Pattern

/-- A pair of brackets that do not occur equally often. -/
def mismatch (t : Text) (opening closing : Char) (label : String) : List Finding :=
  let n := t.count opening
  let m := t.count closing
  if n = m then []
  else [⟨.syntaxError, none, .critical, s!"Mismatched {label}: {n} opening, {m} closing", 1⟩]

/-- Braces and parentheses that do not balance. -/
def syntaxErrors (t : Text) : List Finding :=
  mismatch t '{' '}' "curly braces" ++ mismatch t '(' ')' "parentheses"

/-- A declaration; group 1 is the name. -/
def declaration : Pattern :=
  wordEdge ++ anyOf [text "const", text "let", text "var"] ++ gap ++ group 1 name

/-- The declaration of a constant; group 1 is the name. -/
def constDeclaration : Pattern :=
  wordEdge ++ text "const" ++ gap ++ group 1 name ++ blanks ++ text "="

/-- A comparison with null or undefined that converts types. -/
def looseNullTest : Pattern :=
  ((.edge .lineStart ||| .one (noneOf "=!")) ++ text "==" ++ blanks ++
      (text "null" ||| text "undefined") ++ wordEdge) |||
    (wordEdge ++ (text "null" ||| text "undefined") ++ blanks ++ text "==" ++
      (.one (noneOf "=") ||| .edge .lineEnd))

/-- Whether an equals sign after a name assigns to it: it is no comparison and no arrow, and no
    declaration stands before the name. -/
def isAssignment (candidate : Hit) : Bool :=
  let past := candidate.whole.start.behind.dropWhile isBlank
  !Text.startsWithOneOf candidate.whole.stop.ahead ['=', '>'] &&
    ["const", "let", "var"].all fun keyword => !Text.startsWith past (Text.of keyword).reverse

/-- The position of the first assignment to a constant after its declaration. -/
def reassignmentAfter? (hit : Hit) : Option Nat :=
  let assignment := wordEdge ++ chars (hit.groupChars 1) ++ blanks ++ text "="
  ((assignment.findAll hit.whole.stop.ahead).find? isAssignment).map fun candidate =>
    hit.whole.stop.offset + candidate.offset

/-- The position of the first assignment found to a declared constant, constants in order. Those behind
    it are not looked at. -/
def firstReassignment? [Engine] : List Hit → Except Fault (Option Nat)
  | [] => .ok none
  | hit :: hits =>
    if Engine.accepts (.assignment (hit.groupChars 1)) then
      match reassignmentAfter? hit with
      | some n => .ok (some n)
      | none => firstReassignment? hits
    else .error .patternTooLarge

/-- The declarations whose names are not in `seen`, each name at its first one only. What follows a
    later declaration of a name also follows the first. -/
def firstDeclarations : (seen : List Text) → List Hit → List Hit
  | _, [] => []
  | seen, hit :: hits =>
    let name := hit.groupChars 1
    if seen.contains name then firstDeclarations seen hits
    else hit :: firstDeclarations (name :: seen) hits

/-- The position of the first assignment found to a constant, constants in the order of their
    declarations. -/
def constReassignment? [Engine] (t : Text) : Except Fault (Option Nat) :=
  firstReassignment? (firstDeclarations [] (constDeclaration.findAll t))

/-- Declared names that are mentioned only once. -/
def unusedDeclarations [Engine] (t : Text) : Except Fault (List Finding) := do
  let words := t.wordIndex
  let found ← (declaration.findAll t).mapM fun hit => do
    let n ← words.countWord (hit.groupChars 1)
    if n = 1 then
      let shown := (hit.groupChars 1).str
      return [Finding.mk .semanticWarning none .low s!"Variable \"{shown}\" is declared but never used"
        (t.lineHolding hit.chars)]
    else return []
  return found.flatten

/-- Names that are never used, constants that are assigned to, and loose comparisons. -/
def semanticIssues [Engine] (t : Text) : Except Fault (List Finding) := do
  let unused ← unusedDeclarations t
  let reassigned :=
    match ← constReassignment? t with
    | some n =>
      [Finding.mk .semanticError none .high "Attempting to reassign const variable" (t.lineAt n)]
    | none => []
  let loose :=
    match looseNullTest.find t with
    | some hit =>
      [Finding.mk .semanticWarning none .medium "Use === instead of == for null/undefined checks"
        (t.lineAt hit.offset)]
    | none => []
  return unused ++ reassigned ++ loose

/-- A function with parameters. -/
def functionWithParameters : Pattern :=
  text "function" ++ gap ++ name ++ blanks ++ text "(" ++ many1 (noneOf ")") ++ text ")"

/-- Parameters without types, and the type that allows everything. -/
def typeSafety (t : Text) : List Finding :=
  let lines := t.lineIndex
  (((functionWithParameters.findAll t).filter fun hit => !hit.chars.contains ':').map fun hit =>
    Finding.mk .typeSafety none .medium "Function parameters missing type annotations"
      (lines.lineAt hit.offset)) ++
  (if t.includes ": any" then
    [⟨.typeSafety, none, .low, "Avoid using \"any\" type. Use specific types for better type safety",
      t.lineHolding ": any"⟩]
    else [])

end SourceAudit

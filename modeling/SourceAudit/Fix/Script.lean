/-
Module: SourceAudit.Fix.Script
Layer: Fixes
Purpose: The fixes of script code: keys for rendered lists, class names for inline styles, a note
  above inner loops, and named constants for unexplained numbers.
Main exports: addMissingKeys, extractInlineStyles, annotateNestedLoops, extractMagicNumbers
-/
import SourceAudit.Rule.Universal

namespace SourceAudit.Fix

open Pattern

/-- A list callback that returns an element; group 1 is its parameters and group 2 the tag. -/
def mapCallback : Pattern :=
  text ".map(" ++ blanks ++ text "(" ++ group 1 (many (noneOf ")")) ++ text ")" ++ blanks ++
    text "=>" ++ blanks ++ perhaps (text "(") ++ blanks ++ text "<" ++
    group 2 (.one isAsciiLetter ++ many fun c => isWordChar c || c == '.')

/-- Whether the element of a callback already has a key. -/
def hasKey (callback : Hit) : Bool :=
  Text.includes (callback.whole.stop.ahead.takeWhile (· != '>')) "key="

/-- The callback with a key on its element. The key is the second parameter; a callback with one
    parameter gains a second. -/
def keyedCallback (callback : Hit) : Text :=
  match callback.group? 1 with
  | none => callback.chars
  | some params =>
    let written := params.chars
    let parameters := (written.pieces (· == ',')).map Text.trim
    let key : Text :=
      match parameters with
      | _ :: second :: _ => if second.isEmpty then "index" else second
      | _ => "index"
    let parameterText : Text :=
      if parameters.length < 2 && !written.isBlankText then written.trim ++ ", index" else written
    Span.chars ⟨callback.whole.start, params.start⟩ ++ parameterText ++
      Span.chars ⟨params.stop, callback.whole.stop⟩ ++ " key=\x7b" ++ key ++ "\x7d"

/-- Keys on the elements of rendered lists. -/
def addMissingKeys (t : Text) : Text :=
  splice t 0
    (((mapCallback.findAll t).filter fun hit => !hasKey hit).map fun hit => (hit, keyedCallback hit))

/-- An inline style; group 1 is its declarations. -/
def inlineStyle : Pattern :=
  text "style=\x7b\x7b" ++ group 1 (many1 (noneOf "\x7d")) ++ text "\x7d\x7d"

/-- What the generated class names start with. -/
def extractedStyleStem : String := "extracted-style-"

/-- The generated class name with a number. -/
def styleClass (n : Nat) : Text := Text.of extractedStyleStem ++ Text.of (toString n)

/-- Inline styles moved into classes, which are collected in a comment in front. The numbers go on
    from the number of class names already there. -/
def extractInlineStyles (t : Text) : Text :=
  let used := (text extractedStyleStem).count t
  let found := (inlineStyle.findAll t).zipIdx used
  if found.isEmpty then t
  else
    let rules := found.map fun (hit, n) =>
      "." ++ styleClass n ++ " \x7b " ++ (hit.groupChars 1).trim ++ " \x7d"
    let code := splice t 0 (found.map fun (hit, n) => (hit, "className=\"" ++ styleClass n ++ "\""))
    "/* Extracted styles - move to CSS file:\n" ++ Text.unlines rules ++ "\n*/\n" ++ code

/-- The note that is put above an inner loop. -/
def nestedLoopNote : Text :=
  "// TODO: Consider optimizing this nested loop with Map/Set or single-pass algorithm"

/-- A loop up to the first inner loop before any closing brace; group 1 is the start of the inner
    one. -/
def innerLoop : Pattern :=
  text "for" ++ blanks ++ text "(" ++ many (noneOf ")") ++ text ")" ++ many (noneOf "\x7b") ++
    text "\x7b" ++ .fewest (noneOf "\x7d") 0 ++ group 1 (text "for" ++ blanks ++ text "(")

/-- The indices of the lines on which inner loops start. -/
def innerLoopLines (t : Text) : List Nat :=
  let lines := t.lineIndex
  (innerLoop.findAll t).filterMap fun hit =>
    (hit.group? 1).map fun inner => lines.lineAt inner.start.offset - 1

/-- The lines with a note above each of the targets, unless the line before is already the note.
    `done` holds the lines before them, backwards. -/
def annotateLines (targets : List Nat) (index : Nat) (previous : Option Text) (done : List Text) :
    (lines : List Text) → List Text
  | [] => done.reverse
  | line :: lines =>
    let noted := previous.any fun before => before.trim == nestedLoopNote
    let done :=
      if targets.contains index && !noted then (line.indentation ++ nestedLoopNote) :: done else done
    annotateLines targets (index + 1) (some line) (line :: done) lines

/-- A note above every inner loop. -/
def annotateNestedLoops (t : Text) : Text :=
  Text.unlines (annotateLines (innerLoopLines t) 0 none [] t.lines)

/-- The name of the constant for a number. -/
def constantName (number : Text) : Text := "CONSTANT_" ++ number

/-- The unexplained numbers that have no constant yet, each once. -/
def undeclaredNumbers (t : Text) : List Text :=
  (keepOnce (magicNumbers t)).filter fun number => !t.includes (constantName number ++ " =")

/-- The declaration of the constant for a number. -/
def constantDeclaration (python : Bool) (number : Text) : Text :=
  let keyword : Text := if python then "" else "const "
  let terminator : Text := if python then "" else ";"
  keyword ++ constantName number ++ " = " ++ number ++ terminator ++ "\n"

/-- Constants for the unexplained numbers, declared in front. The numbers themselves stay. -/
def extractMagicNumbers (fileName : String) (t : Text) : Text :=
  let python := Family.ofName fileName = .python
  let numbers := undeclaredNumbers t
  if numbers.isEmpty then t
  else
    let comment : Text := if python then "#" else "//"
    comment ++ " Extracted constants (replace with meaningful names):\n" ++
      (numbers.flatMap (constantDeclaration python) ++ '\n' :: t)

end SourceAudit.Fix

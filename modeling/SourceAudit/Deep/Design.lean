/-
Module: SourceAudit.Deep.Design
Layer: Deep analysis
Purpose: Design patterns and anti-patterns, recognised by their traces in the text: how deeply
  callbacks are nested, how many branches there are, and how much is repeated.
Main exports: designPatterns, antiPatterns, callbackDepth, cyclomaticComplexity, repeatedLines
-/
import SourceAudit.Deep.Finding
import SourceAudit.Pattern.Build
import SourceAudit.Repetition
import SourceAudit.Text.Line
import SourceAudit.Total

namespace SourceAudit

open Pattern

/-- The traces of a singleton, which have to follow one another: a class with a static instance and a
    constructor that asks for it. -/
def singletonTraces : List Pattern :=
  [anyCase "class" ++ gap ++ name ++ blanks ++ text "\x7b",
    anyCase "static" ++ gap ++ anyCase "instance",
    anyCase "constructor" ++ blanks ++ text "(" ++ blanks ++ text ")" ++ blanks ++ text "\x7b",
    anyCase "if" ++ blanks ++ text "(",
    anyCase "instance",
    text ")"]

/-- A function or class that creates. -/
def factoryTrace : Pattern :=
  (anyCase "function" ++ gap ++ anyCase "create" ++ name) |||
    (anyCase "class" ++ gap ++ many isWordChar ++ anyCase "Factory")

/-- A subscription. -/
def observerTrace : Pattern :=
  anyOf [anyCase "useEffect", anyCase "addEventListener", anyCase "subscribe"]

/-- An export. -/
def moduleTrace : Pattern :=
  wordEdge ++ text "export" ++ gap ++
    anyOf [text "default" ++ wordEdge, text "\x7b", text "const" ++ wordEdge, text "let" ++ wordEdge,
      text "function" ++ wordEdge, text "class" ++ wordEdge,
      text "async" ++ gap ++ text "function" ++ wordEdge]

/-- The design patterns whose traces the text has. -/
def designPatterns (t : Text) : List DesignPattern :=
  (if occurInOrder t singletonTraces (.start t) then
    [⟨"Singleton Pattern", .high, "Singleton pattern detected - ensures only one instance exists"⟩]
    else []) ++
  (if factoryTrace.occurs t then
    [⟨"Factory Pattern", .medium, "Factory pattern detected - centralizes object creation"⟩]
    else []) ++
  (if observerTrace.occurs t then
    [⟨"Observer Pattern", .medium, "Observer pattern detected - reactive programming approach"⟩]
    else []) ++
  (if moduleTrace.occurs t then
    [⟨"Module Pattern", .high, "Module pattern detected - proper encapsulation"⟩]
    else [])

/-- Whether the first twenty characters of the text hold an arrow. -/
def opensCallback (t : Text) : Bool := Text.includes (t.take 20) "=>"

/-- The greatest nesting reached, given the nesting now and the greatest so far. A parenthesis opens
    a callback when an arrow follows closely; every closing parenthesis closes one, if one is
    open. -/
def callbackDepthFrom (depth greatest : Nat) : Text → Nat
  | [] => greatest
  | c :: cs =>
    if c = '(' then
      if opensCallback (c :: cs) then callbackDepthFrom (depth + 1) (max greatest (depth + 1)) cs
      else callbackDepthFrom depth greatest cs
    else if c = ')' then callbackDepthFrom (depth - 1) greatest cs
    else callbackDepthFrom depth greatest cs

/-- How deeply callbacks are nested. -/
def callbackDepth (t : Text) : Nat := callbackDepthFrom 0 0 t

/-- The places where the flow of control may divide. -/
def decisionPoints : List Pattern :=
  [wordEdge ++ text "if" ++ blanks ++ text "(",
    wordEdge ++ text "else" ++ gap ++ text "if" ++ blanks ++ text "(",
    wordEdge ++ text "for" ++ blanks ++ text "(",
    wordEdge ++ text "while" ++ blanks ++ text "(",
    wordEdge ++ text "case" ++ gap,
    text "?" ++ blanks ++ many1 (noneOf ":") ++ text ":",
    text "&&",
    text "||"]

/-- One more than the number of places where the flow may divide. -/
def cyclomaticComplexity (t : Text) : Nat := 1 + total (decisionPoints.map fun p => p.count t)

/-- How many trimmed lines of at least twenty characters repeat an earlier one. -/
def repeatedLines (t : Text) : Nat :=
  let long := (t.lines.map Text.trim).filter fun line => 20 ≤ line.length
  long.length - (Frequencies.of long).distinct

/-- The start of a function. -/
def methodStart : Pattern :=
  wordEdge ++
    (text "function" ||| (text "const" ++ gap ++ name ++ blanks ++ text "=" ++ blanks ++ text "("))

/-- A class; group 1 is its name. -/
def classHeader : Pattern := text "class" ++ gap ++ group 1 name

/-- A quoted text of ten characters or more. -/
def longQuotation : Pattern :=
  (text "\"" ++ .most (noneOf "\"") 10 ++ text "\"") ||| (text "'" ++ .most (noneOf "'") 10 ++ text "'")

/-- An anti-pattern under its name. -/
def antiPattern (name : String) (severity : Severity) (message : String) (line : Nat) : Finding :=
  ⟨.antiPattern, some name, severity, message, line⟩

/-- A class among more than fifteen functions. -/
def godObject (t : Text) : List Finding :=
  let n := methodStart.count t
  match classHeader.find t with
  | some hit =>
    if 15 < n then
      let shown := (hit.groupChars 1).str
      [antiPattern "God Object" .high
        s!"Class \"{shown}\" has {n} methods. Consider splitting responsibilities"
        (t.lineHolding hit.chars)]
    else []
  | none => []

/-- Callbacks more than three deep. -/
def callbackHell (t : Text) : List Finding :=
  let depth := callbackDepth t
  if 3 < depth then
    [antiPattern "Callback Hell" .high
      s!"Deeply nested callbacks detected (depth: {depth}). Use async/await or Promises" 1]
  else []

/-- A complexity above twenty. -/
def spaghettiCode (t : Text) : List Finding :=
  let n := cyclomaticComplexity t
  if 20 < n then
    [antiPattern "Spaghetti Code" .high
      s!"High cyclomatic complexity ({n}). Refactor into smaller functions" 1]
  else []

/-- More than ten long quotations. -/
def magicStrings (t : Text) : List Finding :=
  let n := longQuotation.count t
  if 10 < n then
    [antiPattern "Magic Strings" .medium s!"{n} magic strings found. Consider using constants" 1]
  else []

/-- More than three repeated lines. -/
def copyPaste (t : Text) : List Finding :=
  let n := repeatedLines t
  if 3 < n then
    [antiPattern "Copy-Paste Programming" .medium
      s!"{n} duplicate code blocks found. Extract to reusable functions" 1]
  else []

/-- The anti-patterns of a text. -/
def antiPatterns (t : Text) : List Finding :=
  godObject t ++ callbackHell t ++ spaghettiCode t ++ magicStrings t ++ copyPaste t

end SourceAudit

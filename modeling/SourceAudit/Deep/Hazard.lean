/-
Module: SourceAudit.Deep.Hazard
Layer: Deep analysis
Purpose: Hazards that show in the text: failures at run time, slow constructs and openings for
  attacks.
Main exports: runtimeErrors, performanceWarnings, securityVulnerabilities, bracedBody
-/
import SourceAudit.Deep.Finding
import SourceAudit.Pattern.Build
import SourceAudit.Text.Line

namespace SourceAudit

open Pattern

/-- A finding at the start of the first match of a pattern, if there is one. -/
def firstMatch (p : Pattern) (category : FindingCategory) (severity : Severity) (message : String)
    (t : Text) : List Finding :=
  match p.find t with
  | some hit => [⟨category, none, severity, message, t.lineAt hit.offset⟩]
  | none => []

/-- Three names joined by dots. A match begins where a word begins. -/
def chainedAccess : Pattern := wordEdge ++ name ++ text "." ++ name ++ text "." ++ name

/-- A division by zero. -/
def zeroDivision : Pattern :=
  text "/" ++ blanks ++ text "0" ++ (.one (fun c => !(c == '.' || isWordChar c)) ||| .edge .textEnd)

/-- The head of a loop that never ends by itself. -/
def endlessLoop : Pattern :=
  text "while" ++ blanks ++ text "(" ++ blanks ++ text "true" ++ blanks ++ text ")"

/-- Access through names that may be undefined. -/
def undefinedAccess (t : Text) : List Finding :=
  match chainedAccess.find t with
  | some hit =>
    [⟨.runtimeError, none, .medium,
      "Potential \"Cannot read property of undefined\" error. Use optional chaining (?.)",
      t.lineHolding hit.chars⟩]
  | none => []

/-- A last endless loop without a break anywhere behind it. -/
def infiniteLoop (t : Text) : List Finding :=
  match (endlessLoop.findAll t).getLast? with
  | some hit =>
    if Text.includes hit.whole.stop.ahead "break" then []
    else
      [⟨.runtimeError, none, .critical,
        "Potential infinite loop detected (while(true) without break)", t.lineAt hit.offset⟩]
  | none => []

/-- Failures that may come at run time. -/
def runtimeErrors (t : Text) : List Finding :=
  undefinedAccess t ++
    firstMatch zeroDivision .runtimeError .high "Potential division by zero" t ++
    infiniteLoop t

/-- Pushing from inside a loop over a list. -/
def pushLoop : Pattern := text ".forEach(" ++ leap ++ text ".push("

/-- A query of the document. -/
def documentQuery : Pattern := text "document.querySelector" ||| text "document.getElementById"

/-- More than five queries of the document. -/
def manyQueries (t : Text) : List Finding :=
  let n := documentQuery.count t
  if 5 < n then
    [⟨.performance, none, .medium, s!"{n} DOM queries detected. Consider caching selectors",
      t.lineHolding "document."⟩]
  else []

/-- The head of a counted loop, up to its opening brace. -/
def loopHead : Pattern :=
  wordEdge ++ text "for" ++ blanks ++ text "(" ++ many (noneOf ")") ++ text ")" ++
    many (noneOf "\x7b") ++ text "\x7b"

/-- Waiting for a result. -/
def waiting : Pattern := (wordEdge ++ text "await" ++ wordEdge) ||| text ".then("

/-- How many characters of a text come before the brace that closes a block, where `depth` blocks are
    open and `passed` characters have been counted. -/
def bodyLengthFrom (depth passed : Nat) : Text → Nat
  | [] => passed
  | c :: cs =>
    if c = '{' then bodyLengthFrom (depth + 1) (passed + 1) cs
    else if c = '}' then
      if depth ≤ 1 then passed else bodyLengthFrom (depth - 1) (passed + 1) cs
    else bodyLengthFrom depth (passed + 1) cs

/-- How many characters come before the brace that closes the block a text begins in; all of them when
    there is no such brace. -/
def bodyLength (t : Text) : Nat := bodyLengthFrom 1 0 t

/-- The text up to the brace that closes the block it begins in, or all of it. -/
def bracedBody (t : Text) : Text := t.take (bodyLength t)

/-- The first place, from a given one on, where something waits for a result. -/
def nextWaiting : Pattern := leap ++ group 1 waiting

/-- Whether the block that begins at a place waits for a result: the next place that does, if any, lies
    in the body of the block. -/
def blockWaits (waits : Search) (c : Cursor) : Bool :=
  match (waits.hitAt c).bind (·.group? 1) with
  | some found => found.start.offset < c.offset + bodyLength c.ahead
  | none => false

/-- The first counted loop whose body waits for a result. -/
def waitingLoop? (t : Text) : Option Hit :=
  let waits := nextWaiting.search t
  (loopHead.findAll t).find? fun head => blockWaits waits head.whole.stop

/-- Loops that wait. -/
def waitingLoops (t : Text) : List Finding :=
  match waitingLoop? t with
  | some head =>
    [⟨.performance, none, .high, "Async operations in loop. Use Promise.all() for parallel execution",
      t.lineAt head.offset⟩]
  | none => []

/-- Slow constructs. -/
def performanceWarnings (t : Text) : List Finding :=
  firstMatch pushLoop .performance .medium
      "Use .map() instead of .forEach() with .push() for better performance" t ++
    manyQueries t ++ waitingLoops t

/-- Running a text as code. -/
def evalCall : Pattern := wordEdge ++ text "eval" ++ blanks ++ text "("

/-- Writing markup into the document. -/
def markupAssignment : Pattern :=
  text ".innerHTML" ++ blanks ++ text "=" ++ (.one (noneOf "=") ||| .edge .textEnd)

/-- A quoted value that is assigned. -/
def quotedAssignment : Pattern :=
  blanks ++ text "=" ++ blanks ++ quote ++ many1 (noneOf "'\"") ++ quote

/-- Names that a secret is assigned to. -/
def credentialPatterns : List Pattern :=
  [anyCase "password" ++ quotedAssignment,
    anyCase "api" ++ perhaps (.one (oneOf "_-")) ++ anyCase "key" ++ quotedAssignment,
    anyCase "secret" ++ quotedAssignment]

/-- A keyword of a database query. -/
def queryKeyword : Pattern :=
  wordEdge ++ anyOf [text "SELECT", text "INSERT", text "UPDATE", text "DELETE"] ++ wordEdge

/-- A quoted text that is appended. -/
def appendedQuotation : Pattern := text "+" ++ blanks ++ quote

/-- Queries put together from texts. -/
def queryInjection (t : Text) : List Finding :=
  if appendedQuotation.occurs t then
    firstMatch queryKeyword .security .critical
      "Potential SQL injection vulnerability. Use parameterized queries" t
  else []

/-- Openings for attacks. -/
def securityVulnerabilities (t : Text) : List Finding :=
  firstMatch evalCall .security .critical
      "eval() usage detected - major security risk. Avoid at all costs" t ++
    firstMatch markupAssignment .security .high
      "innerHTML assignment can lead to XSS attacks. Use textContent or sanitize input" t ++
    (credentialPatterns.flatMap fun p =>
      firstMatch p .security .critical "Hardcoded credentials detected. Use environment variables" t) ++
    queryInjection t

end SourceAudit

/-
Module: SourceAudit.Fix.Console
Layer: Fixes
Purpose: Removal of console calls. A call is cut out together with the semicolon after it; when the
  line it stood on is then blank, the line goes as well. Calls on another object's console are kept,
  and the first call whose parenthesis is never closed ends the removal.
Main exports: closingParen, consoleCall, removeConsoleCalls
-/
import SourceAudit.Pattern.Build

namespace SourceAudit.Fix

/-- The position, counted from `index`, of the parenthesis that brings the nesting back to zero.
    Between quotes nothing counts but the closing quote, and a backslash there hides what follows
    it. -/
def closingFrom (quote : Option Char) (depth index : Nat) : Text → Option Nat
  | [] => none
  | c :: cs =>
    match quote with
    | some q =>
      if c = '\\' then
        match cs with
        | [] => none
        | _ :: rest => closingFrom (some q) depth (index + 2) rest
      else closingFrom (if c = q then none else some q) depth (index + 1) cs
    | none =>
      if c = '\'' || c = '"' || c = '`' then closingFrom (some c) depth (index + 1) cs
      else if c = '(' then closingFrom none (depth + 1) (index + 1) cs
      else if c = ')' then
        if depth ≤ 1 then some index else closingFrom none (depth - 1) (index + 1) cs
      else closingFrom none depth (index + 1) cs

/-- The position of the parenthesis that closes the one the text starts with. -/
def closingParen (t : Text) : Option Nat := closingFrom none 0 0 t

/-- The start of a console call, up to and including its parenthesis. -/
def consoleCall : Pattern :=
  .wordEdge ++ .text "console." ++ .one isNameStart ++
    .many (fun c => isWordChar c || c == '$') ++ .blanks ++ .text "("

namespace Console

/-- The place after any spaces and tabs. -/
def skipSpaces (c : Cursor) : Cursor :=
  c.advance (c.ahead.takeWhile fun x => x == ' ' || x == '\t').length

/-- The place after the rest of a call's statement: spaces, at most one semicolon, spaces. -/
def skipTerminator (c : Cursor) : Cursor :=
  let c := skipSpaces c
  match c.ahead with
  | ';' :: _ => skipSpaces (c.advance 1)
  | _ => c

/-- The length of a line break at the start of a text. -/
def lineBreakLength : Text → Nat
  | '\r' :: '\n' :: _ => 2
  | '\n' :: _ => 1
  | _ => 0

/-- A backwards text without the line break it ends in. -/
def dropLineBreak : Text → Text
  | '\n' :: '\r' :: rest => rest
  | '\n' :: rest => rest
  | rest => rest

/-- Whether the last line of a backwards text holds nothing but blanks. -/
def endsInBlankLine (out : Text) : Bool :=
  match out.dropWhile fun c => isBlank c && c != '\n' with
  | [] => true
  | c :: _ => c == '\n'

/-- Takes away a line that a removal has left blank. `out` is the output so far, backwards, and the
    cursor stands behind what was removed. A blank last line goes with the line break before it. -/
def settleLine (out : Text) (c : Cursor) : Text × Cursor :=
  let n := lineBreakLength c.ahead
  if endsInBlankLine out && (0 < n || c.ahead.isEmpty) then
    let kept := out.dropWhile (· != '\n')
    if 0 < n then (kept, c.advance n) else (dropLineBreak kept, c)
  else (out, c)

/-- The text between two places, backwards, put in front of `out`. -/
def passing (out : Text) (c d : Cursor) : Text :=
  (Span.chars ⟨c, d⟩).reverse ++ out

/-- Removes the calls that the search finds from the cursor on. `out` is the output so far,
    backwards, as is the result. Each step passes at least one call, so as many steps as there are
    characters are enough. -/
def removeFrom (calls : Search) : (fuel : Nat) → (out : Text) → Cursor → Text
  | 0, out, c => c.ahead.reverse ++ out
  | fuel + 1, out, c =>
    match calls.findFrom c with
    | none => c.ahead.reverse ++ out
    | some call =>
      if call.whole.start.behind.head? == some '.' then
        removeFrom calls fuel (passing out c call.whole.stop) call.whole.stop
      else
        match closingParen ('(' :: call.whole.stop.ahead) with
        | none => c.ahead.reverse ++ out
        | some n =>
          let (out, d) :=
            settleLine (passing out c call.whole.start) (skipTerminator (call.whole.stop.advance n))
          removeFrom calls fuel out d

end Console

/-- The text without its console calls and the lines they leave blank. -/
def removeConsoleCalls (t : Text) : Text :=
  (Console.removeFrom (consoleCall.search t) t.length [] (.start t)).reverse

end SourceAudit.Fix

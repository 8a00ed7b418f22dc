/-
Module: SourceAudit.Text.Line
Layer: Text
Purpose: Line numbers, counted from 1. A line is located either by a needle that it holds or by an
  offset into the text; a needle that is nowhere counts as standing on line 1. Where many offsets of
  one text are asked for, the starts of its lines are collected first.
Main exports: Text.lineHolding, Text.lineHoldingAnyCase, Text.lineOfByte, Text.lineAt, LineIndex,
  Text.lineIndex, LineIndex.lineAt, Text.truncate
-/
import SourceAudit.Text.Basic

namespace SourceAudit.Text

/-- The line on which `needle` first occurs in `rest`, which starts on `line`. -/
def lineOfNeedle? (needle : Text) (line : Nat) : (rest : Text) → Option Nat
  | [] => if needle.isEmpty then some line else none
  | c :: cs =>
    if needle.isPrefixOf (c :: cs) then some line
    else lineOfNeedle? needle (if c = '\n' then line + 1 else line) cs

/-- The first line that holds `needle`, or line 1 when none does. No line holds a line feed. -/
def lineHolding (t needle : Text) : Nat :=
  if needle.contains '\n' then 1 else (lineOfNeedle? needle 1 t).getD 1

/-- The first line that holds `needle` when both are read in lower case, or line 1. -/
def lineHoldingAnyCase (t needle : Text) : Nat := t.lower.lineHolding needle.lower

/-- The number of line feeds among the first `bytes` bytes of the UTF-8 form of the text. -/
def feedsWithin : (t : Text) → (bytes : Nat) → (found : Nat) → Nat
  | [], _, found => found
  | _ :: _, 0, found => found
  | c :: cs, bytes + 1, found =>
    feedsWithin cs (bytes + 1 - c.utf8Size) (if c = '\n' then found + 1 else found)

/-- The line of the byte at `offset` in the UTF-8 form of the text. An offset past the end counts as
    the end. -/
def lineOfByte (t : Text) (offset : Nat) : Nat := t.feedsWithin offset 0 + 1

/-- The line of the character at position `n`. -/
def lineAt (t : Text) (n : Nat) : Nat := (t.take n).count '\n' + 1

/-- The positions after the line feeds of `rest`, which starts at position `offset`, behind those in
    `found`. -/
def lineStarts (offset : Nat) (found : Array Nat) : (rest : Text) → Array Nat
  | [] => found
  | c :: cs => lineStarts (offset + 1) (if c = '\n' then found.push (offset + 1) else found) cs

/-- At most the first `n` characters. -/
def truncate (t : Text) (n : Nat) : Text := t.take n

end SourceAudit.Text

namespace SourceAudit

/-- Where the lines of a text start, the first one left out, in ascending order. -/
structure LineIndex where
  starts : Array Nat

/-- The index of the lines of a text. -/
def Text.lineIndex (t : Text) : LineIndex := ⟨Text.lineStarts 0 #[] t⟩

/-- The line of the character at position `n`: one more than the number of starts up to there. -/
def LineIndex.lineAt (index : LineIndex) (n : Nat) : Nat :=
  countUpTo (fun i => index.starts[i]?) n (index.starts.size + 1) 0 index.starts.size + 1

end SourceAudit

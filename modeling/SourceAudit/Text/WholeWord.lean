/-
Module: SourceAudit.Text.WholeWord
Layer: Text
Purpose: Counting a word in a text. An occurrence counts when there is a word edge on both sides. The
  engine may refuse the pattern made from the word. Where many words are counted in one text, its runs
  of word characters are counted first: such a run is the only place where a word of word characters
  can stand whole.
Main exports: Text.countWord, Text.wordRuns, WordIndex, Text.wordIndex, WordIndex.countWord
-/
import SourceAudit.Engine
import SourceAudit.Repetition
import SourceAudit.Text.Basic
import SourceAudit.Text.WordChar

namespace SourceAudit

/-- Whether there is a word edge between a character and the text after it: exactly one of the two
    neighbours is a word character. -/
def isWordEdge (before : Option Char) (after : Text) : Bool :=
  before.any isWordChar != after.head?.any isWordChar

/-- Whether `word` stands at the start of `rest` as a whole word. -/
def standsAt (word : Text) (before : Option Char) (rest : Text) : Bool :=
  isWordEdge before rest && word.isPrefixOf rest && isWordEdge word.getLast? (rest.drop word.length)

/-- How often `word` stands in a text as a whole word, from left to right and without overlap. The
    next `skip` characters belong to the occurrence before, and `found` have been counted. -/
def countFrom (word : Text) (before : Option Char) (skip found : Nat) : (rest : Text) → Nat
  | [] => found
  | c :: cs =>
    match skip with
    | skip + 1 => countFrom word (some c) skip found cs
    | 0 =>
      if standsAt word before (c :: cs) then countFrom word (some c) (word.length - 1) (found + 1) cs
      else countFrom word (some c) 0 found cs

/-- How often `word` occurs in the text as a whole word. The empty word never does. -/
def Text.countWord [Engine] (t word : Text) : Except Fault Nat :=
  if word.isEmpty then .ok 0
  else if Engine.accepts (.word word) then .ok (countFrom word none 0 0 t)
  else .error .patternTooLarge

/-- The longest runs of word characters of a text, in order. -/
def Text.wordRuns (t : Text) : List Text :=
  (t.pieces fun c => !isWordChar c).filter fun run => !run.isEmpty

/-- A text with the frequencies of its runs of word characters. -/
structure WordIndex where
  text : Text
  runs : Frequencies Text

/-- The index of the words of a text. -/
def Text.wordIndex (t : Text) : WordIndex := ⟨t, .of t.wordRuns⟩

/-- How often `word` occurs in the text as a whole word. -/
def WordIndex.countWord [Engine] (index : WordIndex) (word : Text) : Except Fault Nat :=
  if word.all isWordChar && !word.isEmpty && Engine.accepts (.word word) then
    .ok (index.runs.count word)
  else index.text.countWord word

end SourceAudit

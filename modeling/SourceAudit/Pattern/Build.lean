/-
Module: SourceAudit.Pattern.Build
Layer: Pattern
Purpose: The vocabulary that patterns are written in: character sets, exact and case-blind literals,
  runs of blanks and words, optional parts and alternatives.
Main exports: oneOf, noneOf, anyChar, Pattern.text, Pattern.anyCase, Pattern.blanks, Pattern.gap,
  Pattern.name, Pattern.perhaps, Pattern.anyOf, wholeWord
-/
import SourceAudit.Pattern.Search

namespace SourceAudit

/-- The set of these characters. -/
def oneOf (cs : String) (c : Char) : Bool := cs.toList.contains c

/-- The set of all characters but these. -/
def noneOf (cs : String) (c : Char) : Bool := !cs.toList.contains c

/-- The set of all characters. -/
def anyChar (_ : Char) : Bool := true

/-- The ASCII letters. -/
def isAsciiLetter (c : Char) : Bool :=
  (97 ≤ c.toNat && c.toNat ≤ 122) || (65 ≤ c.toNat && c.toNat ≤ 90)

/-- The characters an identifier of a script starts with. -/
def isNameStart (c : Char) : Bool := isAsciiLetter c || c == '_' || c == '$'

namespace Pattern

/-- One pattern after the other. -/
instance : Append Pattern := ⟨Pattern.seq⟩

/-- One pattern or else the other. -/
instance : OrOp Pattern := ⟨Pattern.alt⟩

/-- Exactly these characters. -/
def text (s : String) : Pattern := .literal (· == ·) s.toList

/-- Exactly these characters, given as a text. -/
def chars (t : Text) : Pattern := .literal (· == ·) t

/-- These characters in upper or lower case. -/
def anyCase (s : String) : Pattern := .literal sameFold s.toList

/-- These characters in upper or lower case, given as a text. -/
def charsAnyCase (t : Text) : Pattern := .literal sameFold t

/-- Nothing at all. -/
def nothing : Pattern := .literal (· == ·) []

/-- As many characters of the set as possible. -/
def many (set : Char → Bool) : Pattern := .most set 0

/-- As many characters of the set as possible, but at least one. -/
def many1 (set : Char → Bool) : Pattern := .most set 1

/-- Any number of blanks. -/
def blanks : Pattern := .most isBlank 0

/-- At least one blank. -/
def gap : Pattern := .most isBlank 1

/-- A run of word characters. -/
def name : Pattern := .most isWordChar 1

/-- The edge of a word. -/
def wordEdge : Pattern := .edge .word

/-- As little of anything as possible. -/
def leap : Pattern := .fewest anyChar 0

/-- The pattern, if it matches; else nothing. -/
def perhaps (p : Pattern) : Pattern := .alt p nothing

/-- The first of the patterns that leads to a match. -/
def anyOf : List Pattern → Pattern
  | [] => .one fun _ => false
  | [p] => p
  | p :: ps => .alt p (anyOf ps)

/-- A single or double quote. -/
def quote : Pattern := .one (oneOf "'\"")

end Pattern

/-- The occurrences of a text as a whole word. -/
def wholeWord (word : Text) : Pattern :=
  Pattern.wordEdge ++ Pattern.chars word ++ Pattern.wordEdge

end SourceAudit

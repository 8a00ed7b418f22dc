/-
Module: SourceAudit.Text.Case
Layer: Text
Purpose: Lower case of a whole text and equality of characters up to case. Lower case is the full
  mapping: a capital I with a dot becomes two characters, and a capital sigma becomes the final form
  at the end of a word.
Main exports: foldCase, sameFold, lowerChar, lowercase
-/
import SourceAudit.Text.CaseTable

namespace SourceAudit

/-- The representative of a character among those that differ from it in case only. -/
def foldCase (c : Char) : Char :=
  let n := c.toNat
  if n < 128 then (if 65 ≤ n && n ≤ 90 then Char.ofNat (n + 32) else c)
  else Char.ofNat (foldShifts.apply n)

/-- Whether a character outside ASCII is never the same as a letter in ASCII up to case. Only the long
    s and the Kelvin sign are. -/
def isFarFromAscii (c : Char) : Bool :=
  let n := c.toNat
  128 ≤ n && n != 0x17F && n != 0x212A

/-- Equality of characters up to case. -/
def sameFold (a b : Char) : Bool :=
  a == b || (!(a.toNat < 128 && isFarFromAscii b) && foldCase a == foldCase b)

/-- Lower case of one character, regardless of what stands around it. Only the capital I with a dot
    grows: it becomes an i and a combining dot. -/
def lowerChar (c : Char) : List Char :=
  let n := c.toNat
  if n < 128 then [if 65 ≤ n && n ≤ 90 then Char.ofNat (n + 32) else c]
  else if n == 0x130 then ['i', Char.ofNat 0x307]
  else [Char.ofNat (lowerShifts.apply n)]

/-- Letters with a case, leaving out those that are skipped over. -/
def isCased (c : Char) : Bool :=
  let n := c.toNat
  if n < 128 then (97 ≤ n && n ≤ 122) || (65 ≤ n && n ≤ 90) else casedCodes.contains n

/-- Characters that do not count when the neighbouring letter is looked for. -/
def isCaseIgnorable (c : Char) : Bool :=
  let n := c.toNat
  if n < 128 then n == 39 || n == 46 || n == 58 || n == 94 || n == 96 else caseIgnorableCodes.contains n

/-- Whether the first character that counts is a letter with a case. -/
def leadsToCased (cs : List Char) : Bool :=
  match cs.dropWhile isCaseIgnorable with
  | c :: _ => isCased c
  | [] => false

/-- Lower case of `rest`, where `before` is what precedes it and `done` what has been lowered so
    far, both backwards. A capital sigma that ends a word takes its final form. -/
def lowercaseFrom (before done : List Char) : (rest : List Char) → List Char
  | [] => done.reverse
  | c :: cs =>
    let lowered :=
      if c.toNat == 0x3A3 then
        [if leadsToCased before && !leadsToCased cs then Char.ofNat 0x3C2 else Char.ofNat 0x3C3]
      else lowerChar c
    lowercaseFrom (c :: before) (lowered.reverse ++ done) cs

/-- Lower case of a text. -/
def lowercase (cs : List Char) : List Char := lowercaseFrom [] [] cs

end SourceAudit

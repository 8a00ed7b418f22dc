/-
Module: SourceAudit.Text.Blank
Layer: Text
Purpose: The blank characters, that is, those with the Unicode property White_Space. Trimming a
  line, measuring its indentation and every "some blanks" of a pattern mean this one class.
Main exports: isBlank
-/

namespace SourceAudit

/-- The characters with the Unicode property White_Space. Zero-width characters such as U+200B and
    U+FEFF are not among them. -/
def isBlank (c : Char) : Bool :=
  let n := c.toNat
  if n < 128 then n == 32 || (9 ≤ n && n ≤ 13)
  else n == 0x85 || n == 0xA0 || n == 0x1680 || (0x2000 ≤ n && n ≤ 0x200A) ||
    n == 0x2028 || n == 0x2029 || n == 0x202F || n == 0x205F || n == 0x3000

/-- Every character that core calls white space is blank. -/
theorem isBlank_of_isWhitespace {c : Char} (h : c.isWhitespace = true) : isBlank c = true := by
  simp only [Char.isWhitespace, Bool.or_eq_true, decide_eq_true_eq] at h
  rcases h with ((h | h) | h) | h <;> subst h <;> decide

end SourceAudit

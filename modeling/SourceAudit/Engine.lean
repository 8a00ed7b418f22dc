/-
Module: SourceAudit.Engine
Layer: Text
Purpose: What is taken from the engine that runs patterns. Most patterns are fixed and can always be
  built. Some are made from a part of the source, and the engine refuses one whose compiled form is over
  its limit of bytes. How large a compiled form is, is the engine's own affair, so which parts it accepts
  is a parameter here; all that is taken for granted is that a short part is never refused.
Main exports: MadePattern, MadePattern.part, Engine, Fault.patternTooLarge, Engine.upTo,
  Engine.standard
-/
import SourceAudit.Fault
import SourceAudit.Text.Basic

namespace SourceAudit

/-- A pattern that is made from a part of the source: what is looked for, and that part. -/
inductive MadePattern where
  /-- A word that stands whole. -/
  | word (word : Text)
  /-- A name with an equals sign behind it. -/
  | assignment (name : Text)
  /-- An opening tag of this name. -/
  | opening (tag : Text)
  /-- A closing tag of this name. -/
  | closing (tag : Text)
  /-- A label for the element with this identifier. -/
  | label (id : Text)
deriving DecidableEq, Repr

/-- The part of the source that a pattern is made from. -/
def MadePattern.part : MadePattern → Text
  | .word part | .assignment part | .opening part | .closing part | .label part => part

/-- The engine that runs patterns, as far as the source can notice it: which of the patterns that are
    made from the source it accepts. A hundred characters are far below any limit in use. -/
class Engine where
  accepts : MadePattern → Bool
  accepts_short : ∀ p : MadePattern, p.part.length ≤ 100 → accepts p = true

/-- The fault of a pattern that the engine refuses. -/
def Fault.patternTooLarge : Fault := .pattern "Compiled regex exceeds size limit of 10485760 bytes."

/-- An engine that refuses what is made from more than so many characters. -/
@[reducible]
def Engine.upTo (limit : Nat) (short : 100 ≤ limit) : Engine where
  accepts p := p.part.length ≤ limit
  accepts_short _ h := decide_eq_true (Nat.le_trans h short)

/-- An engine with a limit of ten mebibytes, where a character takes 32 bytes of the compiled form. -/
@[reducible]
def Engine.standard : Engine := .upTo (10485760 / 32) (by decide)

end SourceAudit

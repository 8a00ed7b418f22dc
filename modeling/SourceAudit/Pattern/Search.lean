/-
Module: SourceAudit.Pattern.Search
Layer: Pattern
Purpose: Searching a text for a pattern. The first match is the one that starts earliest; all matches
  are taken from left to right without overlap; replacing puts something else in the place of each.
  A pattern has a match only where it covers at least one character.
Main exports: Search, Pattern.search, Search.hitAt, Search.findFrom, Search.findAll, Pattern.find,
  Pattern.occurs, Pattern.findAll, Pattern.count, splice, Pattern.replaceAll, occurInOrder
-/
import SourceAudit.Pattern.Plan

namespace SourceAudit

/-- A pattern that is looked for in one text. -/
structure Search where
  text : Text
  plan : Plan
  /-- Every match starts with a character of one of these sets. -/
  starters : List (Char → Bool)

/-- The search for a pattern in a text. -/
def Pattern.search (p : Pattern) (t : Text) : Search :=
  ⟨t, p.plan ⟨fun _ => Cursor.backward [] [] 0 t⟩ .done, p.starters⟩

namespace Search

/-- The match at a place of the text, unless it covers nothing. -/
def hitAt (s : Search) (c : Cursor) : Option Hit :=
  match s.plan.findAt c with
  | some trace => if trace.stop.offset = c.offset then none else some ⟨⟨c, trace.stop⟩, trace.groups⟩
  | none => none

/-- Whether a match can start with the character. -/
def mayStart (s : Search) (x : Char) : Bool := s.starters.any fun set => set x

/-- The first match at or after a place, given by its three parts. There is none at the end of the
    text, where nothing is left to cover. -/
def seek (s : Search) (behind : List Char) (offset : Nat) : (ahead : List Char) → Option Hit
  | [] => none
  | x :: xs =>
    match (if s.mayStart x then s.hitAt ⟨behind, x :: xs, offset⟩ else none) with
    | some h => some h
    | none => seek s (x :: behind) (offset + 1) xs

/-- The first match at or after a place. What stands before the place is still seen by edges. -/
def findFrom (s : Search) (c : Cursor) : Option Hit := s.seek c.behind c.offset c.ahead

/-- The first match. -/
def find (s : Search) : Option Hit := s.findFrom (.start s.text)

/-- All matches from a place on, after the next `skip` characters have been passed over, behind those
    in `found`, which are given backwards. -/
def scan (s : Search) (found : List Hit) (behind : List Char) (offset skip : Nat) :
    (ahead : List Char) → List Hit
  | [] => found.reverse
  | x :: xs =>
    match skip with
    | skip + 1 => scan s found (x :: behind) (offset + 1) skip xs
    | 0 =>
      match (if s.mayStart x then s.hitAt ⟨behind, x :: xs, offset⟩ else none) with
      | some h => scan s (h :: found) (x :: behind) (offset + 1) (h.whole.length - 1) xs
      | none => scan s found (x :: behind) (offset + 1) 0 xs

/-- All matches, from left to right and without overlap. -/
def findAll (s : Search) : List Hit := s.scan [] [] 0 0 s.text

end Search

namespace Pattern

/-- The first match in a text. -/
def find (p : Pattern) (t : Text) : Option Hit := (p.search t).find

/-- Whether the pattern matches somewhere in the text. -/
def occurs (p : Pattern) (t : Text) : Bool := (p.find t).isSome

/-- All matches in a text, from left to right and without overlap. -/
def findAll (p : Pattern) (t : Text) : List Hit := (p.search t).findAll

/-- The number of matches in a text. -/
def count (p : Pattern) (t : Text) : Nat := (p.findAll t).length

end Pattern

/-- The text from `offset` on, whose characters are `rest`, with each of the given matches replaced
    by the text beside it. -/
def splice (rest : Text) (offset : Nat) : List (Hit × Text) → Text
  | [] => rest
  | (h, new) :: edits =>
    rest.take (h.offset - offset) ++ (new ++ splice h.whole.stop.ahead h.whole.stop.offset edits)

/-- The text with every match replaced. -/
def Pattern.replaceAll (p : Pattern) (new : Hit → Text) (t : Text) : Text :=
  splice t 0 ((p.findAll t).map fun h => (h, new h))

/-- Whether the patterns occur in a text one after the other, each behind the one before. -/
def occurInOrder (t : Text) : List Pattern → (c : Cursor) → Bool
  | [], _ => true
  | p :: ps, c =>
    match (p.search t).findFrom c with
    | some h => occurInOrder t ps h.whole.stop
    | none => false

end SourceAudit

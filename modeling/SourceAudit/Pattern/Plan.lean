/-
Module: SourceAudit.Pattern.Plan
Layer: Pattern
Purpose: A pattern laid out over one text, so that all places of the text can be tried in time that
  grows with its length and not with its square. What a long run of characters leads to is worked out
  once for all places of the text, from its end to its start, and kept in a table that is made when
  it is first needed. Short runs are followed directly. The characters that a match can start with
  are known beforehand, so that most places need not be tried at all.
Main exports: Plan, Plan.findAt, Pattern.plan, Pattern.isSkippable, Pattern.starters
-/
import SourceAudit.Pattern.Basic

namespace SourceAudit

namespace Cursor

/-- The places from here to the end of the text, the last one first, in front of `found`. -/
def backward (found : List Cursor) (behind : List Char) (offset : Nat) :
    (ahead : List Char) → List Cursor
  | [] => ⟨behind, [], offset⟩ :: found
  | x :: xs => backward (⟨behind, x :: xs, offset⟩ :: found) (x :: behind) (offset + 1) xs

/-- What a run that takes as much as possible finds at a place, given what it finds one further. -/
def greedyCell {α : Type} (set : Char → Bool) (next : Cursor → Option α) (c : Cursor)
    (later : Option α) : Option α :=
  match c.ahead with
  | [] => next c
  | x :: _ =>
    if set x then
      match later with
      | some r => some r
      | none => next c
    else next c

/-- What a run that takes as little as possible finds at a place, given what it finds one further. -/
def sparingCell {α : Type} (set : Char → Bool) (next : Cursor → Option α) (c : Cursor)
    (later : Option α) : Option α :=
  match c.ahead with
  | [] => next c
  | x :: _ =>
    match next c with
    | some r => some r
    | none => if set x then later else none

/-- Whether fewer than `n` characters of the set come next. -/
def isShortRun (set : Char → Bool) : (n : Nat) → (ahead : List Char) → Bool
  | 0, _ => false
  | _ + 1, [] => true
  | n + 1, x :: xs => if set x then isShortRun set n xs else true

end Cursor

/-- What is found at each place of a text, the last place first. -/
abbrev PlaceTable := Array (Option Trace)

namespace PlaceTable

/-- The table in which `cell` makes what is found at a place from what is found one further; the
    places are given from the last to the first. -/
def make (cell : Cursor → Option Trace → Option Trace) (places : List Cursor) : PlaceTable :=
  places.foldl (fun table c => table.push (cell c (table.back?.getD none))) #[]

/-- What is found at a place. -/
def read (table : PlaceTable) (c : Cursor) : Option Trace :=
  (table[table.size - 1 - c.offset]?).getD none

end PlaceTable

/-- A pattern and what follows it, laid out over one text. -/
inductive Plan where
  /-- Nothing follows. -/
  | done
  | literal (same : Char → Char → Bool) (cs : List Char) (next : Plan)
  | one (set : Char → Bool) (next : Plan)
  | most (set : Char → Bool) (least : Nat) (next : Plan) (table : Thunk PlaceTable)
  | fewest (set : Char → Bool) (least : Nat) (table : Thunk PlaceTable)
  | edge (e : Edge) (next : Plan)
  | alt (p q : Plan)
  /-- A stretch that is kept starts here. -/
  | begin (index : Nat) (next : Plan)
  /-- A stretch that is kept ends here. -/
  | close (next : Plan)

namespace Plan

/-- How long a run may be to be followed directly. -/
def directRun : Nat := 16

/-- What the plan finds at a place of its text. -/
def findAt : Plan → (c : Cursor) → Option Trace
  | .done, c => some (.done c)
  | .literal same cs next, c =>
    match c.skip same cs with
    | some d => next.findAt d
    | none => none
  | .one set next, c =>
    match c.ahead with
    | [] => none
    | x :: xs => if set x then next.findAt ⟨x :: c.behind, xs, c.offset + 1⟩ else none
  | .most set least next table, c =>
    match c.pass set least with
    | none => none
    | some d =>
      if Cursor.isShortRun set directRun d.ahead then
        Cursor.greedy set next.findAt d.behind d.offset d.ahead
      else table.get.read d
  | .fewest set least table, c =>
    match c.pass set least with
    | none => none
    | some d => table.get.read d
  | .edge e next, c => if e.holds c then next.findAt c else none
  | .alt p q, c =>
    match p.findAt c with
    | some r => some r
    | none => q.findAt c
  | .begin index next, c => (next.findAt c).map (Trace.begin index c)
  | .close next, c => (next.findAt c).map (Trace.close c)

end Plan

/-- The pattern followed by `next`, laid out over the text with these places. -/
def Pattern.plan (places : Thunk (List Cursor)) : Pattern → (next : Plan) → Plan
  | .literal same cs, next => .literal same cs next
  | .one set, next => .one set next
  | .most set least, next =>
    .most set least next ⟨fun _ => .make (Cursor.greedyCell set next.findAt) places.get⟩
  | .fewest set least, next =>
    .fewest set least ⟨fun _ => .make (Cursor.sparingCell set next.findAt) places.get⟩
  | .edge e, next => .edge e next
  | .seq p q, next => p.plan places (q.plan places next)
  | .alt p q, next => .alt (p.plan places next) (q.plan places next)
  | .group index p, next => .begin index (p.plan places (.close next))

namespace Pattern

/-- Whether the pattern may pass no character at all. -/
def isSkippable : Pattern → Bool
  | .literal _ cs => cs.isEmpty
  | .one _ => false
  | .most _ least => least == 0
  | .fewest _ least => least == 0
  | .edge _ => true
  | .seq p q => p.isSkippable && q.isSkippable
  | .alt p q => p.isSkippable || q.isSkippable
  | .group _ p => p.isSkippable

/-- Sets that together hold every character that the pattern may pass first. -/
def starters : Pattern → List (Char → Bool)
  | .literal same (c :: _) => [same c]
  | .literal _ [] => []
  | .one set => [set]
  | .most set _ => [set]
  | .fewest set _ => [set]
  | .edge _ => []
  | .seq p q => p.starters ++ if p.isSkippable then q.starters else []
  | .alt p q => p.starters ++ q.starters
  | .group _ p => p.starters

end Pattern

end SourceAudit

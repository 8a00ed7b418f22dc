/-
Module: SourceAudit.Pattern.Basic
Layer: Pattern
Purpose: Text patterns and what it means that one matches at a place. Repetition is over single
  characters only, which is all the rules need, so the meaning is plain recursion on the pattern:
  each case either moves the cursor and hands over to what follows, or tries its choices in order of
  preference. The first choice that lets everything after it succeed is taken.
Main exports: Cursor, Edge, Pattern, Span, Trace, Pattern.reach, Hit
-/
import SourceAudit.Text.Basic
import SourceAudit.Text.WordChar

namespace SourceAudit

/-- A place in a text: the characters before it, backwards, the characters after it, and how many
    have been passed. -/
structure Cursor where
  behind : List Char
  ahead : List Char
  offset : Nat

namespace Cursor

/-- The start of a text. -/
def start (t : Text) : Cursor := ⟨[], t, 0⟩

/-- The place after the next `n` characters, or the end when there are fewer. -/
def advance (c : Cursor) : Nat → Cursor
  | 0 => c
  | n + 1 =>
    match c.ahead with
    | [] => c
    | x :: xs => advance ⟨x :: c.behind, xs, c.offset + 1⟩ n

/-- The place after `cs`, when the text ahead begins with it character by character. -/
def skip (same : Char → Char → Bool) (c : Cursor) : (cs : List Char) → Option Cursor
  | [] => some c
  | x :: xs =>
    match c.ahead with
    | [] => none
    | y :: ys => if same x y then skip same ⟨y :: c.behind, ys, c.offset + 1⟩ xs else none

/-- The place after the next `n` characters, when all of them are of the set. -/
def pass (set : Char → Bool) (c : Cursor) : (n : Nat) → Option Cursor
  | 0 => some c
  | n + 1 =>
    match c.ahead with
    | [] => none
    | x :: xs => if set x then pass set ⟨x :: c.behind, xs, c.offset + 1⟩ n else none

/-- Passes characters of the set, as many as possible but so that `next` succeeds at the place
    reached. -/
def greedy {α : Type} (set : Char → Bool) (next : Cursor → Option α) (behind : List Char)
    (offset : Nat) : (ahead : List Char) → Option α
  | [] => next ⟨behind, [], offset⟩
  | x :: xs =>
    if set x then
      match greedy set next (x :: behind) (offset + 1) xs with
      | some r => some r
      | none => next ⟨behind, x :: xs, offset⟩
    else next ⟨behind, x :: xs, offset⟩

/-- Passes characters of the set, as few as possible but so that `next` succeeds at the place
    reached. -/
def sparing {α : Type} (set : Char → Bool) (next : Cursor → Option α) (behind : List Char)
    (offset : Nat) : (ahead : List Char) → Option α
  | [] => next ⟨behind, [], offset⟩
  | x :: xs =>
    match next ⟨behind, x :: xs, offset⟩ with
    | some r => some r
    | none => if set x then sparing set next (x :: behind) (offset + 1) xs else none

end Cursor

/-- A condition on a place that reads no character. -/
inductive Edge where
  /-- Exactly one of the two neighbours is a word character. -/
  | word
  /-- The start of the text. -/
  | textStart
  /-- The end of the text. -/
  | textEnd
  /-- The start of a line. -/
  | lineStart
  /-- The end of a line. -/
  | lineEnd
deriving DecidableEq, Repr

/-- Whether the place fulfils the condition. -/
def Edge.holds (e : Edge) (c : Cursor) : Bool :=
  match e with
  | .word => (c.behind.head?.any isWordChar) != (c.ahead.head?.any isWordChar)
  | .textStart => c.behind.isEmpty
  | .textEnd => c.ahead.isEmpty
  | .lineStart => c.behind.head?.all (· == '\n')
  | .lineEnd => c.ahead.head?.all (· == '\n')

/-- A stretch of a text. -/
structure Span where
  start : Cursor
  stop : Cursor

namespace Span

/-- How many characters the stretch has. -/
def length (s : Span) : Nat := s.stop.offset - s.start.offset

/-- The characters of the stretch. -/
def chars (s : Span) : Text := s.start.ahead.take s.length

end Span

/-- A pattern of characters. -/
inductive Pattern where
  /-- These characters, each up to the given likeness. -/
  | literal (same : Char → Char → Bool) (cs : List Char)
  /-- One character of the set. -/
  | one (set : Char → Bool)
  /-- At least `least` characters of the set, as many as possible. -/
  | most (set : Char → Bool) (least : Nat)
  /-- At least `least` characters of the set, as few as possible. -/
  | fewest (set : Char → Bool) (least : Nat)
  /-- A condition on the place itself. -/
  | edge (e : Edge)
  /-- The first pattern and then the second. -/
  | seq (p q : Pattern)
  /-- The first pattern, or else the second. -/
  | alt (p q : Pattern)
  /-- The pattern, with the stretch it covers kept under a number. -/
  | group (index : Nat) (p : Pattern)

/-- The stretches kept by a match, each under its number. -/
abbrev Groups := List (Nat × Span)

/-- What a match covers from some place on: where it ends, the stretches it keeps, and the ends of
    stretches that have started before that place, innermost first. -/
structure Trace where
  stop : Cursor
  groups : Groups
  ends : List Cursor

namespace Trace

/-- A match that ends here. -/
def done (c : Cursor) : Trace := ⟨c, [], []⟩

/-- The match, with the end of a stretch here. -/
def close (c : Cursor) (t : Trace) : Trace := { t with ends := c :: t.ends }

/-- The match, with the start here of the stretch that ends first. -/
def begin (index : Nat) (c : Cursor) (t : Trace) : Trace :=
  match t.ends with
  | [] => t
  | d :: ends => ⟨t.stop, (index, ⟨c, d⟩) :: t.groups, ends⟩

end Trace

/-- What the pattern followed by `next` finds at a place: the preferred way through the pattern that
    `next` can go on from. -/
def Pattern.reach : Pattern → (next : Cursor → Option Trace) → (c : Cursor) → Option Trace
  | .literal same cs, next, c => (c.skip same cs).bind next
  | .one set, next, c => (c.pass set 1).bind next
  | .most set least, next, c =>
    (c.pass set least).bind fun d => Cursor.greedy set next d.behind d.offset d.ahead
  | .fewest set least, next, c =>
    (c.pass set least).bind fun d => Cursor.sparing set next d.behind d.offset d.ahead
  | .edge e, next, c => if e.holds c then next c else none
  | .seq p q, next, c => p.reach (q.reach next) c
  | .alt p q, next, c =>
    match p.reach next c with
    | some r => some r
    | none => q.reach next c
  | .group index p, next, c =>
    (p.reach (fun d => (next d).map (Trace.close d)) c).map (Trace.begin index c)

/-- A match: the stretch it covers and the stretches it kept. -/
structure Hit where
  whole : Span
  groups : Groups

namespace Hit

/-- The matched characters. -/
def chars (h : Hit) : Text := h.whole.chars

/-- The position of the first matched character. -/
def offset (h : Hit) : Nat := h.whole.start.offset

/-- The stretch kept under a number, if that part of the pattern took part in the match. -/
def group? (h : Hit) (index : Nat) : Option Span := h.groups.lookup index

/-- The characters kept under a number; none when that part took no part. -/
def groupChars (h : Hit) (index : Nat) : Text :=
  match h.group? index with
  | some s => s.chars
  | none => []

end Hit

/-- The preferred match of the pattern at a place. -/
def Pattern.matchAt (p : Pattern) (c : Cursor) : Option Hit :=
  (p.reach (fun d => some (.done d)) c).map fun t => ⟨⟨c, t.stop⟩, t.groups⟩

end SourceAudit

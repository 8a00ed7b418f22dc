/-
Module: SourceAudit.Source.LineCount
Layer: Domain
Purpose: How many lines of a file count for its language. In most languages every line counts. In
  pages and components the lines of code in another language that is embedded in them do not: the
  count is taken segment by segment, and a segment that opens an embedding ends there and is followed
  by the one that starts at the closing tag.
Main exports: countedLines, plainLines, Host, hostLines
-/
import SourceAudit.Pattern.Build
import SourceAudit.Source.Language

namespace SourceAudit

/-- The number of line feeds, and one more if something follows the last. -/
def plainLines (t : Text) : Nat :=
  t.count '\n' + match t.getLast? with
    | none => 0
    | some '\n' => 0
    | some _ => 1

/-- The blanks that matter for counting: ASCII only. -/
def isAsciiBlank (c : Char) : Bool := c == ' ' || (9 ≤ c.toNat && c.toNat ≤ 13)

/-- A language that other languages are embedded in. -/
structure Host where
  /-- The characters that open and close a quotation. -/
  quotes : List Char
  /-- How comments start and end. -/
  comments : List (String × String)
  /-- What starts a comment that ends with its line. -/
  lineComment : Option String
  /-- Without one of these a segment has nothing to be looked at. -/
  landmarks : List String

namespace Host

/-- Pages. -/
def html : Host where
  quotes := ['"', '\'']
  comments := [("<!--", "-->")]
  lineComment := none
  landmarks := ["\"", "'", "<!--", "<script", "<style"]

/-- Components. -/
def vue : Host where
  quotes := ['"', '\'', '`']
  comments := [("<!--", "-->"), ("/*", "*/")]
  lineComment := some "//"
  landmarks := ["\"", "'", "`", "<!--", "/*", "<script", "<style", "<template"]

end Host

/-- What is open from one segment to the next: a quotation, or a comment with its ending. -/
inductive Open where
  | nothing
  | quotation (quote : Char)
  | comment (ending : String)
deriving DecidableEq, Repr

namespace LineCount

open Pattern

/-- A tag that embeds code in another language. -/
structure Embedding where
  /-- How the tag starts. -/
  opening : String
  /-- The attribute that names the language, up to its value. -/
  label : String
  /-- The tag that ends the embedded code. -/
  closing : String

/-- The tags that embed. -/
def embeddings : List Embedding :=
  [⟨"<script", "type=\"", "</script>"⟩, ⟨"<style", "lang=\"", "</style>"⟩,
    ⟨"<template", "lang=\"", "</template>"⟩]

/-- The whole opening tag, on one line. The attribute that names the language, if it is there, has to
    be followed by a bracket. -/
def Embedding.tag (e : Embedding) : Pattern :=
  text e.opening ++
    perhaps (many (noneOf "\n") ++ text e.label ++ many (noneOf "\n") ++ text "\"") ++
    .fewest (noneOf "\n") 0 ++ text ">"

/-- The searches that the count of a text rests on. Each of them is prepared once for the whole text:
    none of what they look for reaches over a line break, so that it does not matter where the
    segment ends. -/
structure Survey where
  host : Host
  /-- From a place to the end of its segment. -/
  segmentEnd : Search
  /-- From a place to the next landmark, which is group 1. -/
  landmark : Search
  /-- The tags that embed, each with the search for the tag itself and the search from a place to the
      next closing tag, which is group 1. -/
  tags : List (Embedding × Search × Search)

/-- From a place to the next of these texts, which is group 1. -/
def upTo (texts : List String) : Pattern := leap ++ group 1 (anyOf (texts.map text))

/-- The survey of a text. -/
def survey (host : Host) (t : Text) : Survey where
  host
  segmentEnd := (many (noneOf "\n") ++ perhaps (text "\n")).search t
  landmark := (upTo host.landmarks).search t
  tags := embeddings.map fun e => (e, e.tag.search t, (upTo [e.closing]).search t)

/-- The place of the closing tag, when an embedding opens at a place. An embedding without a closing
    tag or with nothing in it is none. -/
def embeddingEnd? (s : Survey) (c : Cursor) : Option Cursor :=
  match s.tags.find? fun (e, _, _) => Text.startsWith c.ahead e.opening with
  | none => none
  | some (_, tag, closing) => do
    let opening ← tag.hitAt c
    let found ← closing.hitAt opening.whole.stop
    let close ← found.group? 1
    let inner : Span := ⟨opening.whole.stop, close.start⟩
    if inner.chars.all isAsciiBlank then none else return close.start

/-- How the scan of a segment ends: with what is open then, and with the place where the next segment
    starts, when an embedding has cut the segment short. -/
structure SegmentEnd where
  opened : Open
  next : Option Cursor

/-- Scans `size` characters of a segment from a place on; the first `skip` of them are passed over. -/
def scanSegment (s : Survey) : (opened : Open) → (size skip : Nat) → (c : Cursor) → SegmentEnd
  | opened, 0, _, _ => ⟨opened, none⟩
  | opened, size + 1, skip + 1, c => scanSegment s opened size skip (c.advance 1)
  | opened, size + 1, 0, c =>
    match c.ahead with
    | [] => ⟨opened, none⟩
    | x :: rest =>
      let t : Text := x :: rest
      let next := c.advance 1
      let escapes := x == '\\' && Text.startsWithOneOf rest s.host.quotes
      match opened with
      | .quotation q =>
        if x = q then scanSegment s .nothing size 0 next
        else scanSegment s opened size (if escapes then 1 else 0) next
      | .comment ending =>
        if escapes then scanSegment s opened size 1 next
        else if t.startsWith ending then scanSegment s .nothing size (ending.length - 1) next
        else
          match s.host.comments.find? fun (start, _) => t.startsWith start with
          | some (start, _) => scanSegment s opened size (start.length - 1) next
          | none => scanSegment s opened size 0 next
      | .nothing =>
        if escapes then scanSegment s opened size 1 next
        else
          match (if x = '<' then embeddingEnd? s c else none) with
          | some close => ⟨.nothing, some close⟩
          | none =>
            if s.host.quotes.contains x then scanSegment s (.quotation x) size 0 next
            else
              match s.host.comments.find? fun (start, _) => t.startsWith start with
              | some (start, ending) =>
                scanSegment s (.comment ending) size (start.length - 1) next
              | none =>
                if s.host.lineComment.any fun mark => t.startsWith mark then ⟨.nothing, none⟩
                else scanSegment s opened size 0 next

/-- The place where the segment of a place ends: after its line feed, or at the end of the text. -/
def segmentStop (s : Survey) (c : Cursor) : Cursor :=
  match s.segmentEnd.hitAt c with
  | some hit => hit.whole.stop
  | none => c

/-- Whether no landmark lies between two places. -/
def isDull (s : Survey) (c stop : Cursor) : Bool :=
  match (s.landmark.hitAt c).bind (·.group? 1) with
  | some mark => stop.offset ≤ mark.start.offset
  | none => true

/-- Counts the segments from a place on. The blanks at the end of the text are not scanned; `last` is
    the number of characters before them. A segment covers at least one character, so as many steps as
    there are characters are enough. -/
def countSegments (s : Survey) (last : Nat) :
    (fuel : Nat) → (opened : Open) → (count : Nat) → (c : Cursor) → Nat
  | 0, _, count, _ => count
  | fuel + 1, opened, count, c =>
    if c.ahead.isEmpty then count
    else
      let stop := segmentStop s c
      if opened = .nothing && isDull s c stop then countSegments s last fuel opened (count + 1) stop
      else
        let found := scanSegment s opened (min stop.offset last - c.offset) 0 c
        countSegments s last fuel found.opened (count + 1) (found.next.getD stop)

end LineCount

/-- The lines of a host that are not embedded. -/
def hostLines (host : Host) (t : Text) : Nat :=
  LineCount.countSegments (LineCount.survey host t) (t.reverse.dropWhile isAsciiBlank).length
    (t.length + 1) .nothing 0 (.start t)

/-- The lines of a file that count for its language. -/
def countedLines : Language → Text → Nat
  | .html, t => hostLines .html t
  | .vue, t => hostLines .vue t
  | _, t => plainLines t

end SourceAudit

/-
Module: SourceAudit.Text.Basic
Layer: Text
Purpose: Texts as lists of characters, with the searching, cutting and trimming that the rules are
  written in. Every function here walks a text at most once per needle and none keeps a character
  position: what is found is given as the pieces around it.
Main exports: Text, Text.pieces, Text.lines, Text.unlines, Text.includes, Text.cut?, Text.cutLast?,
  Text.trim, Text.indentation, Text.lower, Text.str
-/
import SourceAudit.Text.Blank
import SourceAudit.Text.Case

namespace SourceAudit

/-- A text is its list of characters. -/
abbrev Text := List Char

/-- A string stands for the text of its characters. -/
instance : Coe String Text := ⟨String.toList⟩

namespace Text

/-- The characters of a string. -/
def of (s : String) : Text := s.toList

/-- The string with these characters. -/
def str (t : Text) : String := String.ofList t

/-- A text is hashed as the string that it makes. -/
instance : Hashable Text := ⟨fun t => hash t.str⟩

/-- Equal texts have equal hashes. -/
instance : LawfulHashable Text where
  hash_eq a b same := by rw [eq_of_beq same]

/-- The pieces of a text between the separators. There is always one piece more than there are
    separators, so a text without a separator is one piece. -/
def pieces (separates : Char → Bool) (t : Text) : List Text :=
  t.foldr
    (fun c ps =>
      if separates c then [] :: ps
      else
        match ps with
        | p :: rest => (c :: p) :: rest
        | [] => [[c]])
    [[]]

/-- The lines of a text: its pieces between line feeds. A text that ends in a line feed has an empty
    last line, and the empty text is one empty line. -/
def lines (t : Text) : List Text := t.pieces (· == '\n')

/-- The text with these lines. -/
def unlines (ls : List Text) : Text := List.intercalate ['\n'] ls

/-- Whether `needle` occurs somewhere in the text. -/
def includes (t needle : Text) : Bool :=
  match t with
  | [] => needle.isEmpty
  | c :: cs => needle.isPrefixOf (c :: cs) || includes cs needle

/-- Whether one of the needles occurs in the text. -/
def includesAny (t : Text) (needles : List String) : Bool :=
  needles.any fun needle => t.includes needle

/-- Whether the text begins with `start`. -/
def startsWith (t start : Text) : Bool := start.isPrefixOf t

/-- Whether the text ends with `ending`. -/
def endsWith (t ending : Text) : Bool := ending.isSuffixOf t

/-- Whether the text begins with one of these characters. -/
def startsWithOneOf (t : Text) (cs : List Char) : Bool :=
  match t with
  | c :: _ => cs.contains c
  | [] => false

/-- Whether the text ends with one of these characters. -/
def endsWithOneOf (t : Text) (cs : List Char) : Bool :=
  match t.getLast? with
  | some c => cs.contains c
  | none => false

/-- Search for the first `needle` in `rest`, with what was passed on the way kept backwards in
    `passed`. -/
def cutFrom (needle passed : Text) : (rest : Text) → Option (Text × Text)
  | [] => if needle.isEmpty then some (passed.reverse, []) else none
  | c :: cs =>
    if needle.isPrefixOf (c :: cs) then some (passed.reverse, (c :: cs).drop needle.length)
    else cutFrom needle (c :: passed) cs

/-- What stands before and after the first occurrence of `needle`, if there is one. -/
def cut? (t needle : Text) : Option (Text × Text) := cutFrom needle [] t

/-- What stands before and after the last character that separates, if there is one. -/
def cutLast? (t : Text) (separates : Char → Bool) : Option (Text × Text) :=
  match t.reverse.span (fun c => !separates c) with
  | (_, []) => none
  | (after, _ :: before) => some (before.reverse, after.reverse)

/-- The part after the last separator, or the whole text when there is none. -/
def afterLast (t : Text) (separates : Char → Bool) : Text :=
  match t.cutLast? separates with
  | some (_, after) => after
  | none => t

/-- The text without its leading blanks. -/
def trimStart (t : Text) : Text := t.dropWhile isBlank

/-- The text without its trailing blanks. -/
def trimEnd (t : Text) : Text := (t.reverse.dropWhile isBlank).reverse

/-- The text without the blanks around it. -/
def trim (t : Text) : Text := t.trimStart.trimEnd

/-- Whether the text holds nothing but blanks. -/
def isBlankText (t : Text) : Bool := t.all isBlank

/-- The leading blanks of a line. -/
def indentation (t : Text) : Text := t.takeWhile isBlank

/-- Lower case. -/
def lower (t : Text) : Text := lowercase t

/-- A line without one carriage return at its end, and that carriage return. -/
def splitReturn (t : Text) : Text × Text :=
  match t.getLast? with
  | some '\r' => (t.dropLast, ['\r'])
  | _ => (t, [])

/-- The text repeated `n` times. -/
def times (t : Text) (n : Nat) : Text := (List.replicate n t).flatten

end Text

end SourceAudit

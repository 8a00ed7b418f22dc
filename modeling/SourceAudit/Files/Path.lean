/-
Module: SourceAudit.Files.Path
Layer: Files
Purpose: Paths as lists of steps. Repeated separators, a separator at the end and a dot that is not in
  front make no step, so paths that differ in nothing else are the same. Paths are ordered step by
  step.
Main exports: PathStep, pathSteps, parentPath, pathKey, pathsInOrder, relativeParts,
  relativeName, isSystemPart
-/
import SourceAudit.Text.Basic

namespace SourceAudit

/-- One step of a path. -/
inductive PathStep where
  /-- The top of the file system. -/
  | top
  /-- The directory itself, in front of a path. -/
  | here
  /-- The directory above. -/
  | up
  /-- An entry of the directory. -/
  | entry (name : String)
deriving DecidableEq, Repr

namespace PathStep

/-- A key that orders the kinds of steps, and entries by name. -/
def key : PathStep → String
  | .top => "0"
  | .here => "1"
  | .up => "2"
  | .entry name => "3" ++ name

/-- The name of an entry. -/
def name? : PathStep → Option String
  | .entry name => some name
  | _ => none

/-- The step that a segment makes behind the front of a path. -/
def ofSegment? (segment : Text) : Option PathStep :=
  if segment.isEmpty || segment = ['.'] then none
  else if segment = ['.', '.'] then some .up
  else some (.entry segment.str)

end PathStep

/-- The pieces of a path between its separators. -/
def slashPieces (path : String) : List Text := (Text.of path).pieces (· == '/')

/-- The steps of a path. -/
def pathSteps (path : String) : List PathStep :=
  match slashPieces path with
  | [] => []
  | first :: rest =>
    let front :=
      if first.isEmpty then if rest.isEmpty then [] else [PathStep.top]
      else if first = ['.'] then [.here]
      else (PathStep.ofSegment? first).toList
    front ++ rest.filterMap PathStep.ofSegment?

/-- Pieces of a path without those at their end that make no step; the piece in front always
    counts. -/
def dropIdle : List Text → List Text
  | [] => []
  | first :: rest => first :: (rest.reverse.dropWhile fun p => p.isEmpty || p = ['.']).reverse

/-- The text of a path without its last step, and without what makes no step in front of that. -/
def parentPath (path : String) : String :=
  match dropIdle (dropIdle (slashPieces path)).dropLast with
  | [[]] => "/"
  | pieces => "/".intercalate (pieces.map Text.str)

/-- The key that paths are ordered by, step by step. -/
def pathKey (path : String) : List String := (pathSteps path).map PathStep.key

/-- Whether one list of keys comes before another or is the same, compared from the front. -/
def keysInOrder : (a b : List String) → Bool
  | [], _ => true
  | _ :: _, [] => false
  | x :: a, y :: b => if x = y then keysInOrder a b else decide (x < y)

/-- Whether one path comes before another or has the same steps. -/
def pathsInOrder (a b : String) : Bool := keysInOrder (pathKey a) (pathKey b)

/-- The path of an entry of a directory. -/
def joinPath (directory name : String) : String :=
  if directory.isEmpty then name
  else if (Text.of directory).endsWith "/" then directory ++ name
  else directory ++ "/" ++ name

/-- What is left of `steps` after `front`, when it starts with it. -/
def stepsAfter? : (front steps : List PathStep) → Option (List PathStep)
  | [], steps => some steps
  | _ :: _, [] => none
  | a :: front, b :: steps => if a = b then stepsAfter? front steps else none

/-- The steps of a path that name it below a root. A path that is the root itself, or not below it, is
    named by its last entry, or by all of them when it does not end in one. -/
def stepsBelow (root path : String) : List PathStep :=
  let steps := pathSteps path
  let own :=
    match steps.getLast? with
    | some (.entry name) => [PathStep.entry name]
    | _ => steps
  match stepsAfter? (pathSteps root) steps with
  | some (s :: rest) => s :: rest
  | _ => own

/-- The names of the entries that lead from a root to a path. -/
def relativeParts (root path : String) : List String := (stepsBelow root path).filterMap PathStep.name?

/-- The name of a path below a root. -/
def relativeName (root path : String) : String := "/".intercalate (relativeParts root path)

/-- Whether an entry is hidden or holds metadata of the operating system. -/
def isSystemPart (name : String) : Bool := (Text.of name).startsWith "." || name == "__MACOSX"

end SourceAudit

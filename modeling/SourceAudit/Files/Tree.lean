/-
Module: SourceAudit.Files.Tree
Layer: Files
Purpose: A file system as a value: a tree of directories and files and the directory that relative
  paths start from. Paths are followed piece by piece, so that a piece behind a file is an error even
  when it is empty; names and paths have a greatest length; writing gives a new file system.
Main exports: FileError, FileNode, Disk, Disk.locate, Disk.bytes, Disk.text, Disk.size, Disk.listFiles,
  Disk.write, Disk.createDirectories, Disk.store, Disk.changesSince
-/
import SourceAudit.Files.Loading

namespace SourceAudit

/-- Why a file operation fails. -/
inductive FileError where
  | notFound
  | notADirectory
  | isADirectory
  | alreadyExists
  /-- A name or a whole path is longer than the file system allows. -/
  | nameTooLong
  /-- The bytes of the file are no text in UTF-8. -/
  | notText
deriving DecidableEq, Repr

namespace FileError

/-- The number and the wording of an error that the operating system reports. -/
def system? : FileError → Option (Nat × String × String)
  | .notFound => some (2, "NotFound", "No such file or directory")
  | .notADirectory => some (20, "NotADirectory", "Not a directory")
  | .isADirectory => some (21, "IsADirectory", "Is a directory")
  | .alreadyExists => some (17, "AlreadyExists", "File exists")
  | .nameTooLong => some (36, "InvalidFilename", "File name too long")
  | .notText => none

/-- The wording for bytes that are no text. -/
def notTextMessage : String := "stream did not contain valid UTF-8"

/-- The wording of an error in a report. -/
def message (e : FileError) : String :=
  match e.system? with
  | some (code, _, text) => s!"{text} (os error {code})"
  | none => notTextMessage

end FileError

/-- The greatest length of a name in bytes. -/
def maxNameBytes : Nat := 255

/-- The greatest length of a path in bytes. -/
def maxPathBytes : Nat := 4095

/-- Refuses a path that is too long to be followed at all. -/
def checkPathLength (path : String) : Except FileError Unit :=
  if maxPathBytes < path.utf8ByteSize then .error .nameTooLong else .ok ()

/-- Refuses a name that no entry of a directory can have. -/
def checkNameLength (name : String) : Except FileError Unit :=
  if maxNameBytes < name.utf8ByteSize then .error .nameTooLong else .ok ()

/-- A file or a directory. -/
inductive FileNode where
  | file (bytes : ByteArray)
  | directory (entries : List (String × FileNode))

namespace FileNode

/-- A directory without entries. -/
def emptyDirectory : FileNode := .directory []

/-- Whether it is a directory. -/
def isDirectory : FileNode → Bool
  | .directory _ => true
  | .file _ => false

/-- The entry of a directory with a name. -/
def entry? (name : String) : FileNode → Option FileNode
  | .directory entries => entries.lookup name
  | .file _ => none

/-- What lies at the end of a chain of names. -/
def at? : (names : List String) → FileNode → Option FileNode
  | [], node => some node
  | name :: names, node =>
    match node.entry? name with
    | some next => at? names next
    | none => none

/-- The entries with a node put under a name, in place of what was there. -/
def putEntry (name : String) (new : FileNode) (entries : List (String × FileNode)) :
    List (String × FileNode) :=
  (name, new) :: entries.filter fun e => e.1 != name

/-- The node with `new` put at the end of a chain of names. Missing directories are made on the way,
    and a file on the way is left as it is. -/
def put (new : FileNode) : (names : List String) → FileNode → FileNode
  | [], _ => new
  | name :: names, .directory entries =>
    .directory (putEntry name (put new names ((entries.lookup name).getD emptyDirectory)) entries)
  | _ :: _, .file bytes => .file bytes

mutual

/-- The files in a node that lies at `path`; entries that fail the test are passed over. -/
def files (keep : String → Bool) (path : String) : FileNode → List (String × ByteArray)
  | .file bytes => [(path, bytes)]
  | .directory entries => entriesFiles keep path entries

/-- The files in the entries of a directory that lies at `path`. -/
def entriesFiles (keep : String → Bool) (path : String) :
    List (String × FileNode) → List (String × ByteArray)
  | [] => []
  | (name, node) :: rest =>
    if keep name then files keep (joinPath path name) node ++ entriesFiles keep path rest
    else entriesFiles keep path rest

end

mutual

/-- The paths of the directories in a node that lies at `path`, itself included; entries that fail
    the test are passed over. -/
def directories (keep : String → Bool) (path : String) : FileNode → List String
  | .file _ => []
  | .directory entries => path :: entriesDirectories keep path entries

/-- The paths of the directories in the entries of a directory that lies at `path`. -/
def entriesDirectories (keep : String → Bool) (path : String) :
    List (String × FileNode) → List String
  | [] => []
  | (name, node) :: rest =>
    if keep name then directories keep (joinPath path name) node ++ entriesDirectories keep path rest
    else entriesDirectories keep path rest

end

end FileNode

/-- A file system and the directory that relative paths start from. -/
structure Disk where
  top : FileNode
  /-- The names that lead to the working directory. -/
  workingDirectory : List String

namespace Disk

/-- What lies at the end of a chain of names from the top. -/
def node? (d : Disk) (names : List String) : Option FileNode := d.top.at? names

/-- One piece further from the place that `names` lead to. -/
def follow (d : Disk) (names : List String) (piece : Text) : Except FileError (List String) :=
  match d.node? names with
  | none => .error .notFound
  | some node =>
    if !node.isDirectory then .error .notADirectory
    else if piece.isEmpty || piece = ['.'] then .ok names
    else if piece = ['.', '.'] then .ok names.dropLast
    else do
      checkNameLength piece.str
      match node.entry? piece.str with
      | some _ => .ok (names ++ [piece.str])
      | none => .error .notFound

/-- The place that a path starts from. -/
def startOf (d : Disk) (path : String) : List String :=
  if (Text.of path).startsWith "/" then [] else d.workingDirectory

/-- The names that lead to what a path means. -/
def locate (d : Disk) (path : String) : Except FileError (List String) :=
  if path.isEmpty then .error .notFound
  else do
    checkPathLength path
    (slashPieces path).foldlM d.follow (d.startOf path)

/-- What a path means. -/
def find (d : Disk) (path : String) : Except FileError FileNode := do
  match d.node? (← d.locate path) with
  | some node => .ok node
  | none => .error .notFound

/-- The bytes of a file. -/
def bytes (d : Disk) (path : String) : Except FileError ByteArray := do
  match ← d.find path with
  | .file bytes => .ok bytes
  | .directory _ => .error .isADirectory

/-- The text of a file. -/
def text (d : Disk) (path : String) : Except FileError String := do
  match String.fromUTF8? (← d.bytes path) with
  | some s => .ok s
  | none => .error .notText

/-- What a directory counts for when it is measured. -/
def directorySize : Nat := 4096

/-- The size in bytes. -/
def size (d : Disk) (path : String) : Except FileError Nat := do
  match ← d.find path with
  | .file bytes => .ok bytes.size
  | .directory _ => .ok directorySize

/-- Whether an entry is listed. -/
def isListed (name : String) : Bool := !isSystemPart name

/-- The files under a path in the order of paths, without hidden ones; a file lists itself. Every
    directory on the way is opened by its path. -/
def listFiles (d : Disk) (path : String) : Except FileError (List String) := do
  let node ← d.find path
  (node.directories isListed path).forM checkPathLength
  return ((node.files isListed path).map Prod.fst).mergeSort pathsInOrder

/-- The file system with a node put somewhere. -/
def put (d : Disk) (names : List String) (new : FileNode) : Disk := { d with top := FileNode.put new names d.top }

/-- The pieces of a path up to its last one, that last one, and whether separators follow it. -/
def splitLast? (path : String) : Option (List Text × Text × Bool) :=
  let pieces := (slashPieces path).reverse
  let ending := pieces.takeWhile List.isEmpty
  match pieces.drop ending.length with
  | [] => none
  | last :: before => some (before.reverse, last, !ending.isEmpty)

/-- The file system after a file has been written. Only a plain name that is no directory can be
    written to, and the directory it is in has to be there. -/
def write (d : Disk) (path : String) (content : String) : Except FileError Disk :=
  match splitLast? path with
  | none => .error (if path.isEmpty then .notFound else .isADirectory)
  | some (before, last, slashed) => do
    checkPathLength path
    let names ← before.foldlM d.follow (d.startOf path)
    match d.node? names with
    | some (.directory entries) =>
      if slashed || last = ['.'] || last = ['.', '.'] then .error .isADirectory
      else do
        checkNameLength last.str
        match entries.lookup last.str with
        | some (.directory _) => .error .isADirectory
        | _ => .ok (d.put (names ++ [last.str]) (.file content.toUTF8))
    | some (.file _) => .error .notADirectory
    | none => .error .notFound

/-- Makes directories along the steps of a path, from the place that `names` lead to. -/
def createAlong (d : Disk) (names : List String) : List PathStep → Except FileError Disk
  | [] => .ok d
  | .top :: steps => createAlong d [] steps
  | .here :: steps => createAlong d names steps
  | .up :: steps => createAlong d names.dropLast steps
  | .entry name :: steps =>
    match d.node? (names ++ [name]) with
    | some (.directory _) => createAlong d (names ++ [name]) steps
    | some (.file _) => .error (if steps.isEmpty then .alreadyExists else .notADirectory)
    | none => do
      checkNameLength name
      createAlong (d.put (names ++ [name]) .emptyDirectory) (names ++ [name]) steps

/-- The file system with every directory that a path goes through, the path itself left out. -/
def createDirectories (d : Disk) (path : String) : Except FileError Disk := do
  checkPathLength (parentPath path)
  d.createAlong d.workingDirectory (pathSteps path).dropLast

/-- The file system as a store that sources are loaded from. -/
def store (d : Disk) : FileStore where
  list path := (d.listFiles path).mapError fun e => .io e.message
  size path := (d.size path).mapError fun e => .io e.message
  read path := (d.text path).mapError fun e => .io e.message

/-- All files below the place that `names` lead to, by their paths from there. -/
def filesBelow (d : Disk) (names : List String) : List (String × ByteArray) :=
  match d.node? names with
  | some node => node.files (fun _ => true) ""
  | none => []

/-- The files below a place that are new or have other bytes than before. -/
def changesSince (d before : Disk) (names : List String) : List (String × ByteArray) :=
  let old := before.filesBelow names
  (d.filesBelow names).filter fun (path, bytes) =>
    match old.lookup path with
    | some same => same.data != bytes.data
    | none => true

end Disk

end SourceAudit

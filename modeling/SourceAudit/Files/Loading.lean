/-
Module: SourceAudit.Files.Loading
Layer: Files
Purpose: Which files of a store are loaded for analysis. Each listed path becomes one entry, either
  kept with its text or skipped with a reason; hidden files, files of unknown kinds, files above the
  size limit and files with the name and size of one already kept are skipped.
Main exports: FileStore, SkipReason, SkippedSource, LoadEntry, loadEntries, LoadedSources, loadSources,
  supportedExtensions, defaultMaxFileSize
-/
import SourceAudit.Fault
import SourceAudit.Files.Path
import SourceAudit.Source.Basic

namespace SourceAudit

/-- The extensions of the files that are loaded. -/
def supportedExtensions : List String :=
  ["js", "jsx", "ts", "tsx", "mjs", "cjs", "css", "html", "htm", "json", "py", "php", "sol", "vue"]

/-- The size limit unless another is given: one mebibyte. -/
def defaultMaxFileSize : Nat := 1048576

/-- Files that can be listed, measured and read. -/
structure FileStore where
  /-- The files reachable from a root; a root that is a file lists itself. -/
  list : String → Except Fault (List String)
  /-- The size of a file in bytes. -/
  size : String → Except Fault Nat
  /-- The text of a file. -/
  read : String → Except Fault String

/-- Why a file is not loaded. -/
inductive SkipReason where
  /-- Hidden, or metadata of the operating system. -/
  | system
  /-- Of a kind that is not analysed. -/
  | unsupported
  /-- Above the size limit. -/
  | tooLarge
  /-- With the name and size of a file that is already loaded. -/
  | duplicate
deriving DecidableEq, Repr

/-- A file that is not loaded. -/
structure SkippedSource where
  /-- The path as it was listed. -/
  path : String
  reason : SkipReason
deriving DecidableEq, Repr

/-- What becomes of a listed path. -/
inductive LoadEntry where
  | kept (path : String) (file : SourceFile) (size : Nat)
  | skipped (source : SkippedSource)
deriving DecidableEq, Repr

namespace LoadEntry

/-- The path it was listed under. -/
def path : LoadEntry → String
  | .kept path _ _ => path
  | .skipped source => source.path

/-- The file, if it was kept. -/
def file? : LoadEntry → Option SourceFile
  | .kept _ file _ => some file
  | .skipped _ => none

/-- The name and size of a kept file. -/
def identity? : LoadEntry → Option (String × Nat)
  | .kept _ file size => some (file.fileName, size)
  | .skipped _ => none

/-- The skipped path, if it was not kept. -/
def skipped? : LoadEntry → Option SkippedSource
  | .kept _ _ _ => none
  | .skipped source => some source

end LoadEntry

/-- The reason that lies in the name of a file. -/
def nameReason? (parts : List String) (name : String) : Option SkipReason :=
  if parts.any isSystemPart then some .system
  else if !supportedExtensions.contains (extensionOf (Text.of name)).str then some .unsupported
  else none

/-- What becomes of a path listed under a root, after the entries in `done`. -/
def loadEntry (store : FileStore) (limit : Nat) (root : String) (done : List LoadEntry) (path : String) :
    Except Fault LoadEntry :=
  let name := relativeName root path
  match nameReason? (relativeParts root path) name with
  | some reason => .ok (.skipped ⟨path, reason⟩)
  | none => do
    let size ← store.size path
    if limit < size then return .skipped ⟨path, .tooLarge⟩
    else if (name, size) ∈ done.filterMap LoadEntry.identity? then return .skipped ⟨path, .duplicate⟩
    else return .kept path (.named name (← store.read path)) size

/-- The entries with one more for a path. -/
def addEntry (store : FileStore) (limit : Nat) (root : String) (done : List LoadEntry) (path : String) :
    Except Fault (List LoadEntry) := do
  return done ++ [← loadEntry store limit root done path]

/-- The entries with those of a root added. -/
def addRoot (store : FileStore) (limit : Nat) (done : List LoadEntry) (root : String) :
    Except Fault (List LoadEntry) := do
  (← store.list root).foldlM (addEntry store limit root) done

/-- One entry for each path listed under the roots, in order. -/
def loadEntries (store : FileStore) (limit : Nat) (roots : List String) :
    Except Fault (List LoadEntry) :=
  roots.foldlM (addRoot store limit) []

/-- The files to analyse and the paths that were left out, each in the order of the listing. -/
structure LoadedSources where
  files : List SourceFile
  skipped : List SkippedSource
deriving DecidableEq, Repr

/-- Loads the files under the roots; the first fault ends the loading. -/
def loadSources (store : FileStore) (limit : Nat) (roots : List String) :
    Except Fault LoadedSources := do
  let entries ← loadEntries store limit roots
  return ⟨entries.filterMap LoadEntry.file?, entries.filterMap LoadEntry.skipped?⟩

end SourceAudit

/-
Module: SourceAudit.Main
Layer: Program
Purpose: The program on the command line. The files that the arguments name are read first; what the
  command does with them is computed as a value and then carried out.
Main exports: main
-/
import SourceAudit.Command.Execute

namespace SourceAudit.Program

/-- The file or directory at a path, with everything in it. -/
partial def readNode (path : String) : IO (Option FileNode) := do
  let place := System.mkFilePath [path]
  if ← place.isDir then
    let entries ← (← place.readDir).toList.filterMapM fun entry => do
      return (← readNode entry.path.toString).map fun node => (entry.fileName, node)
    return some (.directory entries)
  else if ← place.pathExists then return some (.file (← IO.FS.readBinFile path))
  else return none

/-- The names that lead to a path. -/
def namesOf (workingDirectory : List String) (path : String) : List String :=
  (pathSteps path).foldl
    (fun names step =>
      match step with
      | .top => []
      | .here => names
      | .up => names.dropLast
      | .entry name => names ++ [name])
    workingDirectory

/-- The path that a chain of names from the top stands for. -/
def pathOf (names : List String) : String := "/" ++ "/".intercalate names

/-- The disk with what lies at a path, and with the directories on the way to it. -/
def addPath (disk : Disk) (path : String) : IO Disk := do
  let names := namesOf disk.workingDirectory path
  let mut disk := disk
  for size in List.range names.length do
    let front := names.take size
    if (disk.node? front).isNone && (← (System.mkFilePath [pathOf front]).isDir) then
      disk := disk.put front .emptyDirectory
  match ← readNode path with
  | some node => return disk.put names node
  | none => return disk

/-- The part of an argument that may be a path. -/
def pathIn (arg : String) : String :=
  match Text.cut? (Text.of arg) "=" with
  | some (_, value) => value.str
  | none => arg

/-- Carries out what a command has done to the disk. -/
def carryOut (before after : Disk) : IO Unit := do
  for (path, bytes) in after.changesSince before [] do
    let place := System.mkFilePath ["/" ++ path]
    if let some directory := place.parent then IO.FS.createDirAll directory
    IO.FS.writeBinFile place bytes

end SourceAudit.Program

open SourceAudit SourceAudit.Program

/-- Runs a command line. -/
def main (args : List String) : IO UInt32 := do
  let workingDirectory := namesOf [] (← IO.currentDir).toString
  let start : Disk := ⟨FileNode.put .emptyDirectory workingDirectory .emptyDirectory, workingDirectory⟩
  let disk ← (args.map pathIn).foldlM addPath start
  let concurrency ← IO.getEnv "CODEGUARD_CONCURRENCY"
  let maxFileSize ← IO.getEnv "CODEGUARD_MAX_FILE_SIZE"
  let env : String → Option String
    | "CODEGUARD_CONCURRENCY" => concurrency
    | "CODEGUARD_MAX_FILE_SIZE" => maxFileSize
    | _ => none
  let done := execute args env disk
  carryOut disk done.disk
  IO.print done.output
  IO.eprint done.ending.errorText
  return done.ending.status.toUInt32

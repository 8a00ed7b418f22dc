/-
Module: SourceAudit.Command.Execute
Layer: Command line
Purpose: What a command line does: what it prints, how it ends and what it leaves on the disk. A file
  that cannot be read is part of a report; what stops a command is printed as an error.
Main exports: CommandError, Ending, Execution, execute
-/
import SourceAudit.Command.Basic
import SourceAudit.Command.Runs
import SourceAudit.Files.Tree
import SourceAudit.Json.Printer
import SourceAudit.Text.Quoted

namespace SourceAudit

/-- What stops a command. -/
inductive CommandError where
  | message (text : String)
  | file (e : FileError)
deriving DecidableEq, Repr

/-- An error as it is shown when a command ends with it. -/
def CommandError.shown : CommandError → String
  | .message text => quoted text
  | .file e =>
    match e.system? with
    | some (code, kind, text) =>
      s!"Os \x7b code: {code}, kind: {kind}, message: {quoted text} \x7d"
    | none => s!"Error \x7b kind: InvalidData, message: {quoted e.message} \x7d"

/-- How a command ends. -/
inductive Ending where
  | success
  | failure (e : CommandError)
  /-- The command line makes no sense. -/
  | usage
  /-- More is asked for than can be done at once. -/
  | aborted
deriving DecidableEq, Repr

namespace Ending

/-- The exit status. -/
def status : Ending → Nat
  | .success => 0
  | .failure _ => 1
  | .usage => 2
  | .aborted => 101

/-- What is printed on the standard error output. -/
def errorText : Ending → String
  | .failure e => s!"Error: {e.shown}\n"
  | _ => ""

end Ending

/-- What a command has done. -/
structure Execution where
  ending : Ending
  /-- What was printed on the standard output. -/
  output : String
  disk : Disk

namespace Execution

/-- Nothing was done. -/
def idle (ending : Ending) (disk : Disk) : Execution := ⟨ending, "", disk⟩

end Execution

/-- The name of a file in reports: backslashes count as separators. -/
def reportName (path : String) : String :=
  String.ofList (path.toList.map fun c => if c = '\\' then '/' else c)

/-- The greatest number of files that can be processed at once. -/
def maxConcurrency : Nat := 2305843009213693951

/-- Writes a report to where the options say: to the standard output, or to a file, whose directories
    are made. -/
def emitReport (output : OutputOptions) (content : String) (disk : Disk) : Execution :=
  match output.reportOutput with
  | none => ⟨.success, content, disk⟩
  | some path =>
    match disk.createDirectories path with
    | .error e => .idle (.failure (.file e)) disk
    | .ok made =>
      match made.write path content with
      | .error e => .idle (.failure (.file e)) made
      | .ok written => .idle .success written

/-- The analysis of the project at a root. -/
def analyzeRoot [Engine] (disk : Disk) (limit : Nat) (root : String) : ProjectRun :=
  match loadSources disk.store limit [root] with
  | .ok loaded => ⟨root, .ok ⟨analyzeProject loaded.files, loaded.skipped⟩⟩
  | .error fault => ⟨root, .error fault.message⟩

/-- The text of a file within the size limit, or why there is none. -/
def readWithin (disk : Disk) (limit : Nat) (path : String) : Except String String := do
  let size ← (disk.size path).mapError FileError.message
  if limit < size then .error s!"{path} is {size} bytes, above the {limit} byte limit"
  else (disk.text path).mapError FileError.message

/-- A check of one file. -/
def checkFile {α : Type} (disk : Disk) (limit : Nat) (check : (content name : String) → α)
    (path : String) : Run α :=
  ⟨path, (readWithin disk limit path).map fun content => check content (reportName path)⟩

/-- The report on runs in a format. -/
def formatted {α : Type} [Encode α] (format : OutputFormat) (text markdown : α → String) (x : α) :
    String :=
  match format with
  | .text => text x
  | .markdown => markdown x
  | .json => (encode x).pretty

/-- The fixes with these identifiers, each once; blanks around an identifier and empty ones do not
    count. -/
def requestedFixes (ids : List String) : Except CommandError (List FixKind) :=
  let names := (ids.map fun id => (Text.of id).trim).filter fun name => !name.isEmpty
  keepOnce <$> names.mapM fun name =>
    match FixKind.ofId? name.str with
    | some kind => .ok kind
    | none =>
      .error (.message (s!"unknown fix `{name.str}`; expected one of: " ++
        ", ".intercalate (FixKind.all.map FixKind.id)))

/-- The suggestions that an improvement follows. -/
def chosenSuggestions [Engine] (options : ImproveOptions) (name content : String) :
    Except CommandError (List Suggestion) :=
  if options.fixes.isEmpty then .ok (analyzeFile name content "").suggestions
  else (requestedFixes options.fixes).map fun kinds => kinds.map Suggestion.requesting

/-- Improves a file, and writes the result next to it when that is asked for and something has
    changed. -/
def improveOnDisk [Engine] (disk : Disk) (options : ImproveOptions) :
    Except CommandError (ImprovementRun × Disk) := do
  let content ← (disk.text options.file).mapError CommandError.file
  let name := reportName options.file
  let result := improve name content (← chosenSuggestions options name content)
  let comparison :=
    if options.diff then some (compareLines content result.improvedCode) else none
  if options.write && result.hasChanges then
    let target := (improvedName (Text.of name)).str
    let disk ← (disk.write target result.improvedCode).mapError CommandError.file
    return (⟨options.file, result, comparison, some target⟩, disk)
  else return (⟨options.file, result, comparison, none⟩, disk)

namespace Command

/-- Runs something with as many workers as are asked for, if that many are possible. -/
def withWorkers (load : LoadOptions) (disk : Disk) (run : Execution) : Execution :=
  if maxConcurrency < load.concurrency then .idle .aborted disk else run

/-- What a command does. -/
def run [Engine] (disk : Disk) : Command → Execution
  | .analyze paths failOnError load output =>
    let runs := Run.inPathOrder (paths.map (analyzeRoot disk load.maxFileSize))
    let done := emitReport output (formatted output.format projectText projectMarkdown runs) disk
    let failed := failOnError && runs.any ProjectRun.hasErrors && done.ending == .success
    withWorkers load disk <|
      if failed then { done with ending := .failure (.message "analysis reported errors") } else done
  | .validate files load output =>
    let check (content name : String) := Markup.report (Text.of content) name
    let runs := Run.inPathOrder (files.map (checkFile disk load.maxFileSize check))
    withWorkers load disk <|
      emitReport output (formatted output.format validationText validationMarkdown runs) disk
  | .speed files load output =>
    let check (content name : String) := analyzeSpeed name content
    let runs := Run.inPathOrder (files.map (checkFile disk load.maxFileSize check))
    withWorkers load disk <|
      emitReport output (formatted output.format speedText speedMarkdown runs) disk
  | .improve options output =>
    match improveOnDisk disk options with
    | .error e => .idle (.failure e) disk
    | .ok (run, disk) =>
      emitReport output
        (formatted output.format ImprovementRun.text ImprovementRun.markdown run) disk

/-- What is printed for a command line that asks for help. -/
def helpText : String :=
  textOfLines ["CodeGuard CLI", "", "Usage: codeguard <COMMAND>", "", "Commands:",
    "  analyze   Analyze files or project directories",
    "  validate  Validate HTML documents against structural and accessibility rules",
    "  speed     Score files for page-speed problems",
    "  improve   Apply automatic fixes to a file"]

/-- What is printed for a command line that asks for the version. -/
def versionText : String := "codeguard 0.0.1\n"

end Command

/-- What a command line does. -/
def execute [Engine] (args : List String) (env : String → Option String) (disk : Disk) : Execution :=
  match Command.parse env args with
  | .ok command => command.run disk
  | .error .helpWanted => ⟨.success, Command.helpText, disk⟩
  | .error .versionWanted => ⟨.success, Command.versionText, disk⟩
  | .error .invalid => .idle .usage disk

-- the engine that the program runs with
attribute [instance] Engine.standard

end SourceAudit

/-
Module: SourceAudit.Command.Runs
Layer: Command line
Purpose: What a command finds for each path it is given, and how that is written as text, Markdown or
  JSON. A path that fails is reported in its place and does not stop the others; the runs are put in
  the order of their paths.
Main exports: Run, Run.inPathOrder, ProjectRun, projectText, projectMarkdown, validationText, speedText,
  ImprovementRun, ImprovementRun.text, ImprovementRun.markdown
-/
import SourceAudit.Codec.Report
import SourceAudit.Files.Loading
import SourceAudit.Report.Markdown

namespace SourceAudit

/-- What was found for a path, or why nothing was. -/
structure Run (α : Type) where
  path : String
  outcome : Except String α

namespace Run

/-- The runs in the order of their paths; runs of the same path stay as they are. -/
def inPathOrder {α : Type} (runs : List (Run α)) : List (Run α) :=
  runs.mergeSort fun a b => pathsInOrder a.path b.path

end Run

/-- The report on a project and the files that were left out. -/
structure ProjectFindings where
  report : ProjectReport
  skipped : List SkippedSource

/-- A project that was analysed. -/
abbrev ProjectRun := Run ProjectFindings

/-- Whether a project could not be analysed or did not pass. -/
def ProjectRun.hasErrors (r : ProjectRun) : Bool :=
  match r.outcome with
  | .ok found => found.report.summary.status == .failed
  | .error _ => true

/-- A file that was improved. -/
structure ImprovementRun where
  path : String
  result : Improvement
  /-- The lines before and after, when they are asked for. -/
  comparison : Option (List LineComparison)
  /-- The file that the result was written to. -/
  written : Option String

instance : NamedValues SkipReason where
  nameOf
    | .system => "system"
    | .unsupported => "unsupported"
    | .tooLarge => "too-large"
    | .duplicate => "duplicate"
  values := [.system, .unsupported, .tooLarge, .duplicate]

instance : Encode SkippedSource where
  encode s := .obj [("path", encode s.path), ("reason", encode s.reason)]

instance : Encode ProjectRun where
  encode r :=
    match r.outcome with
    | .ok found => .obj [("root", encode r.path), ("report", encode found.report),
        ("skipped", encode found.skipped)]
    | .error e => .obj [("root", encode r.path), ("skipped", .arr []), ("error", encode e)]

instance {α : Type} [Encode α] : Encode (Run α) where
  encode r :=
    match r.outcome with
    | .ok report => .obj [("path", encode r.path), ("report", encode report)]
    | .error e => .obj [("path", encode r.path), ("error", encode e)]

instance : Encode ImprovementRun where
  encode r := .obj ([("path", encode r.path), ("result", encode r.result)] ++
    optionalField "comparison" r.comparison ++ optionalField "written" r.written)

namespace Run

/-- The lines for a path: its heading, and what was found or why nothing was. -/
def lines {α : Type} (heading : String) (found : α → List String) (r : Run α) : List String :=
  s!"{heading}: {r.path}" ::
    match r.outcome with
    | .ok x => found x ++ [""]
    | .error e => [s!"Status: error ({e})", ""]

/-- The Markdown for a path. -/
def markdown {α : Type} (found : α → String) (r : Run α) : String :=
  match r.outcome with
  | .ok x => found x
  | .error e => textOfLines [s!"# {r.path}", "", s!"Error: {e}", ""]

end Run

/-- The word for a kind of issue. -/
def IssueKind.label : IssueKind → String
  | .error => "error"
  | .warning => "warning"
  | .info => "info"

/-- The lines for a file of a project. -/
def fileLines (f : FileReport) : List String :=
  let fixable := f.suggestions.countP Suggestion.autoFix
  [s!"{f.fileName}: {f.qualityScore}/100"] ++
    (f.issues.map fun i => s!"  [{i.kind.label}] line {i.line}: {i.message}") ++
    (if fixable = 0 then [] else [s!"  {fixable} auto-fixable suggestion(s)"]) ++
    f.deepAnalysis.toList.map fun deep => s!"  deep analysis: {deep.overallScore}/100"

/-- The lines for a project. -/
def projectLines (found : ProjectFindings) : List String :=
  let s := found.report.summary
  [s!"Status: {s.status.name}",
    s!"Files: {found.report.totalFiles} ({found.skipped.length} skipped)",
    s!"Quality: {s.averageQualityScore}/100, {s.totalErrors} errors, {s.totalWarnings} warnings, {s.totalLines} lines"] ++
  (if s.languageStats.isEmpty then ["Languages: none detected"]
    else "Languages:" :: s.languageStats.byShare.map shareLine) ++
  found.report.files.flatMap fileLines

/-- Projects as text. -/
def projectText (runs : List ProjectRun) : String :=
  textOfLines (runs.flatMap (Run.lines "Root" projectLines))

/-- Projects as Markdown. -/
def projectMarkdown (runs : List ProjectRun) : String :=
  String.join (runs.map (Run.markdown fun found => found.report.markdown))

/-- The lines for findings under a heading; none when there are no findings. -/
def findingLines (title : String) (findings : List Markup.Finding) : List String :=
  if findings.isEmpty then []
  else
    s!"{title}:" ::
      findings.map fun f => s!"- line {f.line}: {f.message}" ++ if f.autoFix then " (auto-fix)" else ""

/-- The lines for a validated document. -/
def validationLines (r : Markup.Report) : List String :=
  [s!"Score: {r.score}/100", r.summary.message] ++ findingLines "Errors" r.errors ++
    findingLines "Warnings" r.warnings ++ findingLines "Suggestions" r.suggestions

/-- Validated documents as text. -/
def validationText (runs : List (Run Markup.Report)) : String :=
  textOfLines (runs.flatMap (Run.lines "File" validationLines))

/-- Validated documents as Markdown. -/
def validationMarkdown (runs : List (Run Markup.Report)) : String :=
  String.join (runs.map (Run.markdown Markup.Report.markdown))

/-- The lines for the page speed of a file. -/
def speedLines (r : SpeedReport) : List String :=
  let lcp := Decimal.fixedText 2 r.metrics.lcp
  let tbt := Decimal.plainText r.metrics.tbt
  let cls := Decimal.fixedText 2 r.metrics.cls
  let index := Decimal.fixedText 2 r.metrics.speedIndex
  [s!"Desktop: {r.desktopScore}/100, Mobile: {r.mobileScore}/100",
    s!"Simulated LCP {lcp}s, TBT {tbt}ms, CLS {cls}, Speed Index {index}s"] ++
  if r.issues.isEmpty then ["Issues: none"]
  else "Issues:" :: r.issues.map fun i => s!"- {i.title}: {i.description}"

/-- Page speeds as text. -/
def speedText (runs : List (Run SpeedReport)) : String :=
  textOfLines (runs.flatMap (Run.lines "File" speedLines))

/-- Page speeds as Markdown. -/
def speedMarkdown (runs : List (Run SpeedReport)) : String :=
  String.join (runs.map fun r => r.markdown fun report => report.markdown r.path)

/-- A number written at the right of a column of four. -/
def column4 (n : Nat) : String :=
  let digits := (toString n).toList
  String.ofList (List.replicate (4 - digits.length) ' ' ++ digits)

/-- The two lines for a row of a comparison. -/
def rowLines (row : LineComparison) : List String :=
  [s!"{column4 row.lineNumber} - {row.before}", s!"{column4 row.lineNumber} + {row.after}"]

/-- An improved file as text. -/
def ImprovementRun.text (r : ImprovementRun) : String :=
  let m := r.result.metrics
  let percent := Decimal.plainText m.sizeReductionPercent
  textOfLines <|
    [s!"File: {r.path}"] ++ (if r.result.hasChanges then [] else ["No changes."]) ++
    [s!"Lines changed: {m.linesChanged}, size {m.sizeBefore} -> {m.sizeAfter} ({percent}%)"] ++
    (r.result.appliedFixes.map fun f => s!"+ [{f.fixKind.id}] {f.message}") ++
    (r.result.skippedFixes.map fun f => s!"! {f.message} ({f.reason})") ++
    (r.comparison.toList.flatMap fun rows =>
      (rows.filter LineComparison.isDifferent).flatMap rowLines) ++
    r.written.toList.map fun path => s!"Written: {path}"

/-- An improved file as Markdown. -/
def ImprovementRun.markdown (r : ImprovementRun) : String := r.result.markdown r.path r.comparison

end SourceAudit

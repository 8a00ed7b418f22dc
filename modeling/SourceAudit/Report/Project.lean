/-
Module: SourceAudit.Report.Project
Layer: Analysis
Purpose: The report on a project: the report on each of its files, with a deep analysis for scripts
  and components, and a summary over all of them. A project without files has the full score and
  passes.
Main exports: ProjectStatus, ProjectSummary, ProjectReport, averageScore, summarize, analyzeProject
-/
import SourceAudit.Deep.Analyze
import SourceAudit.Report.File
import SourceAudit.Report.Languages
import SourceAudit.Total

namespace SourceAudit

/-- The verdict on a project. -/
inductive ProjectStatus where
  | passed | failed
deriving DecidableEq, Repr

/-- The word for a verdict. -/
def ProjectStatus.name : ProjectStatus → String
  | .passed => "passed"
  | .failed => "failed"

/-- Totals over the files of a project. -/
structure ProjectSummary where
  totalErrors : Nat
  totalWarnings : Nat
  averageQualityScore : UInt8
  totalLines : Nat
  status : ProjectStatus
  languageStats : LanguageShares
deriving Repr

/-- The report on a project. -/
structure ProjectReport where
  totalFiles : Nat
  files : List FileReport
  summary : ProjectSummary
deriving Repr

/-- The mean of the scores, rounded to the nearest whole number with halves going up. -/
def averageScore (scores : List UInt8) : UInt8 :=
  if scores.isEmpty then 100
  else
    let sum := total (scores.map UInt8.toNat)
    UInt8.ofNat ((2 * sum + scores.length) / (2 * scores.length))

/-- The summary over file reports. Their counts are words of 64 bits, and so are the totals. A project
    passes when its files have no error in total. -/
def summarize (files : List FileReport) (languageStats : LanguageShares) : ProjectSummary :=
  let errors := wordTotal (files.map FileReport.errorCount)
  { totalErrors := errors
    totalWarnings := wordTotal (files.map FileReport.warningCount)
    averageQualityScore := averageScore (files.map FileReport.qualityScore)
    totalLines := wordTotal (files.map FileReport.lines)
    status := if errors = 0 then .passed else .failed
    languageStats }

/-- Whether the files of a family are analysed in depth. -/
def Family.isDeep : Family → Bool
  | .script => true
  | .vue => true
  | _ => false

/-- The report on a file of a project with the given import graph. -/
def projectFileReport [Engine] (dependencies : Option DependencyAnalysis) (file : SourceFile) : FileReport :=
  let report := analyzeFile file.fileName file.content file.fileType
  if (Family.ofName file.fileName).isDeep then
    { report with deepAnalysis := some (deepAnalysisWith file.fileName file.content dependencies) }
  else report

/-- The report on a project. The import graph is made once, from all files. -/
def analyzeProject [Engine] (files : List SourceFile) : ProjectReport :=
  let reports := files.map (projectFileReport (sharedDependencies files))
  { totalFiles := reports.length
    files := reports
    summary := summarize reports (languageShares files) }

end SourceAudit

/-
Module: SourceAudit.Deep.Analyze
Layer: Deep analysis
Purpose: The deep analysis of a file: every sub-scan, the part of the import graph that concerns the
  file, and one score over all of it.
Main exports: overallScore, deepAnalysisWith, deepAnalysis
-/
import SourceAudit.Deep.Design
import SourceAudit.Deep.Hazard
import SourceAudit.Deep.Semantics
import SourceAudit.Imports.Analyze

namespace SourceAudit

/-- The number of findings of a severity. -/
def countSeverity (severity : Severity) (findings : List Finding) : Nat :=
  findings.countP (·.severity == severity)

/-- A number brought into the range from 0 to 100. -/
def clampScore (n : Int) : UInt8 := UInt8.ofNat (min n.toNat 100)

/-- A hundred, less what each finding costs, plus five for each design pattern. Anti-patterns cost by
    severity; those that are neither high nor medium cost nothing. -/
def overallScore (a : DeepAnalysis) : UInt8 :=
  clampScore (100 - 20 * Int.ofNat a.syntaxErrors.length -
    15 * Int.ofNat (countSeverity .high a.antiPatterns) -
    10 * Int.ofNat (countSeverity .medium a.antiPatterns) -
    25 * Int.ofNat a.securityVulnerabilities.length - 15 * Int.ofNat a.runtimeErrors.length -
    5 * Int.ofNat a.semanticWarnings.length - 10 * Int.ofNat a.performanceWarnings.length +
    5 * Int.ofNat a.patterns.length)

/-- Whether a file is written in TypeScript, by the end of its name as it is spelled. -/
def isTypeScript (fileName : String) : Bool :=
  (Text.of fileName).endsWith ".ts" || (Text.of fileName).endsWith ".tsx"

/-- The deep analysis of a file, given the import graph of its project. -/
def deepAnalysisWith [Engine] (fileName content : String) (dependencies : Option DependencyAnalysis) :
    DeepAnalysis :=
  let t := Text.of content
  let scans : DeepAnalysis :=
    { fileName
      patterns := designPatterns t
      antiPatterns := antiPatterns t
      syntaxErrors := syntaxErrors t
      semanticWarnings :=
        isolate (semanticIssues t) ++ if isTypeScript fileName then typeSafety t else []
      runtimeErrors := runtimeErrors t
      performanceWarnings := performanceWarnings t
      securityVulnerabilities := securityVulnerabilities t
      dependencies := dependencies.map fun a => a.forFile fileName
      overallScore := 100 }
  { scans with overallScore := overallScore scans }

/-- The import graph of a project of more than one file. -/
def sharedDependencies [Engine] (files : List SourceFile) : Option DependencyAnalysis :=
  if 1 < files.length then some (analyzeDependencies files) else none

/-- The deep analysis of a file among the files of its project. -/
def deepAnalysis [Engine] (fileName content : String) (files : List SourceFile) : DeepAnalysis :=
  deepAnalysisWith fileName content (sharedDependencies files)

end SourceAudit

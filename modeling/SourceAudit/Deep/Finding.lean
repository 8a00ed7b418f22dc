/-
Module: SourceAudit.Deep.Finding
Layer: Domain
Purpose: What the deep analysis of a file gives: recognised design patterns, findings by sub-scan, and
  the view of the import graph that concerns the file.
Main exports: Severity, FindingCategory, Finding, Confidence, DesignPattern, ImportSpec,
  DependencyNode, ImportGraph, CircularDependency, UnusedImport, DependencyAnalysis, DeepAnalysis
-/
import SourceAudit.Source.ByName

namespace SourceAudit

/-- How grave a finding is. -/
inductive Severity where
  | low | medium | high | critical
deriving DecidableEq, Repr

/-- The sub-scan that a finding comes from. -/
inductive FindingCategory where
  | antiPattern | syntaxError | semanticWarning | semanticError | typeSafety | runtimeError
  | performance | security
deriving DecidableEq, Repr

/-- A finding of the deep analysis. -/
structure Finding where
  category : FindingCategory
  /-- The name of an anti-pattern. -/
  name : Option String
  severity : Severity
  message : String
  line : Nat
deriving DecidableEq, Repr

/-- How sure the recognition of a design pattern is. -/
inductive Confidence where
  | low | medium | high
deriving DecidableEq, Repr

/-- A recognised design pattern. -/
structure DesignPattern where
  name : String
  confidence : Confidence
  message : String
deriving DecidableEq, Repr

/-- One import statement. -/
structure ImportSpec where
  /-- The named bindings as written, aliases included. -/
  named : List String
  /-- The default binding. -/
  default : Option String
  /-- What is imported from. -/
  source : String
deriving DecidableEq, Repr

/-- The imports and exports of a file and the project files it depends on. -/
structure DependencyNode where
  imports : List ImportSpec
  exports : List String
  /-- The imported project files, in the order of the imports. -/
  dependencies : List String
deriving DecidableEq, Repr

/-- A cycle of imports. -/
structure CircularDependency where
  severity : Severity
  /-- The files along the cycle; the first one is repeated at the end. -/
  files : List String
  message : String
deriving DecidableEq, Repr

/-- An imported name that is mentioned nowhere else in its file. -/
structure UnusedImport where
  fileName : String
  name : String
  source : String
deriving DecidableEq, Repr

/-- The import graph: the node of each file. -/
abbrev ImportGraph := ByName DependencyNode

/-- The import graph of a project, with what was found in it. -/
structure DependencyAnalysis where
  graph : ImportGraph
  cycles : List CircularDependency
  unusedImports : List UnusedImport
deriving DecidableEq, Repr

/-- The deep analysis of a file. -/
structure DeepAnalysis where
  fileName : String
  patterns : List DesignPattern
  antiPatterns : List Finding
  syntaxErrors : List Finding
  semanticWarnings : List Finding
  runtimeErrors : List Finding
  performanceWarnings : List Finding
  securityVulnerabilities : List Finding
  /-- What concerns the file in the import graph; only with more than one file. -/
  dependencies : Option DependencyAnalysis
  overallScore : UInt8
deriving DecidableEq, Repr

end SourceAudit

/-
Module: SourceAudit.Imports.Analyze
Layer: Import graph
Purpose: The import graph of a project with its cycles and unused imports, and the part of it that
  concerns one file.
Main exports: importGraph, analyzeDependencies, DependencyAnalysis.forFile
-/
import SourceAudit.Imports.Cycle
import SourceAudit.Imports.Resolve
import SourceAudit.Imports.Statement

namespace SourceAudit

/-- The node of a file among the files with these names. -/
def DependencyNode.ofFile (names : List String) (file : SourceFile) : DependencyNode :=
  let imports := importStatements (Text.of file.content)
  { imports
    exports := exportedNames (Text.of file.content)
    dependencies := imports.filterMap fun i => resolveImport file.fileName i.source names }

/-- The import graph of a project. -/
def importGraph (files : List SourceFile) : ImportGraph :=
  let names := files.map SourceFile.fileName
  ByName.ofList (files.map fun file => (file.fileName, .ofFile names file))

/-- The report on a cycle. -/
def CircularDependency.ofCycle (files : List String) : CircularDependency :=
  ⟨.high, files, "Circular dependency detected: " ++ " -> ".intercalate files⟩

/-- The import graph of a project with what was found in it. -/
def analyzeDependencies [Engine] (files : List SourceFile) : DependencyAnalysis :=
  let graph := importGraph files
  { graph
    cycles := graph.cycles.map CircularDependency.ofCycle
    unusedImports := files.flatMap fun file =>
      let t := Text.of file.content
      isolate (unusedImportsOf file.fileName t (importStatements t)) }

/-- What concerns one file: its own node, the cycles through it and its unused imports. -/
def DependencyAnalysis.forFile (a : DependencyAnalysis) (fileName : String) : DependencyAnalysis :=
  { graph := a.graph.filter fun (file, _) => file = fileName
    cycles := a.cycles.filter fun cycle => cycle.files.contains fileName
    unusedImports := a.unusedImports.filter fun unused => unused.fileName = fileName }

end SourceAudit

/-
Module: SourceAudit.Codec.Finding
Layer: Json
Purpose: The JSON forms of sources, issues, suggestions, and the findings of the deep analysis.
Main exports: Encode and Decode instances for these types
-/
import SourceAudit.Deep.Finding
import SourceAudit.Issue
import SourceAudit.Json.Codec
import SourceAudit.Source.Basic

namespace SourceAudit

instance {α : Type} [Encode α] : Encode (ByName α) where
  encode values := .obj (values.entries.map fun e => (e.1, encode e.2))

/-- Of several fields with the same name the last one counts, but all have to be readable. -/
instance {α : Type} [Decode α] : Decode (ByName α) where
  decode?
    | .obj fields => (fields.mapM fun e => (decode? e.2).map fun x => (e.1, x)).map ByName.ofList
    | _ => none

instance : Encode SourceFile where
  encode f := .obj [("fileName", encode f.fileName), ("content", encode f.content),
    ("type", encode f.fileType)]

instance : Decode SourceFile where
  decode? j := do
    let [fileName, content, fileType] ← j.slots? ["fileName", "content", "type"] | none
    return ⟨← need? fileName, ← need? content, ← needOr? "" fileType⟩

instance : NamedValues IssueKind where
  nameOf
    | .error => "error"
    | .warning => "warning"
    | .info => "info"
  values := [.error, .warning, .info]

instance : Encode Issue where
  encode i := .obj [("type", encode i.kind), ("line", encode i.line), ("message", encode i.message),
    ("code", encode i.code)]

instance : Decode Issue where
  decode? j := do
    let [kind, line, message, code] ← j.slots? ["type", "line", "message", "code"] | none
    return ⟨← need? kind, ← need? line, ← need? message, ← need? code⟩

instance : NamedValues Impact where
  nameOf
    | .low => "low"
    | .medium => "medium"
    | .high => "high"
  values := [.low, .medium, .high]

instance : NamedValues FixKind where
  nameOf := FixKind.id
  values := FixKind.all

instance : Encode Suggestion where
  encode s := .obj ([("type", encode s.category), ("message", encode s.message),
    ("autoFix", encode s.autoFix)] ++ optionalField "fixCode" s.fixCode ++
    optionalField "impact" s.impact ++ optionalField "fixKind" s.fixKind)

instance : Decode Suggestion where
  decode? j := do
    let [category, message, autoFix, fixCode, impact, fixKind] ←
      j.slots? ["type", "message", "autoFix", "fixCode", "impact", "fixKind"] | none
    return ⟨← need? category, ← need? message, ← needOr? false autoFix, ← want? fixCode,
      ← want? impact, ← want? fixKind⟩

instance : NamedValues Severity where
  nameOf
    | .low => "low"
    | .medium => "medium"
    | .high => "high"
    | .critical => "critical"
  values := [.low, .medium, .high, .critical]

instance : NamedValues FindingCategory where
  nameOf
    | .antiPattern => "anti-pattern"
    | .syntaxError => "syntax-error"
    | .semanticWarning => "semantic-warning"
    | .semanticError => "semantic-error"
    | .typeSafety => "type-safety"
    | .runtimeError => "runtime-error"
    | .performance => "performance"
    | .security => "security"
  values := [.antiPattern, .syntaxError, .semanticWarning, .semanticError, .typeSafety,
    .runtimeError, .performance, .security]

instance : Encode Finding where
  encode f := .obj ([("type", encode f.category)] ++ optionalField "name" f.name ++
    [("severity", encode f.severity), ("message", encode f.message), ("line", encode f.line)])

instance : Decode Finding where
  decode? j := do
    let [category, name, severity, message, line] ←
      j.slots? ["type", "name", "severity", "message", "line"] | none
    return ⟨← need? category, ← want? name, ← need? severity, ← need? message, ← need? line⟩

instance : NamedValues Confidence where
  nameOf
    | .low => "low"
    | .medium => "medium"
    | .high => "high"
  values := [.low, .medium, .high]

instance : Encode DesignPattern where
  encode p := .obj [("name", encode p.name), ("confidence", encode p.confidence),
    ("message", encode p.message)]

instance : Decode DesignPattern where
  decode? j := do
    let [name, confidence, message] ← j.slots? ["name", "confidence", "message"] | none
    return ⟨← need? name, ← need? confidence, ← need? message⟩

/-- The default binding is always written, as null when there is none. -/
instance : Encode ImportSpec where
  encode i := .obj [("named", encode i.named),
    ("default", match i.default with
      | some name => encode name
      | none => .null),
    ("from", encode i.source)]

instance : Decode ImportSpec where
  decode? j := do
    let [named, default, source] ← j.slots? ["named", "default", "from"] | none
    return ⟨← need? named, ← want? default, ← need? source⟩

instance : Encode DependencyNode where
  encode n := .obj [("imports", encode n.imports), ("exports", encode n.exports),
    ("dependencies", encode n.dependencies)]

instance : Decode DependencyNode where
  decode? j := do
    let [imports, exports, dependencies] ← j.slots? ["imports", "exports", "dependencies"] | none
    return ⟨← need? imports, ← need? exports, ← need? dependencies⟩

instance : Encode CircularDependency where
  encode c := .obj [("severity", encode c.severity), ("files", encode c.files),
    ("message", encode c.message)]

instance : Decode CircularDependency where
  decode? j := do
    let [severity, files, message] ← j.slots? ["severity", "files", "message"] | none
    return ⟨← need? severity, ← need? files, ← need? message⟩

instance : Encode UnusedImport where
  encode u := .obj [("fileName", encode u.fileName), ("name", encode u.name),
    ("from", encode u.source)]

instance : Decode UnusedImport where
  decode? j := do
    let [fileName, name, source] ← j.slots? ["fileName", "name", "from"] | none
    return ⟨← need? fileName, ← need? name, ← need? source⟩

instance : Encode DependencyAnalysis where
  encode a := .obj [("dependencyGraph", encode a.graph), ("circularDependencies", encode a.cycles),
    ("unusedImports", encode a.unusedImports)]

instance : Decode DependencyAnalysis where
  decode? j := do
    let [graph, cycles, unusedImports] ←
      j.slots? ["dependencyGraph", "circularDependencies", "unusedImports"] | none
    return ⟨← need? graph, ← need? cycles, ← need? unusedImports⟩

instance : Encode DeepAnalysis where
  encode a := .obj ([("fileName", encode a.fileName), ("patterns", encode a.patterns),
    ("antiPatterns", encode a.antiPatterns), ("syntaxErrors", encode a.syntaxErrors),
    ("semanticWarnings", encode a.semanticWarnings), ("runtimeErrors", encode a.runtimeErrors),
    ("performanceWarnings", encode a.performanceWarnings),
    ("securityVulnerabilities", encode a.securityVulnerabilities)] ++
    optionalField "dependencies" a.dependencies ++ [("overallScore", encode a.overallScore)])

instance : Decode DeepAnalysis where
  decode? j := do
    let [fileName, patterns, antiPatterns, syntaxErrors, semanticWarnings, runtimeErrors,
        performanceWarnings, securityVulnerabilities, dependencies, overallScore] ←
      j.slots? ["fileName", "patterns", "antiPatterns", "syntaxErrors", "semanticWarnings",
        "runtimeErrors", "performanceWarnings", "securityVulnerabilities", "dependencies",
        "overallScore"] | none
    return ⟨← need? fileName, ← need? patterns, ← need? antiPatterns, ← need? syntaxErrors,
      ← need? semanticWarnings, ← need? runtimeErrors, ← need? performanceWarnings,
      ← need? securityVulnerabilities, ← want? dependencies, ← need? overallScore⟩

end SourceAudit

/-
Module: SourceAudit.Codec.Report
Layer: Json
Purpose: The JSON forms of the reports on files, projects, documents and page speed, and of
  improvements.
Main exports: Encode and Decode instances for these types
-/
import SourceAudit.Codec.Finding
import SourceAudit.Improve.Basic
import SourceAudit.Markup.Finding
import SourceAudit.Report.PageSpeed
import SourceAudit.Report.Project

namespace SourceAudit

instance : Encode FileReport where
  encode r := .obj ([("fileName", encode r.fileName), ("fileType", encode r.fileType),
    ("lines", encode r.lines), ("size", encode r.size), ("issues", encode r.issues),
    ("suggestions", encode r.suggestions), ("errorCount", encode r.errorCount),
    ("warningCount", encode r.warningCount), ("infoCount", encode r.infoCount),
    ("qualityScore", encode r.qualityScore), ("contentPreview", encode r.contentPreview)] ++
    optionalField "language" r.language ++ optionalField "deepAnalysis" r.deepAnalysis)

instance : Decode FileReport where
  decode? j := do
    let [fileName, fileType, lines, size, issues, suggestions, errorCount, warningCount, infoCount,
        qualityScore, contentPreview, language, deepAnalysis] ←
      j.slots? ["fileName", "fileType", "lines", "size", "issues", "suggestions", "errorCount",
        "warningCount", "infoCount", "qualityScore", "contentPreview", "language",
        "deepAnalysis"] | none
    return ⟨← need? fileName, ← need? fileType, ← need? lines, ← need? size, ← need? issues,
      ← need? suggestions, ← need? errorCount, ← need? warningCount, ← need? infoCount,
      ← need? qualityScore, ← need? contentPreview, ← want? language, ← want? deepAnalysis⟩

instance : NamedValues ProjectStatus where
  nameOf := ProjectStatus.name
  values := [.passed, .failed]

instance : Encode ProjectSummary where
  encode s := .obj [("totalErrors", encode s.totalErrors), ("totalWarnings", encode s.totalWarnings),
    ("averageQualityScore", encode s.averageQualityScore), ("totalLines", encode s.totalLines),
    ("status", encode s.status), ("languageStats", encode s.languageStats)]

instance : Decode ProjectSummary where
  decode? j := do
    let [totalErrors, totalWarnings, averageQualityScore, totalLines, status, languageStats] ←
      j.slots? ["totalErrors", "totalWarnings", "averageQualityScore", "totalLines", "status",
        "languageStats"] | none
    return ⟨← need? totalErrors, ← need? totalWarnings, ← need? averageQualityScore,
      ← need? totalLines, ← need? status, ← need? languageStats⟩

instance : Encode ProjectReport where
  encode r := .obj [("totalFiles", encode r.totalFiles), ("files", encode r.files),
    ("summary", encode r.summary)]

instance : Decode ProjectReport where
  decode? j := do
    let [totalFiles, files, summary] ← j.slots? ["totalFiles", "files", "summary"] | none
    return ⟨← need? totalFiles, ← need? files, ← need? summary⟩

instance : NamedValues Markup.FindingKind where
  nameOf
    | .error => "error"
    | .warning => "warning"
    | .suggestion => "suggestion"
    | .info => "info"
  values := [.error, .warning, .suggestion, .info]

instance : Encode Markup.Finding where
  encode f := .obj ([("line", encode f.line), ("type", encode f.kind),
    ("category", encode f.category), ("message", encode f.message),
    ("suggestion", encode f.suggestion), ("fixCode", encode f.fixCode),
    ("autoFix", encode f.autoFix)] ++ optionalField "fixKind" f.fixKind)

instance : Decode Markup.Finding where
  decode? j := do
    let [line, kind, category, message, suggestion, fixCode, autoFix, fixKind] ←
      j.slots? ["line", "type", "category", "message", "suggestion", "fixCode", "autoFix",
        "fixKind"] | none
    return ⟨← need? line, ← need? kind, ← need? category, ← need? message, ← need? suggestion,
      ← need? fixCode, ← need? autoFix, ← want? fixKind⟩

instance : Encode Markup.Validation where
  encode v := .obj [("isValid", encode v.isValid), ("errors", encode v.errors),
    ("warnings", encode v.warnings), ("suggestions", encode v.suggestions),
    ("score", encode v.score)]

instance : NamedValues Markup.Status where
  nameOf
    | .valid => "Valid"
    | .invalid => "Invalid"
  values := [.valid, .invalid]

instance : Encode Markup.Summary where
  encode s := .obj [("errorCount", encode s.errorCount), ("warningCount", encode s.warningCount),
    ("suggestionCount", encode s.suggestionCount), ("status", encode s.status),
    ("message", encode s.message)]

instance : Decode Markup.Summary where
  decode? j := do
    let [errorCount, warningCount, suggestionCount, status, message] ←
      j.slots? ["errorCount", "warningCount", "suggestionCount", "status", "message"] | none
    return ⟨← need? errorCount, ← need? warningCount, ← need? suggestionCount, ← need? status,
      ← need? message⟩

instance : Encode Markup.Report where
  encode r := .obj [("fileName", encode r.fileName), ("validator", encode r.validator),
    ("isValid", encode r.isValid), ("score", encode r.score),
    ("totalIssues", encode r.totalIssues), ("errors", encode r.errors),
    ("warnings", encode r.warnings), ("suggestions", encode r.suggestions),
    ("summary", encode r.summary)]

instance : Decode Markup.Report where
  decode? j := do
    let [fileName, validator, isValid, score, totalIssues, errors, warnings, suggestions, summary] ←
      j.slots? ["fileName", "validator", "isValid", "score", "totalIssues", "errors", "warnings",
        "suggestions", "summary"] | none
    return ⟨← need? fileName, ← need? validator, ← need? isValid, ← need? score,
      ← need? totalIssues, ← need? errors, ← need? warnings, ← need? suggestions,
      ← need? summary⟩

instance : Encode WebVitals where
  encode v := .obj [("lcp", encode v.lcp), ("tbt", encode v.tbt), ("cls", encode v.cls),
    ("speedIndex", encode v.speedIndex)]

instance : Decode WebVitals where
  decode? j := do
    let [lcp, tbt, cls, speedIndex] ← j.slots? ["lcp", "tbt", "cls", "speedIndex"] | none
    return ⟨← need? lcp, ← need? tbt, ← need? cls, ← need? speedIndex⟩

instance : Encode SpeedIssue where
  encode i := .obj [("impact", encode i.impact), ("title", encode i.title),
    ("description", encode i.description)]

instance : Decode SpeedIssue where
  decode? j := do
    let [impact, title, description] ← j.slots? ["impact", "title", "description"] | none
    return ⟨← need? impact, ← need? title, ← need? description⟩

instance : Encode SpeedReport where
  encode r := .obj [("desktopScore", encode r.desktopScore), ("mobileScore", encode r.mobileScore),
    ("metrics", encode r.metrics), ("issues", encode r.issues)]

instance : Decode SpeedReport where
  decode? j := do
    let [desktopScore, mobileScore, metrics, issues] ←
      j.slots? ["desktopScore", "mobileScore", "metrics", "issues"] | none
    return ⟨← need? desktopScore, ← need? mobileScore, ← need? metrics, ← need? issues⟩

instance : Encode AppliedFix where
  encode f := .obj ([("type", encode f.category), ("message", encode f.message)] ++
    optionalField "fixCode" f.fixCode ++ [("fixKind", encode f.fixKind)])

instance : Decode AppliedFix where
  decode? j := do
    let [category, message, fixCode, fixKind] ←
      j.slots? ["type", "message", "fixCode", "fixKind"] | none
    return ⟨← need? category, ← need? message, ← want? fixCode, ← need? fixKind⟩

instance : Encode SkippedFix where
  encode f := .obj [("type", encode f.category), ("message", encode f.message),
    ("reason", encode f.reason)]

instance : Decode SkippedFix where
  decode? j := do
    let [category, message, reason] ← j.slots? ["type", "message", "reason"] | none
    return ⟨← need? category, ← need? message, ← need? reason⟩

instance : Encode ImprovementMetrics where
  encode m := .obj [("linesChanged", encode m.linesChanged),
    ("consolesRemoved", encode m.consolesRemoved), ("varsReplaced", encode m.varsReplaced),
    ("sizeReduction", encode m.sizeReduction),
    ("sizeReductionPercent", encode m.sizeReductionPercent),
    ("originalLines", encode m.linesBefore), ("improvedLines", encode m.linesAfter),
    ("originalSize", encode m.sizeBefore), ("improvedSize", encode m.sizeAfter)]

instance : Decode ImprovementMetrics where
  decode? j := do
    let [linesChanged, consolesRemoved, varsReplaced, sizeReduction, sizeReductionPercent,
        linesBefore, linesAfter, sizeBefore, sizeAfter] ←
      j.slots? ["linesChanged", "consolesRemoved", "varsReplaced", "sizeReduction",
        "sizeReductionPercent", "originalLines", "improvedLines", "originalSize",
        "improvedSize"] | none
    return ⟨← need? linesChanged, ← need? consolesRemoved, ← need? varsReplaced,
      ← need? sizeReduction, ← need? sizeReductionPercent, ← need? linesBefore,
      ← need? linesAfter, ← need? sizeBefore, ← need? sizeAfter⟩

instance : Encode Improvement where
  encode r := .obj [("improvedCode", encode r.improvedCode), ("appliedFixes", encode r.appliedFixes),
    ("skippedFixes", encode r.skippedFixes), ("metrics", encode r.metrics),
    ("hasChanges", encode r.hasChanges)]

instance : Decode Improvement where
  decode? j := do
    let [improvedCode, appliedFixes, skippedFixes, metrics, hasChanges] ←
      j.slots? ["improvedCode", "appliedFixes", "skippedFixes", "metrics", "hasChanges"] | none
    return ⟨← need? improvedCode, ← need? appliedFixes, ← need? skippedFixes, ← need? metrics,
      ← need? hasChanges⟩

instance : NamedValues ChangeType where
  nameOf
    | .unchanged => "unchanged"
    | .modified => "modified"
    | .added => "added"
    | .removed => "removed"
  values := [.unchanged, .modified, .added, .removed]

instance : Encode LineComparison where
  encode c := .obj [("lineNumber", encode c.lineNumber), ("original", encode c.before),
    ("improved", encode c.after), ("isDifferent", encode c.isDifferent),
    ("changeType", encode c.changeType)]

instance : Decode LineComparison where
  decode? j := do
    let [lineNumber, before, after, isDifferent, changeType] ←
      j.slots? ["lineNumber", "original", "improved", "isDifferent", "changeType"] | none
    return ⟨← need? lineNumber, ← need? before, ← need? after, ← need? isDifferent,
      ← need? changeType⟩

end SourceAudit

/-
Module: SourceAudit.Proofs.Report.Verdict
Layer: Proofs
Purpose: The verdict on a markup document is the same everywhere. Its errors are those of the validation,
  for the report on a file, the report on a project and the report on the document; the rules for every
  family add warnings and notes to it, and no errors.
Main exports: countKind_of_markup, errorCount_analyzeFile, length_warnings_le_warningCount,
  status_analyzeProject_iff, markup_verdict_agrees
-/
import SourceAudit.Proofs.Report.FamilyGravity
import SourceAudit.Proofs.Report.Project

namespace SourceAudit

section

variable {fileName : String} (markup : Family.ofName fileName = .html)
include markup

/-- The issues of a markup file are those of the rules for every family and those of the validation. -/
theorem countKind_of_markup [Engine] (kind : IssueKind) (t : Text) :
    countKind kind (issuesOf (Rule.outcomes (rulesFor fileName) (.ofFile fileName t))) =
      (Universal.rules.flatMap fun rule => rule.gravities (.ofFile fileName t)).count kind +
        (List.replicate (Markup.validate t).errors.length IssueKind.error ++
          List.replicate (Markup.validate t).warnings.length IssueKind.warning).count kind := by
  rw [countKind_rulesFor, markup, Family.rules, Html.rules, List.flatMap_singleton,
    Html.gravities_validation_eq]
  rfl

/-- The errors of a markup file are those of its validation. -/
theorem errorCount_analyzeFile [Engine] (content fileType : String) :
    (analyzeFile fileName content fileType).errorCount =
      (Markup.validate (Text.of content)).errors.length := by
  have none := List.count_eq_zero.2 (Universal.error_not_mem_gravities fileName (Text.of content))
  have others : (List.replicate (Markup.validate (Text.of content)).warnings.length
      IssueKind.warning).count .error = 0 :=
    List.count_eq_zero.2 fun mem => nomatch List.eq_of_mem_replicate mem
  refine (countKind_of_markup markup .error (Text.of content)).trans ?_
  rw [none, List.count_append, List.count_replicate_self, others, Nat.zero_add, Nat.add_zero]

/-- The warnings of a markup file are those of its validation and maybe others. -/
theorem length_warnings_le_warningCount [Engine] (content fileType : String) :
    (Markup.validate (Text.of content)).warnings.length ≤
      (analyzeFile fileName content fileType).warningCount := by
  have counted : (analyzeFile fileName content fileType).warningCount = _ :=
    countKind_of_markup markup .warning (Text.of content)
  rw [counted, List.count_append, List.count_replicate_self]
  omega

end

theorem total_eq_zero_iff {counts : List Nat} : total counts = 0 ↔ ∀ n ∈ counts, n = 0 := by
  induction counts with
  | nil => simp [total]
  | cons n counts ih =>
    have sum : total (n :: counts) = n + total counts := rfl
    rw [sum, Nat.add_eq_zero_iff, ih, List.forall_mem_cons]

/-- A project that memory can hold passes exactly if none of its files has an error. -/
theorem status_analyzeProject_iff [Engine] {files : List SourceFile}
    (fits : (analyzeProject files).FitsMemory) :
    (analyzeProject files).summary.status = .passed ↔
      ∀ file ∈ files, (analyzeFile file.fileName file.content file.fileType).errorCount = 0 := by
  have errors (file : SourceFile) : (projectFileReport none file).errorCount =
      (analyzeFile file.fileName file.content file.fileType).errorCount := by
    rw [projectFileReport]
    split <;> rfl
  have sum := fits.totalsFit.errors
  rw [map_files_analyzeProject (fun _ => rfl)] at sum
  rw [(sameTotals_analyzeProject files).status, status_summarize_iff, summarize, wordTotal_eq_total sum,
    total_eq_zero_iff]
  simp only [List.map_map, List.forall_mem_map, Function.comp_apply, errors]

theorem isValid_validate_iff [Engine] (html : Text) :
    (Markup.validate html).isValid = true ↔ (Markup.validate html).errors.length = 0 := by
  rw [List.length_eq_zero_iff, ← List.isEmpty_iff]
  rfl

theorem status_report_iff [Engine] (html : Text) (fileName : String) :
    (Markup.report html fileName).summary.status = .valid ↔ (Markup.validate html).isValid = true := by
  simp only [Markup.report]
  split <;> simp_all

/-- The validation, the report on a file, the report on a project and the report on a document come to
    the same verdict on markup. -/
theorem markup_verdict_agrees [Engine] :
    (∀ fileName content fileType, Family.ofName fileName = .html →
      (analyzeFile fileName content fileType).errorCount =
          (Markup.validate (Text.of content)).errors.length ∧
        (Markup.validate (Text.of content)).warnings.length ≤
          (analyzeFile fileName content fileType).warningCount) ∧
    (∀ files : List SourceFile, (∀ file ∈ files, Family.ofName file.fileName = .html) →
      (analyzeProject files).FitsMemory →
      ((analyzeProject files).summary.status = .passed ↔
        ∀ file ∈ files, (Markup.validate (Text.of file.content)).isValid = true)) ∧
    (∀ content fileName, (Markup.report (Text.of content) fileName).summary.status = .valid ↔
      (Markup.validate (Text.of content)).isValid = true) := by
  refine ⟨?_, ?_, fun content fileName => status_report_iff _ fileName⟩
  · exact fun fileName content fileType markup =>
      ⟨errorCount_analyzeFile markup content fileType,
        length_warnings_le_warningCount markup content fileType⟩
  · intro files markup fits
    rw [status_analyzeProject_iff fits]
    refine forall₂_congr fun file mem => ?_
    rw [errorCount_analyzeFile (markup file mem), isValid_validate_iff]

attribute [local instance] Engine.standard in
theorem markup_verdict_agrees_page :
    (analyzeFile "page.html" "<p>" "html").errorCount =
        (Markup.validate (Text.of "<p>")).errors.length ∧
      ((analyzeProject [⟨"page.html", "<p>", "html"⟩]).summary.status = .passed ↔
        ∀ file ∈ [SourceFile.mk "page.html" "<p>" "html"],
          (Markup.validate (Text.of file.content)).isValid = true) :=
  ⟨(markup_verdict_agrees.1 _ _ _ (by decide)).1,
    markup_verdict_agrees.2.1 _ (by decide) (by constructor <;> decide +kernel)⟩

end SourceAudit

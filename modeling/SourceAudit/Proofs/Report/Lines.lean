/-
Module: SourceAudit.Proofs.Report.Lines
Layer: Proofs
Purpose: Every reported line exists. An issue, a finding of the validation and a finding of the deep
  analysis stand on a line of the text; only what the validation says about a document as a whole
  stands on line 0, and only the report on an HTML file passes that on.
Main exports: AllPlaced, DeepAnalysis.findings, allPlaced_deepAnalysis, reported_lines_exist
-/
import SourceAudit.Deep.Analyze
import SourceAudit.Proofs.Report.Outcomes

namespace SourceAudit

/-! ### The deep analysis -/

/-- All findings stand on lines of the text. -/
def AllPlaced (t : Text) (findings : List Finding) : Prop := ∀ f ∈ findings, t.HasLine f.line

section Scans

variable {t : Text}

theorem allPlaced_nil : AllPlaced t [] := fun _ mem => by cases mem

theorem allPlaced_one {f : Finding} (placed : t.HasLine f.line) : AllPlaced t [f] :=
  fun _ mem => List.mem_singleton.1 mem ▸ placed

theorem allPlaced_append {fs gs : List Finding} (first : AllPlaced t fs) (second : AllPlaced t gs) :
    AllPlaced t (fs ++ gs) :=
  List.forall_mem_append.2 ⟨first, second⟩

theorem allPlaced_if {c : Prop} [Decidable c] {fs gs : List Finding} (first : AllPlaced t fs)
    (second : AllPlaced t gs) : AllPlaced t (if c then fs else gs) := by
  split
  · exact first
  · exact second

theorem allPlaced_firstMatch (p : Pattern) (category : FindingCategory) (severity : Severity)
    (message : String) : AllPlaced t (firstMatch p category severity message t) := by
  rw [firstMatch]
  split
  · exact allPlaced_one (t.hasLine_lineAt _)
  · exact allPlaced_nil

theorem allPlaced_antiPatterns : AllPlaced t (antiPatterns t) := by
  refine allPlaced_append (allPlaced_append (allPlaced_append (allPlaced_append ?_ ?_) ?_) ?_) ?_
  · simp only [godObject]
    split
    · exact allPlaced_if (allPlaced_one (t.hasLine_lineHolding _)) allPlaced_nil
    · exact allPlaced_nil
  all_goals exact allPlaced_if (allPlaced_one t.hasLine_one) allPlaced_nil

theorem allPlaced_syntaxErrors : AllPlaced t (syntaxErrors t) :=
  allPlaced_append (allPlaced_if allPlaced_nil (allPlaced_one t.hasLine_one))
    (allPlaced_if allPlaced_nil (allPlaced_one t.hasLine_one))

theorem allPlaced_unusedDeclarations [Engine] : AllPlaced t (isolate (unusedDeclarations t)) := by
  refine forall_mem_isolate_mapM fun hit _ => ?_
  cases t.wordIndex.countWord (hit.groupChars 1) with
  | error fault => exact allPlaced_nil
  | ok n =>
    change AllPlaced t (isolate (if n = 1 then .ok [_] else .ok []))
    split
    · exact allPlaced_one (t.hasLine_lineHolding hit.chars)
    · exact allPlaced_nil

/-- When a declared name cannot be looked up, nothing is found. -/
theorem allPlaced_semanticIssues [Engine] : AllPlaced t (isolate (semanticIssues t)) := by
  have unused := allPlaced_unusedDeclarations (t := t)
  rw [semanticIssues]
  cases counted : unusedDeclarations t with
  | error fault => exact allPlaced_nil
  | ok found =>
    rw [counted] at unused
    cases looked : constReassignment? t with
    | error fault => exact allPlaced_nil
    | ok reassigned =>
    refine allPlaced_append (allPlaced_append unused ?_) ?_
    · split
      · exact allPlaced_one (t.hasLine_lineAt _)
      · exact allPlaced_nil
    · split
      · exact allPlaced_one (t.hasLine_lineAt _)
      · exact allPlaced_nil

theorem allPlaced_typeSafety : AllPlaced t (typeSafety t) := by
  refine allPlaced_append ?_
    (allPlaced_if (allPlaced_one (t.hasLine_lineHolding ": any")) allPlaced_nil)
  intro f mem
  obtain ⟨hit, -, rfl⟩ := List.mem_map.1 mem
  exact t.hasLine_lineIndex hit.offset

theorem allPlaced_runtimeErrors : AllPlaced t (runtimeErrors t) := by
  refine allPlaced_append (allPlaced_append ?_ (allPlaced_firstMatch _ _ _ _)) ?_
  · rw [undefinedAccess]
    split
    · exact allPlaced_one (t.hasLine_lineHolding _)
    · exact allPlaced_nil
  · rw [infiniteLoop]
    split
    · exact allPlaced_if allPlaced_nil (allPlaced_one (t.hasLine_lineAt _))
    · exact allPlaced_nil

theorem allPlaced_performanceWarnings : AllPlaced t (performanceWarnings t) := by
  refine allPlaced_append (allPlaced_append (allPlaced_firstMatch _ _ _ _) ?_) ?_
  · exact allPlaced_if (allPlaced_one (t.hasLine_lineHolding "document.")) allPlaced_nil
  · rw [waitingLoops]
    split
    · exact allPlaced_one (t.hasLine_lineAt _)
    · exact allPlaced_nil

theorem allPlaced_securityVulnerabilities : AllPlaced t (securityVulnerabilities t) := by
  refine allPlaced_append (allPlaced_append (allPlaced_append (allPlaced_firstMatch _ _ _ _)
    (allPlaced_firstMatch _ _ _ _)) ?_) ?_
  · intro f mem
    obtain ⟨p, -, mem⟩ := List.mem_flatMap.1 mem
    exact allPlaced_firstMatch _ _ _ _ f mem
  · exact allPlaced_if (allPlaced_firstMatch _ _ _ _) allPlaced_nil

end Scans

/-- The lists of findings of a deep analysis. -/
def DeepAnalysis.findings (a : DeepAnalysis) : List (List Finding) :=
  [a.antiPatterns, a.syntaxErrors, a.semanticWarnings, a.runtimeErrors, a.performanceWarnings,
    a.securityVulnerabilities]

theorem allPlaced_deepAnalysis [Engine] (fileName content : String) (files : List SourceFile) :
    ∀ found ∈ (deepAnalysis fileName content files).findings, AllPlaced (Text.of content) found := by
  simp only [DeepAnalysis.findings, List.forall_mem_cons]
  refine ⟨allPlaced_antiPatterns, allPlaced_syntaxErrors, ?_, allPlaced_runtimeErrors,
    allPlaced_performanceWarnings, allPlaced_securityVulnerabilities, fun _ mem => by cases mem⟩
  exact allPlaced_append allPlaced_semanticIssues (allPlaced_if allPlaced_typeSafety allPlaced_nil)

/-! ### The reports -/

/-- An issue stands on a line, or it passes on what the validation says about the whole document. -/
theorem line_of_mem_issues [Engine] {fileName content fileType : String} {i : Issue}
    (mem : i ∈ (analyzeFile fileName content fileType).issues) :
    i.line ≤ (Text.of content).lines.length ∧
      (i.line = 0 → Family.ofName fileName = .html ∧ Markup.IsAboutWhole i.message) := by
  cases isOutcomeOf_of_mem_issues mem with
  | placed line => exact ⟨line.2, fun zero => absurd line.1 (by omega)⟩
  | found kind code family found =>
    have placed := Markup.isPlacedIn_of_mem_findings found
    exact ⟨placed.1, fun zero => ⟨family, placed.2 zero⟩⟩

/-- Every reported line exists. An issue stands on one of the lines that the report counts, or on line
    0 if it is about an HTML document as a whole; so does a finding of the validation. A finding of the
    deep analysis stands on a line. -/
theorem reported_lines_exist [Engine] (fileName content fileType : String) (files : List SourceFile) :
    (∀ i ∈ (analyzeFile fileName content fileType).issues,
      i.line ≤ (analyzeFile fileName content fileType).lines ∧
        (i.line = 0 → Family.ofName fileName = .html ∧ Markup.IsAboutWhole i.message)) ∧
    (∀ f ∈ Markup.findings (Text.of content), f.line ≤ (Text.of content).lines.length ∧
      (f.line = 0 → Markup.IsAboutWhole f.message)) ∧
    ∀ found ∈ (deepAnalysis fileName content files).findings, ∀ f ∈ found,
      1 ≤ f.line ∧ f.line ≤ (Text.of content).lines.length :=
  ⟨fun _ mem => line_of_mem_issues mem, fun _ mem => Markup.isPlacedIn_of_mem_findings mem,
    allPlaced_deepAnalysis fileName content files⟩

end SourceAudit

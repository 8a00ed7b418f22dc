/-
Module: SourceAudit.Proofs.Debugging.Score
Layer: Proofs
Purpose: What a debug statement at the end of a file does to the report. It takes no error and no note
  away, it adds the warning about itself, and the score does not rise; except that in a markup file it
  can complete labels, and then a warning is lost for each input that gets one.
Main exports: labelsCompletedIn, count_family_debugStatement, debugStatement_loses_only_labels
-/
import SourceAudit.Proofs.Debugging.Functions
import SourceAudit.Proofs.Debugging.Markup

namespace SourceAudit

open Html

/-- The identified inputs of a markup file whose label is completed by the statement. The files of the
    other families have none. -/
def labelsCompletedIn [Engine] (fileName : String) (t : Text) : List (Text × Hit) :=
  if Family.ofName fileName = .html then completedLabels t else []

/-- In front of the statement a file of any family but markup has all the findings it has without. -/
theorem family_eased_debugStatement [Engine] {family : Family} (other : family ≠ .html) (t : Text) :
    family.Eased (t ++ debugStatement) t := by
  cases family with
  | html => exact absurd rfl other
  | script => exact script_eased_debugStatement t
  | python => exact python_eased_debugStatement t
  | php => exact php_eased_debugStatement t
  | solidity => exact solidity_eased_debugStatement t
  | vue => exact vue_eased_debugStatement t
  | other => trivial

/-- The rules of a family have no fewer issues in front of the statement, completed labels apart. -/
theorem count_family_debugStatement [Engine] (kind : IssueKind) (fileName : String) (t : Text) :
    ((Family.ofName fileName).rules.flatMap fun rule => rule.gravities (.ofFile fileName t)).count kind ≤
      ((Family.ofName fileName).rules.flatMap
        fun rule => rule.gravities (.ofFile fileName (t ++ debugStatement))).count kind +
      if kind = .warning then (labelsCompletedIn fileName t).length else 0 := by
  by_cases markup : Family.ofName fileName = .html
  · obtain ⟨errors, warnings⟩ := count_checks_debugStatement t
    rw [labelsCompletedIn, if_pos markup, markup, Family.rules, Html.rules, List.flatMap_singleton,
      List.flatMap_singleton, gravities_validation_eq_kinds, gravities_validation_eq_kinds,
      count_errors_warnings, count_errors_warnings]
    cases kind with
    | error => exact Nat.le_of_eq errors.symm
    | warning => exact Nat.le_of_eq warnings.symm
    | info => exact Nat.le_refl 0
  · generalize Family.ofName fileName = family at markup ⊢
    have eased := family_eased_debugStatement markup t
    have kept := List.Sublist.flatMap_right family.rules
      fun rule mem => eased.sublist fileName mem
    exact Nat.le_add_right_of_le (kept.count_le kind)

/-- How many warnings about itself the statement adds: one, unless the text has the same warning
    without. -/
def ownWarnings (t : Text) : Nat := if t.includes "console.log" then 0 else 1

/-- The rules for every family have no fewer issues in front of the statement, and the warning about the
    statement besides. -/
theorem count_universal_add_le (kind : IssueKind) (fileName : String) (t : Text) :
    (Universal.rules.flatMap fun rule => rule.gravities (.ofFile fileName t)).count kind +
        (if kind = .warning then ownWarnings t else 0) ≤
      (Universal.rules.flatMap fun rule =>
        rule.gravities (.ofFile fileName (t ++ debugStatement))).count kind := by
  by_cases warning : kind = .warning
  · subst warning
    exact count_universal_debugStatement fileName t
  · have eased := universal_eased_debugStatement t
    have kept := List.Sublist.flatMap_right Universal.rules
      fun rule mem => eased.sublist fileName mem
    rw [if_neg warning]
    exact kept.count_le kind

/-- The issues of a report in front of the statement and without it. -/
theorem countKind_debugStatement [Engine] (kind : IssueKind) (fileName : String) (t : Text) :
    countKind kind (issuesOf (Rule.outcomes (rulesFor fileName) (.ofFile fileName t))) +
        (if kind = .warning then ownWarnings t else 0) ≤
      countKind kind
          (issuesOf (Rule.outcomes (rulesFor fileName) (.ofFile fileName (t ++ debugStatement)))) +
        if kind = .warning then (labelsCompletedIn fileName t).length else 0 := by
  have everywhere := count_universal_add_le kind fileName t
  have own := count_family_debugStatement kind fileName t
  rw [countKind_rulesFor, countKind_rulesFor]
  omega

/-- A debug statement at the end never makes a report better, but for the labels that it completes: for
    each of them a warning may be lost, and the identifier of such a label ends as the statement starts,
    up to case. -/
theorem debugStatement_loses_only_labels [Engine] (fileName content fileType : String) :
    let before := analyzeFile fileName content fileType
    let after := analyzeFile fileName (content ++ "\nconsole.log('debug');") fileType
    let added := ownWarnings (Text.of content)
    let completed := labelsCompletedIn fileName (Text.of content)
    before.errorCount ≤ after.errorCount ∧
      before.infoCount ≤ after.infoCount ∧
      before.warningCount + added ≤ after.warningCount + completed.length ∧
      (after.FitsMemory →
        after.qualityScore.toNat ≤ before.qualityScore.toNat + 5 * (completed.length - added)) ∧
      ∀ input ∈ completed, Family.ofName fileName = .html ∧
        ∃ back, back <:+ input.1 ∧
          List.Forall₂ (fun x y => sameFold x y = true) back "\nconsole.log(".toList := by
  have whole : Text.of (content ++ "\nconsole.log('debug');") = Text.of content ++ debugStatement :=
    String.toList_append
  have counted (kind : IssueKind) := countKind_debugStatement kind fileName (Text.of content)
  rw [← whole] at counted
  have errors := counted .error
  have infos := counted .info
  have warnings := counted .warning
  simp only [reduceCtorEq, if_false, if_true, Nat.add_zero] at errors infos warnings
  refine ⟨errors, infos, warnings, fun fits => ?_, ?_⟩
  · exact wordScore_le_add (penalty_lt_of_fitsMemory fits) errors warnings infos
  intro input mem
  rw [labelsCompletedIn] at mem
  split at mem
  · rename_i markup
    exact ⟨markup, exists_suffix_of_mem_completedLabels mem⟩
  · cases mem

/-- The issues of a markup file, told by what the rules look for. -/
theorem countKind_of_includes [Engine] {fileName : String} (markup : Family.ofName fileName = .html)
    (kind : IssueKind) (t : Text) :
    countKind kind (issuesOf (Rule.outcomes (rulesFor fileName) (.ofFile fileName t))) =
      ((if t.includes "console.log" then [IssueKind.warning] else []) ++
        ((if Universal.varDeclaration.occurs t then [IssueKind.warning] else []) ++
          if t.includes "TODO" || t.includes "FIXME" then [IssueKind.info] else [])).count kind +
      match kind with
      | .error => (kindsOfChecks (Markup.checks t)).count .error
      | .warning => (kindsOfChecks (Markup.checks t)).count .warning
      | .info => 0 := by
  rw [countKind_rulesFor, Universal.flatMap_gravities, markup, Family.rules, Html.rules,
    List.flatMap_singleton, gravities_validation_eq_kinds, count_errors_warnings]
  rfl

/-- A page that ends in the opening of a label, and has an input whose identifier is the start of the
    statement. -/
def openLabelPage : String := "<!doctype><input id=\"\nconsole.log(\"><label for=\""

attribute [local instance] Engine.standard in
/-- The statement completes the label of the page, so the report gets better. -/
theorem debugStatement_improves_openLabelPage :
    let before := analyzeFile "a.html" openLabelPage "html"
    let after := analyzeFile "a.html" (openLabelPage ++ "\nconsole.log('debug');") "html"
    before.warningCount = 3 ∧ after.warningCount = 2 ∧ before.qualityScore = 10 ∧
      after.qualityScore = 15 := by
  have markup : Family.ofName "a.html" = .html := by decide +kernel
  have score (content : String) : (analyzeFile "a.html" content "html").qualityScore =
      wordScore (analyzeFile "a.html" content "html").errorCount
        (analyzeFile "a.html" content "html").warningCount
        (analyzeFile "a.html" content "html").infoCount := rfl
  have errors (content : String) : (analyzeFile "a.html" content "html").errorCount = _ :=
    countKind_of_includes markup .error (Text.of content)
  have warnings (content : String) : (analyzeFile "a.html" content "html").warningCount = _ :=
    countKind_of_includes markup .warning (Text.of content)
  have infos (content : String) : (analyzeFile "a.html" content "html").infoCount = _ :=
    countKind_of_includes markup .info (Text.of content)
  have whole : Text.of (openLabelPage ++ "\nconsole.log('debug');") =
      Text.of openLabelPage ++ debugStatement := String.toList_append
  -- the page is spelled out before it is decided, as the kernel decodes a string anew at each use
  have kinds : kindsOfChecks (Markup.checks (Text.of openLabelPage)) =
      List.replicate 5 .error ++ [.warning, .warning] := by
    simp only [openLabelPage, Text.of, String.reduceToList]
    decide +kernel
  have completed : (completedLabels (Text.of openLabelPage)).length = 1 := by
    simp only [openLabelPage, Text.of, String.reduceToList]
    decide +kernel
  obtain ⟨errors', warnings'⟩ := count_checks_debugStatement (Text.of openLabelPage)
  rw [kinds, ← whole] at errors' warnings'
  rw [completed] at warnings'
  simp only [score, errors, warnings, infos, kinds, errors', Nat.eq_sub_of_add_eq warnings']
  simp only [openLabelPage, Text.of, String.reduceToList, String.reduceAppend]
  decide +kernel

end SourceAudit

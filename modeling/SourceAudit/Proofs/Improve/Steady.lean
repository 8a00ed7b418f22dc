/-
Module: SourceAudit.Proofs.Improve.Steady
Layer: Proofs
Purpose: Improvements that never make a report worse. For each family the fixes are named that add no
  issue to any text; a run of such fixes passes through texts that have no more issues than the one
  before, so its result has no more errors and no lower score. Only where the engine refuses to look for
  labels in a document may the result have more warnings: about labels that were missing all along.
Main exports: FixKind.isSteadyIn, eases_edit, eases_foldl_applied, unsoughtBefore,
  countKind_chosenImprovement_le, chosenImprovement_not_worse
-/
import SourceAudit.Proofs.Improve.Constants
import SourceAudit.Proofs.Improve.Declarations
import SourceAudit.Proofs.Improve.Doctype
import SourceAudit.Proofs.Improve.Logging
import SourceAudit.Proofs.Improve.Requests
import SourceAudit.Proofs.Improve.Trimming
import SourceAudit.Proofs.Markup.Unsought

namespace SourceAudit

open Markup

/-- Whether a fix adds no issue to any text of the family, as long as the engine refuses no label. -/
def FixKind.isSteadyIn (family : Family) : FixKind → Bool
  | .trimTrailingWhitespace => true
  | .extractMagicNumbers => family != .html
  | .replaceVar => family != .html && family != .script
  | .removeConsoleLogs => family == .other
  | .addDoctype => family == .html
  | _ => false

/-- A steady fix leaves a text with no more issues; if it trims a document, the labels of that have to be
    looked for. -/
theorem eases_edit [Engine] {fileName : String} {kind : FixKind}
    (steady : kind.isSteadyIn (Family.ofName fileName) = true) {t t' : Text}
    (sought : kind = .trimTrailingWhitespace → Family.ofName fileName = .html →
      seeksLabels (labelledInputs t) = true)
    (ran : kind.edit fileName t = .ok t') : Eases fileName t t' := by
  cases kind
  case trimTrailingWhitespace =>
    obtain rfl := Except.ok.inj ran
    exact eases_trimTrailingBlanks (sought rfl)
  case extractMagicNumbers =>
    obtain rfl := Except.ok.inj ran
    exact eases_extractMagicNumbers (bne_iff_ne.1 steady) t
  case replaceVar =>
    obtain rfl := Except.ok.inj ran
    have both : (Family.ofName fileName != .html && Family.ofName fileName != .script) = true := steady
    obtain ⟨noMarkup, noScript⟩ := (Bool.and_eq_true _ _).mp both
    exact eases_replaceVar (bne_iff_ne.1 noMarkup) (bne_iff_ne.1 noScript) t
  case removeConsoleLogs =>
    obtain rfl := Except.ok.inj ran
    exact eases_removeConsoleCalls (beq_iff_eq.1 steady) t
  case addDoctype =>
    obtain rfl := Except.ok.inj ran
    exact eases_addDoctype (beq_iff_eq.1 steady) t
  all_goals cases steady

theorem eases_applied [Engine] {fileName : String} (code : String) {kind : FixKind}
    (steady : kind.isSteadyIn (Family.ofName fileName) = true)
    (sought : kind = .trimTrailingWhitespace → Family.ofName fileName = .html →
      seeksLabels (labelledInputs (Text.of code)) = true) :
    Eases fileName (Text.of code) (Text.of (kind.applied fileName code)) := by
  rw [FixKind.applied, applyFix]
  cases ran : kind.edit fileName (Text.of code) with
  | error fault => exact Eases.refl fileName _
  | ok t =>
    simp only [Except.map, Text.of_str]
    exact eases_edit steady sought ran

/-- A run of steady fixes leaves a text with no more issues; if it trims documents, labels have to be
    looked for in all of them. -/
theorem eases_foldl_applied [Engine] {fileName : String} (code : String) {kinds : List FixKind}
    (steady : ∀ kind ∈ kinds, kind.isSteadyIn (Family.ofName fileName) = true)
    (sought : .trimTrailingWhitespace ∈ kinds → Family.ofName fileName = .html →
      ∀ t, seeksLabels (labelledInputs t) = true) :
    Eases fileName (Text.of code) (Text.of (kinds.foldl (FixKind.applied fileName) code)) := by
  induction kinds generalizing code with
  | nil => exact Eases.refl fileName _
  | cons kind kinds ih =>
    obtain ⟨first, others⟩ := List.forall_mem_cons.1 steady
    refine (eases_applied code first ?_).trans (ih _ others fun mem => sought (.tail _ mem))
    rintro rfl markup
    exact sought (.head _) markup _

/-- A steady fix makes no pattern from the text, so it does not depend on the engine. -/
theorem applied_seekingLabels [Engine] {family : Family} {kind : FixKind}
    (steady : kind.isSteadyIn family = true) (fileName code : String) :
    @FixKind.applied .seekingLabels fileName code kind = kind.applied fileName code := by
  cases kind
  case removeUnusedImports => cases steady
  all_goals rfl

/-- The inputs whose missing label may come to be noticed by an improvement: those of a document that is
    trimmed, if its labels were not looked for. -/
def unsoughtBefore [Engine] (chosen : FixKind → Bool) (fileName : String) (t : Text) : List (Text × Hit) :=
  if chosen .trimTrailingWhitespace = true ∧ Family.ofName fileName = .html then unsoughtInputs t else []

section

variable [Engine] {chosen : FixKind → Bool} {fileName : String}
  (steady : ∀ kind : FixKind, kind.isAskedIn (Family.ofName fileName) = true → chosen kind = true →
    kind.isSteadyIn (Family.ofName fileName) = true)
include steady

/-- With only steady fixes chosen, of those that the rules for the family ask for, there are no more issues
    of any kind, but for warnings about missing labels that come to be noticed. -/
theorem countKind_chosenImprovement_le (content fileType : String) (kind : IssueKind) :
    countKind kind (issuesOf (Rule.outcomes (rulesFor fileName)
        (.ofFile fileName (Text.of (chosenImprovement chosen fileName content fileType))))) ≤
      countKind kind (issuesOf (Rule.outcomes (rulesFor fileName) (.ofFile fileName (Text.of content)))) +
        if kind = .warning then (unsoughtBefore chosen fileName (Text.of content)).length else 0 := by
  have picked : ∀ kind ∈ (ownRequests fileName content).filter chosen,
      chosen kind = true ∧ kind.isSteadyIn (Family.ofName fileName) = true := by
    intro kind mem
    obtain ⟨asked, picked⟩ := List.mem_filter.1 mem
    exact ⟨picked, steady kind (isAskedIn_of_mem_ownRequests asked) picked⟩
  rw [chosenImprovement_eq_foldl, unsoughtBefore]
  generalize (ownRequests fileName content).filter chosen = kinds at picked
  by_cases trimmed : chosen .trimTrailingWhitespace = true ∧ Family.ofName fileName = .html
  case pos =>
    rw [if_pos trimmed]
    -- an engine that accepts every label applies the fixes alike and has no fewer issues afterwards
    have alike : kinds.foldl (FixKind.applied fileName) content =
        kinds.foldl (@FixKind.applied .seekingLabels fileName) content :=
      List.foldl_ext _ _ _ fun code kind mem =>
        (applied_seekingLabels (picked kind mem).2 fileName code).symm
    have eases := @eases_foldl_applied .seekingLabels fileName content kinds
      (fun kind mem => (picked kind mem).2) fun _ _ t => seeksLabels_seekingLabels _
    have fewer := @Eases.countKind_le .seekingLabels fileName _ _ eases kind
    rw [countKind_seekingLabels trimmed.2, countKind_seekingLabels trimmed.2, ← alike] at fewer
    exact Nat.le_trans (Nat.le_add_right _ _) fewer
  case neg =>
    have eases := eases_foldl_applied content (fun kind mem => (picked kind mem).2)
      fun mem markup => absurd ⟨(picked _ mem).1, markup⟩ trimmed
    exact Nat.le_add_right_of_le (eases.countKind_le kind)

/-- With only steady fixes chosen, of those that the rules for the family ask for, the report is never
    worse, but for the points that missing labels cost which come to be noticed. -/
theorem chosenImprovement_not_worse (content fileType : String) :
    let before := analyzeFile fileName content fileType
    let after := analyzeFile fileName (chosenImprovement chosen fileName content fileType) fileType
    after.errorCount ≤ before.errorCount ∧
      (before.FitsMemory → before.qualityScore.toNat ≤
        after.qualityScore.toNat + 5 * (unsoughtBefore chosen fileName (Text.of content)).length) := by
  have counted := countKind_chosenImprovement_le steady content fileType
  generalize chosenImprovement chosen fileName content fileType = improved at counted ⊢
  have errors := counted .error
  have warnings := counted .warning
  have infos := counted .info
  simp only [reduceCtorEq, if_false, if_true, Nat.add_zero] at errors warnings infos
  refine ⟨errors, fun fits => ?_⟩
  have noneAdded : (analyzeFile fileName improved fileType).warningCount + 0 ≤
      (analyzeFile fileName content fileType).warningCount +
        (unsoughtBefore chosen fileName (Text.of content)).length := warnings
  exact wordScore_le_add (penalty_lt_of_fitsMemory fits) errors noneAdded infos

end

end SourceAudit

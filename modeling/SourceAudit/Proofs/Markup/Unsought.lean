/-
Module: SourceAudit.Proofs.Markup.Unsought
Layer: Proofs
Purpose: Labels that are not looked for. An engine that refuses the pattern for one identifier of a
  document looks for no label there, and no missing label is noticed. An engine that accepts every label
  comes to the same issues otherwise, and has a warning more for each input that lacks its label.
Main exports: unsoughtInputs, Engine.seekingLabels, seeksLabels_seekingLabels,
  kinds_checkLabels_seekingLabels, countKind_seekingLabels
-/
import SourceAudit.Proofs.Markup.Kinds

namespace SourceAudit

open Markup Html

/-- The inputs whose missing label is not noticed, as the labels of the document are not looked for. -/
def unsoughtInputs [Engine] (t : Text) : List (Text × Hit) :=
  if seeksLabels (labelledInputs t) then []
  else (labelledInputs t).filter fun input => !(labelFor input.1).occurs t

/-- An engine that accepts every label, and of the other patterns those that are accepted anyway. -/
@[reducible]
def Engine.seekingLabels [Engine] : Engine where
  accepts
    | .label _ => true
    | p => Engine.accepts p
  accepts_short p short := by
    cases p with
    | label => rfl
    | word | assignment | opening | closing => exact Engine.accepts_short _ short

theorem seeksLabels_seekingLabels [Engine] (inputs : List (Text × Hit)) :
    @seeksLabels .seekingLabels inputs = true :=
  List.all_eq_true.2 fun _ _ => rfl

/-- With every label accepted, a warning is added for each missing label that is not noticed otherwise. -/
theorem kinds_checkLabels_seekingLabels [Engine] (t : Text) :
    kindsOfChecks (isolate (@checkLabels .seekingLabels t)) =
      kindsOfChecks (isolate (checkLabels t)) ++ List.replicate (unsoughtInputs t).length .warning := by
  rw [@kinds_checkLabels .seekingLabels, if_pos (seeksLabels_seekingLabels _), kinds_checkLabels,
    unsoughtInputs]
  split
  · exact (List.append_nil _).symm
  · rfl

theorem count_checks_seekingLabels [Engine] (kind : FindingKind) (t : Text) :
    (kindsOfChecks (@checks .seekingLabels t)).count kind =
      (kindsOfChecks (checks t)).count kind +
        (List.replicate (unsoughtInputs t).length FindingKind.warning).count kind := by
  have balance : @checkBalance .seekingLabels t = checkBalance t := rfl
  rw [@kindsOfChecks_checks .seekingLabels, kindsOfChecks_checks]
  simp only [checkGroups, List.flatMap_cons, List.flatMap_nil, Function.comp_apply, balance,
    kinds_checkLabels_seekingLabels, List.count_append]
  omega

/-- The issues of a markup file where every label is accepted. -/
theorem countKind_seekingLabels [Engine] {fileName : String} (markup : Family.ofName fileName = .html)
    (kind : IssueKind) (t : Text) :
    countKind kind (issuesOf (Rule.outcomes (@rulesFor .seekingLabels fileName) (.ofFile fileName t))) =
      countKind kind (issuesOf (Rule.outcomes (rulesFor fileName) (.ofFile fileName t))) +
        if kind = .warning then (unsoughtInputs t).length else 0 := by
  rw [@countKind_rulesFor .seekingLabels, countKind_rulesFor, markup]
  simp only [Family.rules, Html.rules, List.flatMap_singleton]
  rw [@gravities_validation_eq_kinds .seekingLabels, gravities_validation_eq_kinds,
    count_errors_warnings, count_errors_warnings]
  have counted (kind : FindingKind) := count_checks_seekingLabels kind t
  cases kind with
  | error =>
    have same := counted .error
    rw [List.count_replicate] at same
    exact congrArg _ same
  | warning =>
    have more := counted .warning
    rw [List.count_replicate_self] at more
    exact (congrArg _ more).trans (Nat.add_assoc ..).symm
  | info => rfl

end SourceAudit

/-
Module: SourceAudit.Proofs.Improve.Recognition
Layer: Proofs
Purpose: When the words of a suggestion lead back to the fix that it names. A fix is guessed as the
  first one that the words answer to. For two fixes no suggestion of a report answers to them; where a
  suggestion quotes the file, the quotation may answer to an earlier fix. Every other suggestion of a
  report can be sent back without the fix it names.
Main exports: FixKind.earlier, FixKind.infer?_eq_some_iff, Suggestion.inferred?, Suggestion.untagged,
  Suggestion.isRecognised, inferred?_eq_fixKind_iff, inferred_fix_is_named_fix_iff,
  viewport_suggestion_unrecognised
-/
import SourceAudit.Proofs.Improve.Account
import SourceAudit.Proofs.Report.Outcomes

namespace SourceAudit

namespace FixKind

/-- The fixes that are tried before one. -/
def earlier (kind : FixKind) : List FixKind := all.takeWhile (· != kind)

theorem find?_eq_some_iff_takeWhile {α : Type} [DecidableEq α] {p : α → Bool} {as : List α} {a : α}
    (mem : a ∈ as) :
    as.find? p = some a ↔ p a = true ∧ ∀ b ∈ as.takeWhile (· != a), p b = false := by
  induction as with
  | nil => cases mem
  | cons b as ih =>
    by_cases same : b = a
    · subst same
      cases holds : p b with
      | true => simp [holds]
      | false =>
        have absent : as.find? p ≠ some b := fun found => by simp [List.find?_some found] at holds
        simp [holds, absent]
    · have rest := ih ((List.mem_cons.1 mem).resolve_left (Ne.symm same))
      cases holds : p b <;> simp [holds, same, rest]

/-- The words of a suggestion lead to the first fix that they answer to. -/
theorem infer?_eq_some_iff {category message : String} {hint : Option String} {kind : FixKind} :
    infer? category message hint = some kind ↔
      answers category message.toList (hint.getD "").toList kind = true ∧
        ∀ other ∈ kind.earlier, answers category message.toList (hint.getD "").toList other = false :=
  find?_eq_some_iff_takeWhile (by cases kind <;> decide)

end FixKind

namespace Suggestion

/-- The fix that the words of a suggestion lead to. -/
def inferred? (s : Suggestion) : Option FixKind := FixKind.infer? s.category s.message s.fixCode

/-- The suggestion without the fix that it names. -/
def untagged (s : Suggestion) : Suggestion := { s with fixKind := none }

/-- Words in a hint that answer to a fix that is tried before the removal of slashes. -/
def phrasesBeforeSlash : List String :=
  ["console.log", "var with const/let", "viewport meta tag", "alt", "deprecated", "DOCTYPE",
    "inline styles", "nested loops", "magic numbers", "React import", "charset", "lang attribute"]

/-- Whether the words of a suggestion of a report lead back to the fix it names. The suggestions to add
    a viewport and to replace deprecated tags never do. The removal of an import may be taken for an
    indentation, and that of a slash for what the hint, which is the tag as it should be written,
    mentions. -/
def isRecognised (s : Suggestion) : Bool :=
  match s.fixKind with
  | some .addViewportMeta | some .replaceDeprecatedTags => false
  | some .removeUnusedImports => !(Text.of s.message).includes "indentation"
  | some .stripVoidSlash => !(Text.of (s.fixCode.getD "")).includesAny phrasesBeforeSlash
  | _ => true

end Suggestion

open Suggestion FixKind

/-- The category alone decides for the trimming of lines. -/
theorem infer?_formatting (message : String) :
    infer? "formatting" message (some "Remove trailing whitespace") = some .trimTrailingWhitespace := by
  have before : earlier .trimTrailingWhitespace = [.removeConsoleLogs, .replaceVar, .addSemicolons] := by
    decide
  have logs : Text.includes "Remove trailing whitespace" "console.log" = false := rfl
  have vars : Text.includes "Remove trailing whitespace" "var with const/let" = false := rfl
  refine infer?_eq_some_iff.2 ⟨rfl, ?_⟩
  rw [before]
  simp only [List.forall_mem_cons, answers, Option.getD_some]
  exact ⟨logs, vars, rfl, fun _ mem => by cases mem⟩

/-- The message names the removal of an import, unless it mentions an indentation. -/
theorem infer?_removal_iff {message : String} (named : Text.includes message "Unused import" = true) :
    infer? "optimization" message (some "Remove unused imports") = some .removeUnusedImports ↔
      Text.includes message "indentation" = false := by
  have before : earlier .removeUnusedImports =
      [.removeConsoleLogs, .replaceVar, .addSemicolons, .trimTrailingWhitespace, .fixIndentation] := by
    decide
  have logs : Text.includes "Remove unused imports" "console.log" = false := rfl
  have vars : Text.includes "Remove unused imports" "var with const/let" = false := rfl
  have answered : answers "optimization" message.toList "Remove unused imports".toList
      .removeUnusedImports = true := by
    simp only [answers, Text.includesAny, List.any_cons, named, Bool.true_or, Bool.or_true]
  rw [infer?_eq_some_iff, before, Option.getD_some, and_iff_right answered]
  simp only [List.forall_mem_cons, answers, logs, vars, true_and]
  exact ⟨fun h => h.2.2.1, fun h => ⟨rfl, rfl, h, fun _ mem => by cases mem⟩⟩

/-- The message about a slash. -/
def slashWords : String := "Remove the trailing slash (/) as it has no effect in HTML5"

/-- The message about a slash answers to no other fix. -/
theorem includesAny_slashWords : Text.includesAny slashWords
    ["indentation", "unused import", "Unused import", "key", "Commented out code", "alt",
      "Image missing", "Deprecated", "DOCTYPE", "Inline styles", "Nested loops", "Magic numbers",
      "Missing React import", "charset", "lang attribute"] = false := by
  decide +kernel

/-- The message names the removal of a slash, unless the tag mentions something else. -/
theorem infer?_slash_iff (hint : String) :
    infer? "info" slashWords (some hint) = some .stripVoidSlash ↔
      Text.includesAny hint phrasesBeforeSlash = false := by
  have before : earlier .stripVoidSlash = all.dropLast := by decide
  have answered : answers "info" slashWords.toList hint.toList .stripVoidSlash = true := by
    have named : Text.includes slashWords "trailing slash" = true := rfl
    rw [answers, named, Bool.true_or]
  obtain ⟨h₁, h₂, h₃, h₄, h₅, h₆, h₇, h₈, h₉, h₁₀, h₁₁, h₁₂, h₁₃, h₁₄, h₁₅, -⟩ := by
    simpa only [Text.includesAny, List.any_cons, Bool.or_eq_false_iff] using includesAny_slashWords
  rw [infer?_eq_some_iff, before, Option.getD_some, and_iff_right answered]
  have noSyntax : ("info" == "syntax") = false := rfl
  have noFormat : ("info" == "formatting") = false := rfl
  simp only [all, List.dropLast, List.forall_mem_cons, List.not_mem_nil, false_imp_iff, implies_true,
    answers, Text.includesAny, phrasesBeforeSlash, List.any_cons, List.any_nil, Bool.or_eq_false_iff,
    Bool.false_or, Bool.or_false, Bool.false_and, true_and, and_true, *]

/-- Where the words are fixed, the two fixes whose words do not answer are the only ones. -/
theorem inferred?_fixedWords (kind : FixKind) : (kind.fixedWords.all fun s =>
    decide (s.inferred? = s.fixKind) == s.isRecognised) = true := by
  -- one fix at a time, so that no evaluation grows large
  cases kind <;> decide +kernel

/-- The words of a suggestion that asks for a fix lead to the fix it names exactly if it is
    recognised. -/
theorem inferred?_eq_fixKind_iff {family : Family} {t : Text} {s : Suggestion} (fix : IsFixOf family t s) :
    s.inferred? = s.fixKind ↔ s.isRecognised = true := by
  cases fix with
  | fixed kind asked words =>
    have checked := inferred?_fixedWords kind
    rw [words, Option.all_some] at checked
    rw [← eq_of_beq checked, decide_eq_true_iff]
  | trimming n => exact iff_of_true (infer?_formatting _) rfl
  | @removing script name mem =>
    have named : Text.includes (removing name).message "Unused import" = true := by
      rw [removing, asking, rated, fixedBy, manual, String.toList_append, String.toList_append]
      exact Text.includes_append (Text.includes_append rfl _) _
    exact (infer?_removal_iff named).trans (.of_eq (Bool.not_eq_true' _).symm)
  | @unslashing html tag mem =>
    have category : (unslashing tag.chars).category = "info" := by
      change (Text.of "Info").lower.str = "info"
      rfl
    rw [inferred?, category]
    exact (infer?_slash_iff _).trans (.of_eq (Bool.not_eq_true' _).symm)

/-! ### Suggestions that are sent back -/

theorem kind?_untagged {s : Suggestion} (same : s.inferred? = s.fixKind) :
    s.untagged.kind? = s.kind? := by
  change s.inferred? = _
  rw [kind?]
  cases named : s.fixKind with
  | some kind => rw [same, named]
  | none => rfl

theorem step_untagged [Engine] (fileName : String) (p : Progress) {s : Suggestion}
    (same : s.autoFix = true → s.inferred? = s.fixKind) :
    Progress.step fileName p s.untagged = Progress.step fileName p s := by
  cases asks : s.autoFix with
  | false => simp [Progress.step, untagged, asks]
  | true =>
    rw [Progress.step, Progress.step, kind?_untagged (same asks)]
    rfl

theorem improve_untagged [Engine] (fileName content : String) {suggestions : List Suggestion}
    (same : ∀ s ∈ suggestions, s.autoFix = true → s.inferred? = s.fixKind) :
    improve fileName content (suggestions.map untagged) = improve fileName content suggestions := by
  have run : ∀ p : Progress, (suggestions.map untagged).foldl (Progress.step fileName) p =
      suggestions.foldl (Progress.step fileName) p := by
    induction suggestions with
    | nil => exact fun _ => rfl
    | cons s suggestions ih =>
      intro p
      obtain ⟨first, others⟩ := List.forall_mem_cons.1 same
      rw [List.map_cons, List.foldl_cons, List.foldl_cons, step_untagged fileName p first, ih others]
  rw [improve, improve, run]

/-- A suggestion of a report that asks for a fix is led back to it by its words exactly if it is
    recognised. Suggestions of a report that are all recognised can be sent back without the fixes they
    name: they improve a text in the same way. -/
theorem inferred_fix_is_named_fix_iff [Engine] (fileName content fileType : String) :
    (∀ s ∈ (analyzeFile fileName content fileType).suggestions, s.autoFix = true →
      (FixKind.infer? s.category s.message s.fixCode = s.fixKind ↔ s.isRecognised = true)) ∧
    ∀ sent : List Suggestion,
      (∀ s ∈ sent, s ∈ (analyzeFile fileName content fileType).suggestions ∧
        (s.autoFix = true → s.isRecognised = true)) →
      ∀ code : String, improve fileName code (sent.map untagged) = improve fileName code sent := by
  have each : ∀ s ∈ (analyzeFile fileName content fileType).suggestions, s.autoFix = true →
      (s.inferred? = s.fixKind ↔ s.isRecognised = true) := by
    intro s mem asks
    cases isOutcomeOf_of_mem_suggestions mem with
    | byHand byHand => exact absurd asks (by simp [byHand])
    | byFix words => exact inferred?_eq_fixKind_iff words
  refine ⟨each, fun sent recognised code => improve_untagged fileName code fun s mem asks => ?_⟩
  obtain ⟨reported, known⟩ := recognised s mem
  exact (each s reported asks).2 (known asks)

attribute [local instance] Engine.standard in
/-- No word of the suggestion to add a viewport leads back to it, so without the fix it names it
    leaves this page as it is. -/
theorem viewport_suggestion_unrecognised :
    ∃ s ∈ (analyzeFile "a.html" "<head></head>" "html").suggestions, s.autoFix = true ∧
      FixKind.infer? s.category s.message s.fixCode ≠ s.fixKind ∧
      (improve "a.html" "<head></head>" [s.untagged]).improvedCode ≠
        (improve "a.html" "<head></head>" [s]).improvedCode := by
  refine ⟨.asking "responsive" "Add viewport meta tag for responsive design" .addViewportMeta
    "<meta name=\"viewport\" content=\"width=device-width, initial-scale=1.0\">" .medium,
    ?_, rfl, ?_, ?_⟩ <;> decide +kernel

end SourceAudit

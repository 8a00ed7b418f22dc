/-
Module: SourceAudit.Proofs.Report.Autofix
Layer: Proofs
Purpose: What a report promises. Its counts are those of its issues, its score is what their penalty
  leaves, and each suggestion stands in it once. Every rule names the fix of a suggestion that asks for
  one, so an improvement by the suggestions of a report never lacks a rule: it puts a suggestion aside
  only when the removal of unused imports meets a name that the engine does not count.
Main exports: isSome_fixKind_of_mem, applyFix_eq_error, exists_of_mem_skippedFixes,
  FileReport.IsFaithful, report_counts_and_tags
-/
import SourceAudit.Proofs.Improve.Account
import SourceAudit.Proofs.Report.Outcomes
import Mathlib.Data.List.Induction

namespace SourceAudit

/-- A suggestion of a report that asks for a fix names it. -/
theorem isSome_fixKind_of_mem [Engine] {fileName content fileType : String} {s : Suggestion}
    (mem : s ∈ (analyzeFile fileName content fileType).suggestions) (asks : s.autoFix = true) :
    s.fixKind.isSome = true := by
  cases isOutcomeOf_of_mem_suggestions mem with
  | byHand byHand => exact absurd asks (by simp [byHand])
  | byFix words =>
    obtain ⟨kind, named, -⟩ := words.exists_fixKind
    rw [named]
    rfl

/-- The score of a report that memory can hold is a hundred less the penalty, and never below zero. -/
theorem toNat_qualityScore [Engine] {fileName content fileType : String}
    (fits : (analyzeFile fileName content fileType).FitsMemory) :
    ((analyzeFile fileName content fileType).qualityScore.toNat : Int) =
      max 0 (100 - (15 * (analyzeFile fileName content fileType).errorCount +
        5 * (analyzeFile fileName content fileType).warningCount +
        2 * (analyzeFile fileName content fileType).infoCount : Nat)) := by
  have left : (analyzeFile fileName content fileType).qualityScore.toNat =
      100 - penalty (analyzeFile fileName content fileType).errorCount
        (analyzeFile fileName content fileType).warningCount
        (analyzeFile fileName content fileType).infoCount :=
    toNat_wordScore_eq_sub (penalty_lt_of_fitsMemory fits)
  rw [left, penalty]
  omega

/-! ### The one fix that can fail -/

theorem countWord_eq_error [Engine] {words : WordIndex} {word : Text} {fault : Fault}
    (failed : words.countWord word = .error fault) : fault = .patternTooLarge := by
  rw [WordIndex.countWord] at failed
  split at failed
  · cases failed
  · rw [Text.countWord] at failed
    split at failed
    · cases failed
    · split at failed
      · cases failed
      · exact (Except.error.inj failed).symm

theorem mentionsAny_eq_error [Engine] {body : WordIndex} {names : List Text} {fault : Fault}
    (failed : Fix.mentionsAny body names = .error fault) : fault = .patternTooLarge := by
  induction names with
  | nil => cases failed
  | cons name names ih =>
    rw [Fix.mentionsAny] at failed
    cases counted : body.countWord name with
    | error fault' =>
      rw [counted] at failed
      obtain rfl := Except.error.inj failed
      exact countWord_eq_error counted
    | ok n =>
      rw [counted] at failed
      change (if 0 < n then _ else _) = _ at failed
      split at failed
      · cases failed
      · exact ih failed

theorem keepsImport_eq_error [Engine] {body : WordIndex} {line : Text} {fault : Fault}
    (failed : Fix.keepsImport body line = .error fault) : fault = .patternTooLarge := by
  rw [Fix.keepsImport] at failed
  split at failed
  · cases failed
  · cases failed
  · exact mentionsAny_eq_error failed

theorem keptLines_eq_error [Engine] {body : WordIndex} {lines : List Text} {fault : Fault}
    (failed : Fix.keptLines body lines = .error fault) : fault = .patternTooLarge := by
  induction lines with
  | nil => cases failed
  | cons line lines ih =>
    rw [Fix.keptLines] at failed
    cases kept : Fix.keepsImport body line with
    | error fault' =>
      rw [kept] at failed
      obtain rfl := Except.error.inj failed
      exact keepsImport_eq_error kept
    | ok keep =>
      cases rest : Fix.keptLines body lines with
      | error fault' =>
        rw [kept, rest] at failed
        obtain rfl := Except.error.inj failed
        exact ih rest
      | ok others =>
        rw [kept, rest] at failed
        cases failed

/-- A fix fails only if it is the removal of unused imports, and then over a name that the engine refuses. -/
theorem applyFix_eq_error [Engine] {kind : FixKind} {fileName code : String} {fault : Fault}
    (failed : applyFix kind fileName code = .error fault) :
    kind = .removeUnusedImports ∧ fault = .patternTooLarge := by
  cases kind
  case removeUnusedImports =>
    refine ⟨rfl, ?_⟩
    change (Fix.removeUnusedImports (Text.of code)).map Text.str = _ at failed
    rw [Fix.removeUnusedImports] at failed
    generalize Text.wordIndex _ = body at failed
    cases kept : Fix.keptLines body (Text.of code).lines with
    | error fault' =>
      rw [kept] at failed
      obtain rfl := Except.error.inj failed
      exact keptLines_eq_error kept
    | ok lines =>
      rw [kept] at failed
      cases failed
  all_goals cases failed

/-! ### Improvement by the suggestions of a report -/

/-- What one more suggestion adds to those that were put aside. -/
theorem skippedFixes_concat [Engine] (fileName content : String) (before : List Suggestion) (s : Suggestion) :
    (improve fileName content (before ++ [s])).skippedFixes =
      (improve fileName content before).skippedFixes ++
        (Progress.step fileName (.fresh (improve fileName content before).improvedCode) s).skipped := by
  have run : (before ++ [s]).foldl (Progress.step fileName) (.fresh content) =
      Progress.step fileName (before.foldl (Progress.step fileName) (.fresh content)) s := by
    rw [List.foldl_append, List.foldl_cons, List.foldl_nil]
  rw [Progress.step_eq_after] at run
  exact congrArg Progress.skipped run

/-- Why a suggestion was put aside: it asks for a fix, and no rule is known for it, or its rule failed
    on the text that the suggestions before it had left. -/
theorem exists_of_mem_skippedFixes [Engine] {fileName content : String} {suggestions : List Suggestion}
    {fix : SkippedFix} (mem : fix ∈ (improve fileName content suggestions).skippedFixes) :
    ∃ (before : List Suggestion) (s : Suggestion) (after : List Suggestion),
      suggestions = before ++ s :: after ∧ s.autoFix = true ∧
      fix.category = s.category ∧ fix.message = s.message ∧
      ((s.kind? = none ∧ fix.reason = noApplicableFix) ∨
        ∃ kind fault, s.kind? = some kind ∧
          applyFix kind fileName (improve fileName content before).improvedCode = .error fault ∧
          fix.reason = fault.message) := by
  induction suggestions using List.reverseRecOn with
  | nil => cases mem
  | append_singleton before s ih =>
    rw [skippedFixes_concat] at mem
    rcases List.mem_append.1 mem with mem | mem
    · obtain ⟨before', s', after, rfl, why⟩ := ih mem
      exact ⟨before', s', after ++ [s], by simp, why⟩
    · cases asks : s.autoFix with
      | false => simp [Progress.step, Progress.fresh, asks] at mem
      | true =>
        refine ⟨before, s, [], rfl, asks, ?_⟩
        rcases Progress.step_cases fileName (improve fileName content before).improvedCode asks with
          ⟨kind, next, -, -, step⟩ | ⟨none, step⟩ | ⟨kind, fault, known, failed, step⟩
        · rw [step] at mem
          cases mem
        · rw [step] at mem
          obtain rfl := List.mem_singleton.1 mem
          exact ⟨rfl, rfl, .inl ⟨none, rfl⟩⟩
        · rw [step] at mem
          obtain rfl := List.mem_singleton.1 mem
          exact ⟨rfl, rfl, .inr ⟨kind, fault, known, failed, rfl⟩⟩

/-- A suggestion that names a fix asks for that one. -/
theorem kind?_eq_fixKind {s : Suggestion} (named : s.fixKind.isSome = true) : s.kind? = s.fixKind := by
  obtain ⟨kind, named⟩ := Option.isSome_iff_exists.1 named
  rw [Suggestion.kind?, named]

/-- A fix put aside because a pattern that the removal of unused imports makes from the text cannot be
    used; the text is the one that the suggestions before it left. -/
def SkippedFix.IsFailedRemoval [Engine] (fix : SkippedFix) (fileName content : String)
    (suggestions : List Suggestion) : Prop :=
  ∃ (before after : List Suggestion) (s : Suggestion), suggestions = before ++ s :: after ∧
    s.autoFix = true ∧ s.fixKind = some .removeUnusedImports ∧
    fix.category = s.category ∧ fix.message = s.message ∧
    ∃ reason, applyFix .removeUnusedImports fileName (improve fileName content before).improvedCode =
        .error (.pattern reason) ∧
      fix.reason = (Fault.pattern reason).message

/-- With the fix of each suggestion named, nothing else is put aside. -/
theorem isFailedRemoval_of_mem_skippedFixes [Engine] {fileName content : String}
    {suggestions : List Suggestion}
    (tagged : ∀ s ∈ suggestions, s.autoFix = true → s.fixKind.isSome = true) {fix : SkippedFix}
    (mem : fix ∈ (improve fileName content suggestions).skippedFixes) :
    fix.IsFailedRemoval fileName content suggestions := by
  obtain ⟨before, s, after, split, asks, category, message, why⟩ := exists_of_mem_skippedFixes mem
  have named := tagged s (by rw [split]; simp) asks
  rcases why with ⟨unknown, -⟩ | ⟨kind, fault, known, failed, reason⟩
  · rw [kind?_eq_fixKind named] at unknown
    rw [unknown] at named
    cases named
  · obtain ⟨rfl, rfl⟩ := applyFix_eq_error failed
    rw [kind?_eq_fixKind named] at known
    exact ⟨before, after, s, split, asks, known, category, message, _, failed, reason⟩

theorem SkippedFix.IsFailedRemoval.reason_ne [Engine] {fix : SkippedFix} {fileName content : String}
    {suggestions : List Suggestion} (h : fix.IsFailedRemoval fileName content suggestions) :
    fix.reason ≠ noApplicableFix := by
  obtain ⟨-, -, -, -, -, -, -, -, reason, -, written⟩ := h
  intro same
  rw [written] at same
  -- the two messages differ in their first letter
  have first : ("pattern error: " ++ reason).toList.head? = noApplicableFix.toList.head? :=
    congrArg (fun s : String => s.toList.head?) same
  rw [String.toList_append] at first
  cases first

/-- What a report on a text promises: its counts are those of its issues, its score is what their
    penalties leave of 100, each suggestion stands in it once, and one that asks for a fix names it. So
    an improvement by the suggestions never lacks a rule: one is put aside only if it asks for the
    removal of unused imports and this fails. -/
structure FileReport.IsFaithful [Engine] (r : FileReport) (fileName content : String) : Prop where
  errors : r.errorCount = (r.issues.filter (·.kind == .error)).length
  warnings : r.warningCount = (r.issues.filter (·.kind == .warning)).length
  infos : r.infoCount = (r.issues.filter (·.kind == .info)).length
  total : r.errorCount + r.warningCount + r.infoCount = r.issues.length
  score : r.FitsMemory → (r.qualityScore.toNat : Int) =
    max 0 (100 - (15 * r.errorCount + 5 * r.warningCount + 2 * r.infoCount : Nat))
  once : r.suggestions.Nodup
  tagged : ∀ s ∈ r.suggestions, s.autoFix = true → s.fixKind.isSome = true
  applicable : ∀ fix ∈ (improve fileName content r.suggestions).skippedFixes,
    fix.reason ≠ noApplicableFix
  aside : ∀ fix ∈ (improve fileName content r.suggestions).skippedFixes,
    fix.IsFailedRemoval fileName content r.suggestions

theorem report_counts_and_tags [Engine] (fileName content fileType : String) :
    (analyzeFile fileName content fileType).IsFaithful fileName content := by
  have tagged : ∀ s ∈ (analyzeFile fileName content fileType).suggestions,
      s.autoFix = true → s.fixKind.isSome = true :=
    fun s mem asks => isSome_fixKind_of_mem mem asks
  constructor
  case errors => exact List.countP_eq_length_filter
  case warnings => exact List.countP_eq_length_filter
  case infos => exact List.countP_eq_length_filter
  case total => exact countKind_add_countKind _
  case score => exact toNat_qualityScore
  case once => exact nodup_keepOnce _
  case tagged => exact tagged
  case applicable => exact fun fix mem => (isFailedRemoval_of_mem_skippedFixes tagged mem).reason_ne
  case aside => exact fun fix mem => isFailedRemoval_of_mem_skippedFixes tagged mem

end SourceAudit

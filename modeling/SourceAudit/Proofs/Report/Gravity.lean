/-
Module: SourceAudit.Proofs.Report.Gravity
Layer: Proofs
Purpose: What a report counts. The errors and the score of a report depend on how grave the issues of
  each rule are and on nothing else, so a text on which no rule has more issues than on another one has
  the better report. Most rules have no issues at all; of the others it is said when they have which.
Main exports: Rule.gravities, Eases, FileReport.FitsMemory, wordScore_le_add, countKind_rulesFor,
  Eases.countKind_le, Rule.gravities_eq_nil, Universal.flatMap_gravities, Universal.Eased,
  Universal.Eased.sublist
-/
import SourceAudit.Proofs.Text.Needle
import SourceAudit.Report.File
import Mathlib.Data.List.Flatten

namespace SourceAudit

/-- How grave the issues are that a rule reports, in order. -/
def Rule.gravities (rule : Rule) (file : SourceView) : List IssueKind :=
  (issuesOf (isolate (rule file))).map Issue.kind

/-- The rules that apply to a file with this name. -/
def rulesFor [Engine] (fileName : String) : List Rule := Universal.rules ++ (Family.ofName fileName).rules

/-- No rule has more issues on the second text than on the first. -/
def Eases [Engine] (fileName : String) (t t' : Text) : Prop :=
  ∀ rule ∈ rulesFor fileName,
    (rule.gravities (.ofFile fileName t')).Sublist (rule.gravities (.ofFile fileName t))

theorem Eases.refl [Engine] (fileName : String) (t : Text) : Eases fileName t t :=
  fun _ _ => List.Sublist.refl _

theorem Eases.trans [Engine] {fileName : String} {t t' t'' : Text} (h : Eases fileName t t')
    (h' : Eases fileName t' t'') : Eases fileName t t'' :=
  fun rule mem => (h' rule mem).trans (h rule mem)

theorem map_kind_issuesOf_outcomes (rules : List Rule) (file : SourceView) :
    (issuesOf (Rule.outcomes rules file)).map Issue.kind =
      rules.flatMap fun rule => rule.gravities file := by
  induction rules with
  | nil => rfl
  | cons rule rules ih =>
    have split : Rule.outcomes (rule :: rules) file =
        isolate (rule file) ++ Rule.outcomes rules file := rfl
    rw [split, issuesOf, List.filterMap_append, List.map_append, ← issuesOf, ← issuesOf, ih]
    rfl

theorem countKind_eq_count (kind : IssueKind) (issues : List Issue) :
    countKind kind issues = (issues.map Issue.kind).count kind := by
  rw [countKind, List.count, List.countP_map]
  rfl

/-- An issue is of one of the three kinds. -/
theorem countKind_add_countKind (issues : List Issue) :
    countKind .error issues + countKind .warning issues + countKind .info issues = issues.length := by
  induction issues with
  | nil => rfl
  | cons i issues ih =>
    simp only [countKind, List.countP_cons, List.length_cons] at ih ⊢
    cases i.kind <;> simp <;> omega

/-- Errors and warnings, counted by kind. -/
theorem count_errors_warnings (kind : IssueKind) (errors warnings : Nat) :
    (List.replicate errors IssueKind.error ++ List.replicate warnings IssueKind.warning).count kind =
      match kind with
      | .error => errors
      | .warning => warnings
      | .info => 0 := by
  rw [List.count_append, List.count_replicate, List.count_replicate]
  cases kind with
  | error => exact Nat.add_zero errors
  | warning => exact Nat.zero_add warnings
  | info => rfl

/-! ### Scores -/

/-- A report that memory can hold: a list takes at most half of the bytes that a word can number, and an
    issue takes more than eight. -/
def FileReport.FitsMemory (report : FileReport) : Prop := report.issues.length < wordSize / 16

/-- The penalty of a report that memory can hold fits into a word. -/
theorem penalty_lt_of_fitsMemory [Engine] {fileName content fileType : String}
    (fits : (analyzeFile fileName content fileType).FitsMemory) :
    penalty (analyzeFile fileName content fileType).errorCount
      (analyzeFile fileName content fileType).warningCount
      (analyzeFile fileName content fileType).infoCount < wordSize := by
  have parts : (analyzeFile fileName content fileType).errorCount +
      (analyzeFile fileName content fileType).warningCount +
      (analyzeFile fileName content fileType).infoCount =
        (analyzeFile fileName content fileType).issues.length := countKind_add_countKind _
  simp only [FileReport.FitsMemory, penalty, wordSize] at *
  omega

theorem toNat_wordScore (errors warnings infos : Nat) :
    (wordScore errors warnings infos).toNat = 100 - penalty errors warnings infos % wordSize :=
  UInt8.toNat_ofNat_of_lt' (Nat.lt_of_le_of_lt (Nat.sub_le 100 _) (by decide))

/-- As long as the penalty fits into a word, it is taken off whole. -/
theorem toNat_wordScore_eq_sub {errors warnings infos : Nat}
    (fits : penalty errors warnings infos < wordSize) :
    (wordScore errors warnings infos).toNat = 100 - penalty errors warnings infos := by
  rw [toNat_wordScore, Nat.mod_eq_of_lt fits]

/-- A score after more issues, of which some warnings may be lost. -/
theorem wordScore_le_add {e w i e' w' i' added lost : Nat} (fits : penalty e' w' i' < wordSize)
    (errors : e ≤ e') (warnings : w + added ≤ w' + lost) (infos : i ≤ i') :
    (wordScore e' w' i').toNat ≤ (wordScore e w i).toNat + 5 * (lost - added) := by
  have less := Nat.mod_le (penalty e w i) wordSize
  rw [toNat_wordScore_eq_sub fits, toNat_wordScore]
  generalize penalty e w i % wordSize = taken at less
  simp only [penalty] at less ⊢
  omega

/-! ### Counts of the issues of a report -/

/-- The issues of a kind are counted rule by rule. -/
theorem countKind_outcomes (kind : IssueKind) (rules : List Rule) (file : SourceView) :
    countKind kind (issuesOf (Rule.outcomes rules file)) =
      (rules.flatMap fun rule => rule.gravities file).count kind := by
  rw [countKind_eq_count, map_kind_issuesOf_outcomes]

/-- The issues of a report are those of the rules for every family and those of the rules of its own. -/
theorem countKind_rulesFor [Engine] (kind : IssueKind) (fileName : String) (t : Text) :
    countKind kind (issuesOf (Rule.outcomes (rulesFor fileName) (.ofFile fileName t))) =
      (Universal.rules.flatMap fun rule => rule.gravities (.ofFile fileName t)).count kind +
        ((Family.ofName fileName).rules.flatMap
          fun rule => rule.gravities (.ofFile fileName t)).count kind := by
  rw [countKind_outcomes, rulesFor, List.flatMap_append, List.count_append]

/-- A text on which no rule has more issues has no more of any kind. -/
theorem Eases.countKind_le [Engine] {fileName : String} {t t' : Text} (h : Eases fileName t t')
    (kind : IssueKind) :
    countKind kind (issuesOf (Rule.outcomes (rulesFor fileName) (.ofFile fileName t'))) ≤
      countKind kind (issuesOf (Rule.outcomes (rulesFor fileName) (.ofFile fileName t))) := by
  rw [countKind_outcomes, countKind_outcomes]
  exact (List.Sublist.flatMap_right _ h).count_le kind

/-- A rule that only makes suggestions has no issues. -/
theorem Rule.gravities_eq_nil {rule : Rule} {file : SourceView}
    (h : ∀ o ∈ isolate (rule file), ∃ s, o = .suggestion s) : rule.gravities file = [] := by
  have none : issuesOf (isolate (rule file)) = [] := by
    rw [issuesOf, List.filterMap_eq_nil_iff]
    intro o mem
    obtain ⟨s, rfl⟩ := h o mem
    rfl
  rw [Rule.gravities, none]
  rfl

theorem map_kind_suggestion {c : Prop} [Decidable c] (s : Suggestion) :
    (issuesOf (if c then [.suggestion s] else [])).map Issue.kind = [] := by
  split <;> rfl

/-- One issue under a condition that the second text fulfils only if the first one does. -/
theorem sublist_if {p q : Prop} [Decidable p] [Decidable q] (h : q → p) (kind : IssueKind) :
    (if q then [kind] else []).Sublist (if p then [kind] else []) := by
  by_cases hq : q
  · simp only [if_pos hq, if_pos (h hq), List.Sublist.refl]
  · rw [if_neg hq]
    exact List.nil_sublist _

namespace Universal

theorem gravities_debugStatements (file : SourceView) :
    Rule.gravities debugStatements file =
      if file.content.includes "console.log" then [.warning] else [] := by
  rw [Rule.gravities, debugStatements, isolate]
  split <;> rfl

theorem gravities_varUsage (file : SourceView) :
    Rule.gravities varUsage file =
      if varDeclaration.occurs file.content then [.warning] else [] := by
  rw [Rule.gravities, varUsage, isolate, Pattern.occurs]
  cases varDeclaration.find file.content <;> rfl

theorem gravities_todoComments (fileName : String) (t : Text) :
    Rule.gravities todoComments (.ofFile fileName t) =
      if t.includes "TODO" || t.includes "FIXME" then [.info] else [] := by
  have todo := Text.any_lines_includes (show "TODO".toList ≠ [] by decide) (by decide) t
  have fixme := Text.any_lines_includes (show "FIXME".toList ≠ [] by decide) (by decide) t
  have anywhere : (t.lines.any fun line => line.includes "TODO" || line.includes "FIXME") =
      (t.includes "TODO" || t.includes "FIXME") := by
    rw [← todo, ← fixme, Bool.eq_iff_iff]
    simp only [List.any_eq_true, Bool.or_eq_true, and_or_left, exists_or]
  rw [← anywhere, ← List.findIdx?_isSome, Rule.gravities, todoComments, isolate]
  simp only [SourceView.ofFile]
  cases t.lines.findIdx? fun line => line.includes "TODO" || line.includes "FIXME" <;> rfl

theorem gravities_longFunctions (file : SourceView) : Rule.gravities longFunctions file = [] := by
  apply Rule.gravities_eq_nil
  intro o mem
  simp only [isolate, longFunctions, List.mem_map] at mem
  obtain ⟨n, -, rfl⟩ := mem
  exact ⟨_, rfl⟩

/-- From the fourth one on, the rules for every family only make suggestions. -/
theorem gravities_eq_nil_of_mem_drop {rule : Rule} (mem : rule ∈ rules.drop 3) (file : SourceView) :
    rule.gravities file = [] := by
  simp only [rules, List.drop_succ_cons, List.drop_zero, List.mem_cons, List.not_mem_nil,
    or_false] at mem
  rcases mem with rfl | rfl | rfl | rfl | rfl | rfl | rfl | rfl | rfl | rfl | rfl
  · exact map_kind_suggestion _
  · exact map_kind_suggestion _
  · exact map_kind_suggestion _
  · simp only [Rule.gravities, unexplainedNumbers, isolate]
    split <;> rfl
  · exact map_kind_suggestion _
  · exact map_kind_suggestion _
  · exact map_kind_suggestion _
  · exact gravities_longFunctions file
  · exact map_kind_suggestion _
  · exact map_kind_suggestion _
  · exact map_kind_suggestion _

theorem rules_eq : rules = debugStatements :: varUsage :: todoComments :: rules.drop 3 := rfl

/-- How grave the issues are that the rules for every family report. -/
theorem flatMap_gravities (fileName : String) (t : Text) :
    (rules.flatMap fun rule => rule.gravities (.ofFile fileName t)) =
      (if t.includes "console.log" then [.warning] else []) ++
        ((if varDeclaration.occurs t then [.warning] else []) ++
          if t.includes "TODO" || t.includes "FIXME" then [.info] else []) := by
  have silent : ((rules.drop 3).flatMap fun rule => rule.gravities (.ofFile fileName t)) = [] :=
    List.flatMap_eq_nil_iff.2 fun rule mem => gravities_eq_nil_of_mem_drop mem _
  rw [rules_eq, List.flatMap_cons, List.flatMap_cons, List.flatMap_cons, silent, List.append_nil,
    gravities_debugStatements, gravities_varUsage, gravities_todoComments]
  rfl

theorem error_not_mem_gravities (fileName : String) (t : Text) :
    .error ∉ rules.flatMap fun rule => rule.gravities (.ofFile fileName t) := by
  rw [flatMap_gravities, List.mem_append, List.mem_append, not_or, not_or]
  refine ⟨?_, ?_, ?_⟩ <;> split <;> decide

/-- The three rules for every family that have issues have no more of them on the second text. -/
structure Eased (t t' : Text) : Prop where
  logging : t'.includes "console.log" = true → t.includes "console.log" = true
  declarations : varDeclaration.occurs t' = true → varDeclaration.occurs t = true
  tasks : (t'.includes "TODO" || t'.includes "FIXME") = true →
    (t.includes "TODO" || t.includes "FIXME") = true

theorem Eased.refl (t : Text) : Eased t t := ⟨id, id, id⟩

theorem Eased.trans {t t' t'' : Text} (h : Eased t t') (h' : Eased t' t'') : Eased t t'' :=
  ⟨h.logging ∘ h'.logging, h.declarations ∘ h'.declarations, h.tasks ∘ h'.tasks⟩

theorem Eased.sublist {t t' : Text} (h : Eased t t') (fileName : String) {rule : Rule}
    (mem : rule ∈ rules) :
    (rule.gravities (.ofFile fileName t')).Sublist (rule.gravities (.ofFile fileName t)) := by
  rw [rules_eq, List.mem_cons, List.mem_cons, List.mem_cons] at mem
  rcases mem with rfl | rfl | rfl | mem
  · rw [gravities_debugStatements, gravities_debugStatements]
    exact sublist_if h.logging _
  · rw [gravities_varUsage, gravities_varUsage]
    exact sublist_if h.declarations _
  · rw [gravities_todoComments, gravities_todoComments]
    exact sublist_if h.tasks _
  · rw [gravities_eq_nil_of_mem_drop mem]
    exact List.nil_sublist _

end Universal

end SourceAudit

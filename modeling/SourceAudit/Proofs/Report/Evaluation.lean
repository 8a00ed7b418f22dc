/-
Module: SourceAudit.Proofs.Report.Evaluation
Layer: Proofs
Purpose: Reports that are evaluated in proofs. Three rules count lines or names with a table of hashes,
  into which an evaluation by the kernel does not see. Here they count each line and each name by going
  through the text, and a report has the same outcomes. Which patterns the engine accepts is not known in
  an evaluation either, so an engine is taken that accepts them all: for a text of which only short
  patterns are made it comes to the same outcomes as any other.
Main exports: Engine.unlimited, scannedOutcomes, Family.madePatterns, areShort, outcomes_eq_unlimited,
  outcomes_eq_scannedOutcomes, issueKinds, kindsOf_scannedOutcomes, toNat_qualityScore_analyzeFile,
  fitsMemory_of_burden_lt, edit_eq_unlimited
-/
import SourceAudit.Fix.Apply
import SourceAudit.Proofs.Report.Mentions

namespace SourceAudit

/-- An engine that accepts every pattern. -/
@[reducible]
def Engine.unlimited : Engine := ⟨fun _ => true, fun _ _ => rfl⟩

/-! ### Rules without tables -/

namespace Universal

/-- Long lines that occur more than twice, counted line by line. -/
def scannedLines : Rule := fun file => .ok <|
  let long := (file.lines.map Text.trim).filter fun line => 30 ≤ line.length
  if long.any fun line => 2 < long.count line then
    [.advice "maintainability"
      "Duplicate code detected. Consider extracting into reusable functions or components" .medium]
  else []

theorem duplicateLines_eq : duplicateLines = scannedLines := by
  funext file
  simp only [duplicateLines, scannedLines, Frequencies.count_of]

/-- The rules for every family, without tables. -/
def scannedRules : List Rule :=
  [debugStatements, varUsage, todoComments, fileLength, complexity, nestingDepth,
    unexplainedNumbers, scannedLines, nestedLoops, commentedCode, longFunctions, longParameters,
    functionCount, trailingBlanks]

theorem rules_eq_scannedRules : rules = scannedRules := by
  rw [rules, duplicateLines_eq, scannedRules]

end Universal

namespace Script

/-- Named imports that are mentioned nowhere else, counted name by name. -/
def scannedImports [Engine] : Rule := fun file =>
  reported id (fun name => file.content.mentions name = 1) unusedImportNote (importedNames file.content)

/-- State that an effect reads without declaring it as a dependency, counted name by name. -/
def scannedEffects [Engine] : Rule := fun file =>
  reported Prod.snd (fun e => (e.1.groupChars 1).mentions e.2 ≠ 0) (missingDependencyNote file.content)
    ((checkedEffects file.content).flatMap (undeclaredState file.content))

/-- The rules for script files, without tables. -/
def scannedRules [Engine] : List Rule :=
  [reactImport, classComponents, inlineStyles, listKeys, scannedImports, scannedEffects, jquery,
    threeDispose, nextLinks]

theorem rules_eq_scannedRules [Engine] : rules = scannedRules := by
  rw [rules, funext unusedImports_eq, funext effectDependencies_eq_reported, scannedRules]
  rfl

end Script

/-- The rules of a family, without tables. -/
def Family.scannedRules [Engine] : Family → List Rule
  | .script => Script.scannedRules
  | family => family.rules

theorem Family.rules_eq_scannedRules [Engine] (family : Family) : family.rules = family.scannedRules := by
  cases family
  case script => exact Script.rules_eq_scannedRules
  all_goals rfl

attribute [local instance] Engine.unlimited in
/-- What the rules for a file report, found without tables and with every pattern accepted. -/
def scannedOutcomes (fileName : String) (t : Text) : List Outcome :=
  Rule.outcomes (Universal.scannedRules ++ (Family.ofName fileName).scannedRules) (.ofFile fileName t)

/-! ### The patterns that are made from a text -/

/-- The patterns that the rules of a family make from a text. -/
def Family.madePatterns : Family → Text → List MadePattern
  | .html, t =>
    ((Markup.closableTags [] (Markup.anyOpenTag.findAll t)).flatMap
        fun tag => [.opening tag.1, .closing tag.1]) ++
      (Markup.labelledInputs t).map fun input => .label input.1
  | .script, t =>
    (Script.importedNames t).map .word ++
      ((Script.checkedEffects t).flatMap (Script.undeclaredState t)).map fun e => .word e.2
  | _, _ => []

/-- Patterns that are made from short parts. -/
def areShort (ps : List MadePattern) : Bool := ps.all (·.part.length ≤ 100)

section

variable [Engine]

theorem reported_eq_ok {ε α : Type} {name : ε → Text} {test : ε → Bool} {note : ε → α}
    {entries : List ε} (accepted : ∀ e ∈ entries, Engine.accepts (.word (name e)) = true) :
    reported name test note entries = .ok ((entries.filter test).map note) :=
  if_pos (List.all_eq_true.2 accepted)

theorem checkBalance_eq_ok {t : Text}
    (tags : ∀ tag ∈ Markup.closableTags [] (Markup.anyOpenTag.findAll t),
      Markup.seeksTags tag.1 = true) :
    Markup.checkBalance t =
      .ok (Markup.unbalanced t (Markup.closableTags [] (Markup.anyOpenTag.findAll t))) :=
  if_pos (List.all_eq_true.2 tags)

theorem checkLabels_eq_ok {t : Text} (sought : Markup.seeksLabels (Markup.labelledInputs t) = true) :
    Markup.checkLabels t = .ok (Markup.unlabelled t (Markup.labelledInputs t)) :=
  if_pos sought

/-- The checks of a document whose tags and labels are all looked for. -/
theorem checks_eq_unlimited {t : Text}
    (tags : ∀ tag ∈ Markup.closableTags [] (Markup.anyOpenTag.findAll t),
      Markup.seeksTags tag.1 = true)
    (labels : Markup.seeksLabels (Markup.labelledInputs t) = true) :
    Markup.checks t = @Markup.checks .unlimited t := by
  have balance : Markup.checkBalance t = @Markup.checkBalance .unlimited t :=
    (checkBalance_eq_ok tags).trans (@checkBalance_eq_ok .unlimited t fun _ _ => rfl).symm
  have sought : Markup.checkLabels t = @Markup.checkLabels .unlimited t :=
    (checkLabels_eq_ok labels).trans
      (@checkLabels_eq_ok .unlimited t (List.all_eq_true.2 fun _ _ => rfl)).symm
  simp only [Markup.checks, List.flatMap_cons, Function.comp_apply, balance, sought]

/-- The engine looks for the tags and the labels of a document where it accepts their patterns. -/
theorem seeks_of_accepts {t : Text}
    (accepted : ∀ p ∈ Family.madePatterns .html t, Engine.accepts p = true) :
    (∀ tag ∈ Markup.closableTags [] (Markup.anyOpenTag.findAll t), Markup.seeksTags tag.1 = true) ∧
      Markup.seeksLabels (Markup.labelledInputs t) = true := by
  rw [Family.madePatterns] at accepted
  obtain ⟨tags, labels⟩ := List.forall_mem_append.1 accepted
  constructor
  · intro tag mem
    have both := fun p inside => tags p (List.mem_flatMap.2 ⟨tag, mem, inside⟩)
    exact (Bool.and_eq_true _ _).mpr ⟨both _ (.head _), both _ (.tail _ (.head _))⟩
  · exact List.all_eq_true.2 fun input mem => labels _ (List.mem_map_of_mem mem)

/-- Where the engine accepts the patterns that are made from a text, it comes to the same outcomes as one
    that accepts every pattern. -/
theorem outcomes_eq_unlimited {fileName : String} {t : Text}
    (accepted : ∀ p ∈ (Family.ofName fileName).madePatterns t, Engine.accepts p = true) :
    Rule.outcomes (rulesFor fileName) (.ofFile fileName t) =
      Rule.outcomes (@rulesFor .unlimited fileName) (.ofFile fileName t) := by
  simp only [rulesFor, Rule.outcomes, List.flatMap_append]
  refine congrArg _ ?_
  generalize Family.ofName fileName = family at accepted
  cases family
  case html =>
    obtain ⟨tags, labels⟩ := seeks_of_accepts accepted
    simp only [Family.rules, Html.rules, List.flatMap_singleton, Html.validation, SourceView.ofFile,
      Markup.validate, checks_eq_unlimited tags labels]
  case script =>
    rw [Family.madePatterns] at accepted
    obtain ⟨names, effects⟩ := List.forall_mem_append.1 accepted
    have imports : Script.unusedImports (.ofFile fileName t) =
        @Script.unusedImports .unlimited (.ofFile fileName t) := by
      rw [Script.unusedImports_eq, @Script.unusedImports_eq .unlimited, reported_eq_ok,
        @reported_eq_ok .unlimited]
      · exact fun _ _ => rfl
      · exact fun name mem => names _ (List.mem_map_of_mem mem)
    have dependencies : Script.effectDependencies (.ofFile fileName t) =
        @Script.effectDependencies .unlimited (.ofFile fileName t) := by
      rw [Script.effectDependencies_eq_reported, @Script.effectDependencies_eq_reported .unlimited,
        reported_eq_ok, @reported_eq_ok .unlimited]
      · exact fun _ _ => rfl
      · exact fun e mem => effects _ (List.mem_map_of_mem mem)
    simp only [Family.rules, Script.rules, List.flatMap_cons, imports, dependencies]
  all_goals rfl

theorem outcomes_eq_scannedOutcomes {fileName : String} {t : Text}
    (accepted : ∀ p ∈ (Family.ofName fileName).madePatterns t, Engine.accepts p = true) :
    Rule.outcomes (rulesFor fileName) (.ofFile fileName t) = scannedOutcomes fileName t := by
  have tables : @rulesFor .unlimited fileName =
      Universal.scannedRules ++ @Family.scannedRules .unlimited (Family.ofName fileName) :=
    congrArg₂ _ Universal.rules_eq_scannedRules (@Family.rules_eq_scannedRules .unlimited _)
  rw [outcomes_eq_unlimited accepted, tables, scannedOutcomes]

/-- No engine refuses a pattern that is made from a short part. -/
theorem accepted_of_areShort {ps : List MadePattern} (short : areShort ps = true) :
    ∀ p ∈ ps, Engine.accepts p = true := fun p mem =>
  Engine.accepts_short p (of_decide_eq_true (List.all_eq_true.1 short p mem))

end

/-! ### What issues take off the score -/

/-- The penalty for issues that are so grave. -/
def burden (kinds : List IssueKind) : Nat :=
  penalty (kinds.count .error) (kinds.count .warning) (kinds.count .info)

attribute [local instance] Engine.unlimited in
/-- How grave the issues of a report are, found without the rules that only make suggestions and with every
    pattern accepted. -/
def issueKinds (fileName : String) (t : Text) : List IssueKind :=
  ((Universal.rules.take 3).flatMap fun rule => rule.gravities (.ofFile fileName t)) ++
    match Family.ofName fileName with
    | .html => (Html.sorted (Html.kindsOfChecks (Markup.checks t))).flatMap Html.gravityOf
    | family => family.scannedRules.flatMap fun rule => rule.gravities (.ofFile fileName t)

theorem kindsOf_scannedOutcomes (fileName : String) (t : Text) :
    kindsOf (scannedOutcomes fileName t) = issueKinds fileName t := by
  have first : (Universal.rules.flatMap fun rule => rule.gravities (.ofFile fileName t)) =
      (Universal.rules.take 3).flatMap fun rule => rule.gravities (.ofFile fileName t) := by
    have silent : ((Universal.rules.drop 3).flatMap
        fun rule => rule.gravities (.ofFile fileName t)) = [] :=
      List.flatMap_eq_nil_iff.2 fun rule mem => Universal.gravities_eq_nil_of_mem_drop mem _
    rw [← List.append_nil (List.flatMap _ (Universal.rules.take 3)), ← silent, ← List.flatMap_append,
      List.take_append_drop]
  rw [scannedOutcomes, kindsOf, map_kind_issuesOf_outcomes, ← Universal.rules_eq_scannedRules,
    List.flatMap_append, first, issueKinds]
  refine congrArg _ ?_
  cases Family.ofName fileName
  case html => exact (List.append_nil _).trans (@Html.gravities_validation .unlimited _)
  all_goals rfl

section

variable [Engine] {fileName content : String} (fileType : String)
  (accepted : ∀ p ∈ (Family.ofName fileName).madePatterns (Text.of content), Engine.accepts p = true)
include accepted

theorem map_kind_issues_analyzeFile :
    (analyzeFile fileName content fileType).issues.map Issue.kind =
      issueKinds fileName (Text.of content) := by
  rw [← kindsOf_scannedOutcomes, ← outcomes_eq_scannedOutcomes accepted]
  rfl

/-- The score of a report is what the burden of its issues leaves of a hundred. -/
theorem toNat_qualityScore_analyzeFile :
    (analyzeFile fileName content fileType).qualityScore.toNat =
      100 - burden (issueKinds fileName (Text.of content)) % wordSize := by
  rw [← map_kind_issues_analyzeFile fileType accepted, burden, ← countKind_eq_count,
    ← countKind_eq_count, ← countKind_eq_count]
  exact toNat_wordScore _ _ _

/-- A report is in memory if its score is above zero. -/
theorem fitsMemory_of_burden_lt (light : burden (issueKinds fileName (Text.of content)) < 100) :
    (analyzeFile fileName content fileType).FitsMemory := by
  have parts := countKind_add_countKind (analyzeFile fileName content fileType).issues
  rw [← map_kind_issues_analyzeFile fileType accepted, burden, ← countKind_eq_count,
    ← countKind_eq_count, ← countKind_eq_count] at light
  simp only [FileReport.FitsMemory, penalty, wordSize] at *
  omega

end

/-! ### Fixes -/

/-- The patterns that a fix makes from a text. -/
def FixKind.madePatterns : FixKind → Text → List MadePattern
  | .removeUnusedImports, t => (t.lines.filterMap Fix.importBindings?).flatten.map .word
  | _, _ => []

section

variable [Engine]

theorem mentionsAny_eq_unlimited {t : Text} {names : List Text}
    (accepted : ∀ name ∈ names, Engine.accepts (.word name) = true) :
    Fix.mentionsAny t.wordIndex names = @Fix.mentionsAny .unlimited t.wordIndex names := by
  induction names with
  | nil => rfl
  | cons name names ih =>
    obtain ⟨here, rest⟩ := List.forall_mem_cons.1 accepted
    have counted : t.wordIndex.countWord name = @WordIndex.countWord .unlimited t.wordIndex name := by
      rw [WordIndex.countWord_eq, @WordIndex.countWord_eq .unlimited, Text.countWord_eq,
        @Text.countWord_eq .unlimited, if_pos here]
      exact (if_pos rfl).symm
    simp only [Fix.mentionsAny, counted, ih rest]

theorem keptLines_eq_unlimited {t : Text} {lines : List Text}
    (accepted : ∀ name ∈ (lines.filterMap Fix.importBindings?).flatten,
      Engine.accepts (.word name) = true) :
    Fix.keptLines t.wordIndex lines = @Fix.keptLines .unlimited t.wordIndex lines := by
  induction lines with
  | nil => rfl
  | cons line lines ih =>
    have here : Fix.keepsImport t.wordIndex line = @Fix.keepsImport .unlimited t.wordIndex line := by
      simp only [Fix.keepsImport]
      split
      · rfl
      · rfl
      · rename_i names _ bindings
        refine mentionsAny_eq_unlimited fun name mem => accepted name ?_
        rw [List.filterMap_cons_some bindings, List.flatten_cons]
        exact List.mem_append_left _ mem
    have rest := ih fun name mem => accepted name <| by
      rw [List.filterMap_cons]
      split
      · exact mem
      · exact List.mem_append_right _ mem
    simp only [Fix.keptLines, here, rest]

/-- Where the engine accepts the patterns that a fix makes from a text, the fix does what it does with
    every pattern accepted. -/
theorem edit_eq_unlimited {kind : FixKind} {t : Text}
    (accepted : ∀ p ∈ kind.madePatterns t, Engine.accepts p = true) (fileName : String) :
    kind.edit fileName t = @FixKind.edit .unlimited kind fileName t := by
  cases kind
  case removeUnusedImports =>
    have words := fun name mem => accepted (.word name) (List.mem_map_of_mem mem)
    simp only [FixKind.edit, Fix.removeUnusedImports, keptLines_eq_unlimited words]
  all_goals rfl

end

end SourceAudit

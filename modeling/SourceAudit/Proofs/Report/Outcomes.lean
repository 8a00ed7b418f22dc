/-
Module: SourceAudit.Proofs.Report.Outcomes
Layer: Proofs
Purpose: What the rules can report, said once. An issue stands on a line of the text or passes on a
  finding of the validation; a suggestion is followed by hand or asks for a fix, and one that asks for
  a fix has fixed words, except for three that quote the file: how many lines end in blanks, which name
  is imported and not used, and which void element has a slash. Six fixes are asked for in files of every
  family, the others in scripts or in markup only, and two by no rule at all.
Main exports: FixKind.fixedWords, FixKind.isAskedIn, IsFixOf, Markup.findings, Markup.IsCheckOf,
  isCheckOf_of_mem_checks, IsOutcomeOf, isOutcomeOf_of_mem_rulesFor, isOutcomeOf_of_mem_issues,
  isOutcomeOf_of_mem_suggestions
-/
import SourceAudit.Proofs.Report.Gravity
import SourceAudit.Proofs.Text.LineNumber

namespace SourceAudit

open Markup

/-- A suggestion that asks for a fix. -/
def Suggestion.asking (category message : String) (kind : FixKind) (hint : String) (impact : Impact) :
    Suggestion :=
  ((manual category message).fixedBy kind hint).rated impact

/-- The suggestion for a fix, where its words do not depend on the file. The category of a finding of
    the validation is put in lower case. -/
def FixKind.fixedWords : FixKind → Option Suggestion
  | .removeConsoleLogs =>
    some (.asking "optimization" "Remove console.log statements or use a proper logging library"
      .removeConsoleLogs "Remove all console.log statements" .low)
  | .replaceVar =>
    some (.asking "modernization" "Replace \"var\" with \"const\" or \"let\" for better scoping"
      .replaceVar "Replace var with const/let" .medium)
  | .addMissingKeys =>
    some (.asking "optimization" "Add a unique \"key\" prop to list items rendered with .map()"
      .addMissingKeys "Add key prop to mapped elements" .medium)
  | .removeCommentedCode =>
    some (.asking "cleanliness" "Commented out code found. Remove dead code to keep codebase clean"
      .removeCommentedCode "Remove commented out code" .low)
  | .extractInlineStyles =>
    some (.asking "performance"
      "Inline styles detected. Consider moving to CSS modules or styled-components"
      .extractInlineStyles "Extract inline styles to CSS" .medium)
  | .annotateNestedLoops =>
    some (.asking "performance"
      "Nested loops detected. Consider optimizing with Map, Set, or single-pass algorithms"
      .annotateNestedLoops "Add optimization comment for nested loops" .high)
  | .extractMagicNumbers =>
    some (.asking "readability"
      "Magic numbers found. Consider using named constants for better code clarity"
      .extractMagicNumbers "Extract magic numbers to constants" .medium)
  | .addReactImport =>
    some (.asking "fix" "Add missing React import" .addReactImport "Add React import" .high)
  | .addDoctype =>
    some (.asking (Text.of "Document Type").lower.str
      "Add <!DOCTYPE html> at the beginning of the document" .addDoctype "<!DOCTYPE html>" .high)
  | .addHtmlLang =>
    some (.asking (Text.of "Accessibility").lower.str "Add lang attribute for accessibility"
      .addHtmlLang "<html lang=\"en\">" .medium)
  | .addCharsetMeta =>
    some (.asking (Text.of "Encoding").lower.str "Add <meta charset=\"UTF-8\"> in <head>"
      .addCharsetMeta "<meta charset=\"UTF-8\">" .high)
  | .addViewportMeta =>
    some (.asking (Text.of "Responsive").lower.str "Add viewport meta tag for responsive design"
      .addViewportMeta "<meta name=\"viewport\" content=\"width=device-width, initial-scale=1.0\">"
      .medium)
  | .addAltAttributes =>
    some (.asking (Text.of "Accessibility").lower.str
      "Add alt attribute to all images for accessibility" .addAltAttributes
      "alt=\"descriptive text\"" .medium)
  | .replaceDeprecatedTags =>
    some (.asking (Text.of "Deprecated").lower.str "Replace with modern HTML5 and CSS"
      .replaceDeprecatedTags "Use CSS for styling instead" .high)
  | .addSemicolons | .trimTrailingWhitespace | .fixIndentation | .removeUnusedImports
  | .stripVoidSlash => none

/-- The suggestion to trim a number of lines. -/
def Suggestion.trimming (n : Nat) : Suggestion :=
  .asking "formatting" s!"Trailing whitespace found on {n} lines" .trimTrailingWhitespace
    "Remove trailing whitespace" .low

/-- The suggestion to remove an imported name. -/
def Suggestion.removing (name : Text) : Suggestion :=
  let shown := name.str
  .asking "optimization" s!"Unused import detected: {shown}. Remove to reduce bundle size"
    .removeUnusedImports "Remove unused imports" .low

/-- The suggestion to write a tag without its slash. -/
def Suggestion.unslashing (tag : Text) : Suggestion :=
  .asking (Text.of "Info").lower.str "Remove the trailing slash (/) as it has no effect in HTML5"
    .stripVoidSlash (dropFirstSlash tag).str .low

/-- Whether the rules for a family can ask for a fix. -/
def FixKind.isAskedIn (family : Family) : FixKind → Bool
  | .removeConsoleLogs | .replaceVar | .extractMagicNumbers | .annotateNestedLoops
  | .removeCommentedCode | .trimTrailingWhitespace => true
  | .addReactImport | .extractInlineStyles | .addMissingKeys | .removeUnusedImports => family == .script
  | .addDoctype | .addHtmlLang | .addCharsetMeta | .addViewportMeta | .addAltAttributes
  | .replaceDeprecatedTags | .stripVoidSlash => family == .html
  | .addSemicolons | .fixIndentation => false

/-- What a suggestion that asks for a fix of a text can be, in a file of the family. -/
inductive IsFixOf (family : Family) (t : Text) : Suggestion → Prop
  | fixed (kind : FixKind) (asked : kind.isAskedIn family = true) {s : Suggestion}
      (words : kind.fixedWords = some s) : IsFixOf family t s
  | trimming (n : Nat) : IsFixOf family t (.trimming n)
  | removing (script : family = .script) {name : Text} (mem : name ∈ Script.importedNames t) :
      IsFixOf family t (.removing name)
  | unslashing (html : family = .html) {tag : Hit} (mem : tag ∈ slashedVoid.findAll t) :
      IsFixOf family t (.unslashing tag.chars)

/-- The suggestion names a fix that is asked for in files of the family. -/
theorem IsFixOf.exists_fixKind {family : Family} {t : Text} {s : Suggestion} (fix : IsFixOf family t s) :
    ∃ kind : FixKind, s.fixKind = some kind ∧ kind.isAskedIn family = true := by
  cases fix with
  | fixed kind asked words =>
    refine ⟨kind, ?_, asked⟩
    cases kind <;> cases words <;> rfl
  | trimming n => exact ⟨.trimTrailingWhitespace, rfl, rfl⟩
  | removing script mem =>
    subst script
    exact ⟨.removeUnusedImports, rfl, rfl⟩
  | unslashing html mem =>
    subst html
    exact ⟨.stripVoidSlash, rfl, rfl⟩

/-! ### The validation -/

namespace Markup

/-- The findings of the validation of a document. -/
def findings [Engine] (t : Text) : List Finding :=
  (validate t).errors ++ (validate t).warnings ++ (validate t).suggestions

theorem exists_check_of_mem_findings [Engine] {t : Text} {f : Finding} (mem : f ∈ findings t) :
    ∃ check ∈ checks t, check.finding = f := by
  simp only [findings, validate, List.mem_append, List.mem_filter, List.mem_map] at mem
  rcases mem with (⟨found, -⟩ | ⟨found, -⟩) | ⟨found, -⟩ <;> exact found

/-- The messages about a document as a whole: what it lacks, and what it has too often. -/
inductive IsAboutWhole : (message : String) → Prop
  | lack {message : String}
      (mem : message ∈ ["Missing <html> tag", "Missing <head> tag", "Missing <title> tag",
        "Missing <body> tag", "Missing character encoding declaration", "Missing viewport meta tag",
        "No <h1> heading found"]) :
      IsAboutWhole message
  | styles (n : Nat) : IsAboutWhole s!"Found {n} inline styles"
  | headings (n : Nat) : IsAboutWhole s!"Multiple <h1> headings found ({n})"

/-- Where a finding with a message can stand: on a line or, if it is about the whole document, on
    line 0. -/
def IsPlacedIn (t : Text) (line : Nat) (message : String) : Prop :=
  line ≤ t.lines.length ∧ (line = 0 → IsAboutWhole message)

/-- What a check of a document can be, mended by hand or by a fix. -/
inductive IsCheckOf (t : Text) : Check → Prop
  | byHand (kind : FindingKind) {line : Nat} (category : String) {message : String}
      (suggestion fixCode : String) (penalty : Nat) (placed : IsPlacedIn t line message) :
      IsCheckOf t (.manual kind line category message suggestion fixCode penalty)
  | byFix {kind : FindingKind} {line : Nat} {category message suggestion fixCode : String}
      {fix : FixKind} (penalty : Nat) (placed : IsPlacedIn t line message)
      (words : IsFixOf .html t (.asking (Text.of category).lower.str suggestion fix fixCode
        (Html.impactOf kind))) :
      IsCheckOf t (.fixable kind line category message suggestion fixCode fix penalty)

theorem isPlacedIn_of_hasLine {t : Text} {line : Nat} {message : String} (there : t.HasLine line) :
    IsPlacedIn t line message :=
  ⟨there.2, fun zero => absurd there.1 (by omega)⟩

theorem isPlacedIn_zero {t : Text} {message : String} (whole : IsAboutWhole message) :
    IsPlacedIn t 0 message :=
  ⟨Nat.zero_le _, fun _ => whole⟩

theorem locate_le (html needle : Text) : locate html needle ≤ html.lines.length := by
  rw [locate]
  split
  · rename_i before after found
    have within : before.count '\n' ≤ html.count '\n' := by
      rw [← Text.count_lower html, Text.eq_of_cut? found, List.count_append, List.count_append]
      omega
    rw [Text.length_lines]
    omega
  · exact Nat.zero_le _

theorem isPlacedIn_locate {t needle : Text} {message : String} (whole : IsAboutWhole message) :
    IsPlacedIn t (locate t needle) message :=
  ⟨locate_le t needle, fun _ => whole⟩

section Checks

variable {t : Text} {check : Check}

theorem isCheckOf_of_mem_if {c : Prop} [Decidable c] {found : Check} (is : IsCheckOf t found)
    (mem : check ∈ if c then [] else [found]) : IsCheckOf t check := by
  split at mem
  · cases mem
  · obtain rfl := List.mem_singleton.1 mem
    exact is

theorem isCheckOf_of_mem_checkRoot (mem : check ∈ checkRoot t) : IsCheckOf t check := by
  rw [checkRoot] at mem
  split at mem
  · obtain rfl := List.mem_singleton.1 mem
    exact .byHand _ _ _ _ _ (isPlacedIn_zero (.lack (by simp)))
  · exact isCheckOf_of_mem_if
      (.byFix _ (isPlacedIn_of_hasLine (t.hasLine_lineAt _)) (.fixed .addHtmlLang rfl rfl)) mem

theorem isCheckOf_of_mem_checkStructure (mem : check ∈ checkStructure t) : IsCheckOf t check := by
  simp only [checkStructure, List.mem_append] at mem
  rcases mem with ((mem | mem) | mem) | mem
  · exact isCheckOf_of_mem_checkRoot mem
  · exact isCheckOf_of_mem_if (.byHand _ _ _ _ _ (isPlacedIn_zero (.lack (by simp)))) mem
  · exact isCheckOf_of_mem_if (.byHand _ _ _ _ _ (isPlacedIn_locate (.lack (by simp)))) mem
  · exact isCheckOf_of_mem_if (.byHand _ _ _ _ _ (isPlacedIn_zero (.lack (by simp)))) mem

theorem isCheckOf_of_mem_checkMeta (mem : check ∈ checkMeta t) : IsCheckOf t check := by
  rcases List.mem_append.1 mem with mem | mem
  · exact isCheckOf_of_mem_if (.byFix _ (isPlacedIn_locate (.lack (by simp))) (.fixed .addCharsetMeta rfl rfl)) mem
  · exact isCheckOf_of_mem_if (.byFix _ (isPlacedIn_locate (.lack (by simp))) (.fixed .addViewportMeta rfl rfl)) mem

theorem isCheckOf_of_mem_checkDeprecated (mem : check ∈ checkDeprecated t) : IsCheckOf t check := by
  obtain ⟨tag, -, mem⟩ := List.mem_flatMap.1 mem
  split at mem
  · obtain rfl := List.mem_singleton.1 mem
    exact .byFix _ (isPlacedIn_of_hasLine (t.hasLine_lineAt _)) (.fixed .replaceDeprecatedTags rfl rfl)
  · cases mem

theorem isCheckOf_of_mem_checkParagraphs (mem : check ∈ checkParagraphs t) : IsCheckOf t check := by
  obtain ⟨hit, -, mem⟩ := List.mem_flatMap.1 mem
  split at mem
  · obtain rfl := List.mem_singleton.1 mem
    exact .byHand _ _ _ _ _ (isPlacedIn_of_hasLine (t.hasLine_lineIndex _))
  · cases mem

theorem isCheckOf_of_mem_checkInlineStyles (mem : check ∈ checkInlineStyles t) :
    IsCheckOf t check := by
  simp only [checkInlineStyles] at mem
  split at mem
  · obtain rfl := List.mem_singleton.1 mem
    exact .byHand _ _ _ _ _ (isPlacedIn_zero (.styles _))
  · cases mem

theorem isCheckOf_of_mem_checkHeadings (mem : check ∈ checkHeadings t) : IsCheckOf t check := by
  rw [checkHeadings] at mem
  split at mem
  · split at mem
    · obtain rfl := List.mem_singleton.1 mem
      exact .byHand _ _ _ _ _ (isPlacedIn_zero (.lack (by simp)))
    · cases mem
    · obtain rfl := List.mem_singleton.1 mem
      exact .byHand _ _ _ _ _ (isPlacedIn_zero (.headings _))
  · cases mem

theorem isCheckOf_of_mem_checkBalance [Engine] (mem : check ∈ isolate (checkBalance t)) :
    IsCheckOf t check := by
  rw [checkBalance, isolate_ite] at mem
  split at mem
  · obtain ⟨entry, -, rfl⟩ := List.mem_map.1 mem
    exact .byHand _ _ _ _ _ (isPlacedIn_of_hasLine (t.hasLine_lineIndex _))
  · cases mem

theorem isCheckOf_of_mem_checkLabels [Engine] (mem : check ∈ isolate (checkLabels t)) :
    IsCheckOf t check := by
  rw [checkLabels, isolate_ite] at mem
  split at mem
  · obtain ⟨input, -, rfl⟩ := List.mem_map.1 mem
    exact .byHand _ _ _ _ _ (isPlacedIn_of_hasLine (t.hasLine_lineIndex _))
  · cases mem

theorem isCheckOf_of_mem_checks [Engine] (mem : check ∈ checks t) : IsCheckOf t check := by
  obtain ⟨group, among, mem⟩ := List.mem_flatMap.1 mem
  simp only [List.mem_cons, List.not_mem_nil, or_false] at among
  rcases among with rfl | rfl | rfl | rfl | rfl | rfl | rfl | rfl | rfl | rfl | rfl | rfl
  · exact isCheckOf_of_mem_if (.byFix _ (isPlacedIn_of_hasLine t.hasLine_one) (.fixed .addDoctype rfl rfl)) mem
  · exact isCheckOf_of_mem_checkStructure mem
  · exact isCheckOf_of_mem_checkMeta mem
  · obtain ⟨image, -, rfl⟩ := List.mem_map.1 mem
    exact .byFix _ (isPlacedIn_of_hasLine (t.hasLine_lineIndex _)) (.fixed .addAltAttributes rfl rfl)
  · exact isCheckOf_of_mem_checkDeprecated mem
  · exact isCheckOf_of_mem_checkParagraphs mem
  · exact isCheckOf_of_mem_checkInlineStyles mem
  · exact isCheckOf_of_mem_checkHeadings mem
  · exact isCheckOf_of_mem_checkBalance mem
  · exact isCheckOf_of_mem_checkLabels mem
  · obtain ⟨link, -, rfl⟩ := List.mem_map.1 mem
    exact .byHand _ _ _ _ _ (isPlacedIn_of_hasLine (t.hasLine_lineIndex _))
  · obtain ⟨tag, slashed, rfl⟩ := List.mem_map.1 mem
    exact .byFix _ (isPlacedIn_of_hasLine (t.hasLine_lineIndex _)) (.unslashing rfl slashed)

end Checks

theorem isPlacedIn_of_mem_findings [Engine] {t : Text} {f : Finding} (mem : f ∈ findings t) :
    IsPlacedIn t f.line f.message := by
  obtain ⟨check, found, rfl⟩ := exists_check_of_mem_findings mem
  cases isCheckOf_of_mem_checks found with
  | byHand kind category suggestion fixCode penalty placed => exact placed
  | byFix penalty placed words => exact placed

end Markup

/-! ### The rules -/

/-- What an outcome of a rule for a file can be. -/
inductive IsOutcomeOf [Engine] (fileName : String) (t : Text) : Outcome → Prop
  | placed {i : Issue} (line : t.HasLine i.line) : IsOutcomeOf fileName t (.issue i)
  | found (kind : IssueKind) (code : String) {f : Markup.Finding} (family : Family.ofName fileName = .html)
      (mem : f ∈ findings t) : IsOutcomeOf fileName t (.issue ⟨kind, f.line, f.message, code⟩)
  | byHand {s : Suggestion} (byHand : s.autoFix = false) : IsOutcomeOf fileName t (.suggestion s)
  | byFix {s : Suggestion} (words : IsFixOf (Family.ofName fileName) t s) :
      IsOutcomeOf fileName t (.suggestion s)

/-- A rule category reports nothing else. -/
def ReportsOnly [Engine] (fileName : String) (t : Text) (result : Except Fault (List Outcome)) : Prop :=
  ∀ o ∈ isolate result, IsOutcomeOf fileName t o

/-- What a scan finds that goes through a list is what it finds for the members. -/
theorem forall_mem_isolate_mapM {α β : Type} {P : β → Prop} {f : α → Except Fault (List β)}
    {as : List α} (each : ∀ a ∈ as, ∀ b ∈ isolate (f a), P b) :
    ∀ b ∈ isolate (do return (← as.mapM f).flatten), P b := by
  induction as with
  | nil => exact fun _ mem => by cases mem
  | cons a as ih =>
    have here := each a List.mem_cons_self
    have others := ih fun b mem => each b (List.mem_cons_of_mem a mem)
    rw [List.mapM_cons]
    cases first : f a with
    | error fault => exact fun _ mem => by cases mem
    | ok found =>
      cases rest : as.mapM f with
      | error fault => exact fun _ mem => by cases mem
      | ok more =>
        rw [first] at here
        rw [rest] at others
        intro b mem
        change b ∈ (found :: more).flatten at mem
        rw [List.flatten_cons] at mem
        rcases List.mem_append.1 mem with mem | mem
        · exact here b mem
        · exact others b mem

section Rules

variable {fileName : String} {t : Text}

theorem reportsOnly_nil [Engine] : ReportsOnly fileName t (.ok []) := fun _ mem => by cases mem

theorem reportsOnly_one [Engine] {o : Outcome} (is : IsOutcomeOf fileName t o) :
    ReportsOnly fileName t (.ok [o]) :=
  fun _ mem => List.mem_singleton.1 mem ▸ is

theorem reportsOnly_two [Engine] {o o' : Outcome} (is : IsOutcomeOf fileName t o)
    (is' : IsOutcomeOf fileName t o') : ReportsOnly fileName t (.ok [o, o']) := by
  intro o'' mem
  rcases List.mem_cons.1 mem with rfl | mem
  · exact is
  · exact reportsOnly_one is' _ mem

theorem reportsOnly_if [Engine] {c : Prop} [Decidable c] {as bs : List Outcome}
    (first : ReportsOnly fileName t (.ok as)) (second : ReportsOnly fileName t (.ok bs)) :
    ReportsOnly fileName t (.ok (if c then as else bs)) := by
  split
  · exact first
  · exact second

theorem reportsOnly_map [Engine] {α : Type} (found : List α) {outcome : α → Outcome}
    (each : ∀ a, IsOutcomeOf fileName t (outcome a)) :
    ReportsOnly fileName t (.ok (found.map outcome)) := by
  intro o mem
  obtain ⟨a, -, rfl⟩ := List.mem_map.1 mem
  exact each a

theorem reportsOnly_universal [Engine] {rule : Rule} (mem : rule ∈ Universal.rules) :
    ReportsOnly fileName t (rule (.ofFile fileName t)) := by
  simp only [Universal.rules, List.mem_cons, List.not_mem_nil, or_false] at mem
  rcases mem with rfl | rfl | rfl | rfl | rfl | rfl | rfl | rfl | rfl | rfl | rfl | rfl | rfl | rfl
  · exact reportsOnly_if
      (reportsOnly_two (.placed (t.hasLine_lineHolding "console.log"))
        (.byFix (.fixed .removeConsoleLogs rfl rfl)))
      reportsOnly_nil
  · rw [Universal.varUsage]
    split
    · exact reportsOnly_two (.placed (t.hasLine_lineAt _)) (.byFix (.fixed .replaceVar rfl rfl))
    · exact reportsOnly_nil
  · rw [Universal.todoComments]
    split
    · rename_i found
      exact reportsOnly_one (.placed (Text.hasLine_findIdx? found))
    · exact reportsOnly_nil
  · exact reportsOnly_if (reportsOnly_one (.byHand rfl)) reportsOnly_nil
  · exact reportsOnly_if (reportsOnly_one (.byHand rfl)) reportsOnly_nil
  · exact reportsOnly_if (reportsOnly_one (.byHand rfl)) reportsOnly_nil
  · exact reportsOnly_if reportsOnly_nil (reportsOnly_one (.byFix (.fixed .extractMagicNumbers rfl rfl)))
  · exact reportsOnly_if (reportsOnly_one (.byHand rfl)) reportsOnly_nil
  · exact reportsOnly_if (reportsOnly_one (.byFix (.fixed .annotateNestedLoops rfl rfl))) reportsOnly_nil
  · exact reportsOnly_if (reportsOnly_one (.byFix (.fixed .removeCommentedCode rfl rfl))) reportsOnly_nil
  · exact reportsOnly_map _ fun n => .byHand rfl
  · exact reportsOnly_if (reportsOnly_one (.byHand rfl)) reportsOnly_nil
  · exact reportsOnly_if (reportsOnly_one (.byHand rfl)) reportsOnly_nil
  · exact reportsOnly_if (reportsOnly_one (.byFix (.trimming _))) reportsOnly_nil

theorem reportsOnly_unusedImports [Engine] (family : Family.ofName fileName = .script) :
    ReportsOnly fileName t (Script.unusedImports (.ofFile fileName t)) := by
  refine forall_mem_isolate_mapM fun name mem => ?_
  cases (SourceView.ofFile fileName t).content.wordIndex.countWord name with
  | error fault => exact reportsOnly_nil (t := t)
  | ok n =>
    change ReportsOnly fileName t (if n = 1 then .ok _ else .ok [])
    split
    · exact reportsOnly_one (.byFix (.removing family mem))
    · exact reportsOnly_nil

theorem reportsOnly_effectDependencies [Engine] :
    ReportsOnly fileName t (Script.effectDependencies (.ofFile fileName t)) := by
  refine forall_mem_isolate_mapM fun hit _ => forall_mem_isolate_mapM fun name _ => ?_
  split
  · exact reportsOnly_nil
  · cases (hit.groupChars 1).wordIndex.countWord name with
    | error fault => exact reportsOnly_nil
    | ok n =>
      change ReportsOnly fileName t (if n = 0 then .ok [] else .ok [_])
      split
      · exact reportsOnly_nil
      · exact reportsOnly_one (.placed (t.hasLine_lineIndex _))

theorem reportsOnly_script [Engine] (family : Family.ofName fileName = .script) {rule : Rule}
    (mem : rule ∈ Script.rules) : ReportsOnly fileName t (rule (.ofFile fileName t)) := by
  simp only [Script.rules, List.mem_cons, List.not_mem_nil, or_false] at mem
  rcases mem with rfl | rfl | rfl | rfl | rfl | rfl | rfl | rfl | rfl
  · exact reportsOnly_if reportsOnly_nil
      (reportsOnly_two (.placed t.hasLine_one) (.byFix (.fixed .addReactImport (beq_iff_eq.2 family) rfl)))
  · exact reportsOnly_if (reportsOnly_one (.byHand rfl)) reportsOnly_nil
  · exact reportsOnly_if
      (reportsOnly_one (.byFix (.fixed .extractInlineStyles (beq_iff_eq.2 family) rfl))) reportsOnly_nil
  · exact reportsOnly_if reportsOnly_nil
      (reportsOnly_two (.placed (t.hasLine_lineHolding ".map("))
        (.byFix (.fixed .addMissingKeys (beq_iff_eq.2 family) rfl)))
  · exact reportsOnly_unusedImports family
  · exact reportsOnly_effectDependencies
  · exact reportsOnly_if (reportsOnly_one (.byHand rfl)) reportsOnly_nil
  · rw [Script.threeDispose]
    split
    · exact reportsOnly_if reportsOnly_nil
        (reportsOnly_two (.placed (t.hasLine_lineAt _)) (.byHand rfl))
    · exact reportsOnly_nil
  · exact reportsOnly_if (reportsOnly_one (.byHand rfl)) reportsOnly_nil

theorem reportsOnly_python [Engine] {rule : Rule} (mem : rule ∈ Python.rules) :
    ReportsOnly fileName t (rule (.ofFile fileName t)) := by
  simp only [Python.rules, List.mem_cons, List.not_mem_nil, or_false] at mem
  rcases mem with rfl | rfl | rfl
  · rw [Python.printing]
    split
    · exact reportsOnly_two (.placed (t.hasLine_lineAt _)) (.byHand rfl)
    · exact reportsOnly_nil
  · rw [Python.indexLoops]
    split
    · exact reportsOnly_two (.placed (t.hasLine_lineAt _)) (.byHand rfl)
    · exact reportsOnly_nil
  · rw [Python.noneComparisons]
    split
    · exact reportsOnly_one (.placed (t.hasLine_lineAt _))
    · exact reportsOnly_nil

theorem reportsOnly_php [Engine] {rule : Rule} (mem : rule ∈ Php.rules) :
    ReportsOnly fileName t (rule (.ofFile fileName t)) := by
  simp only [Php.rules, List.mem_cons, List.not_mem_nil, or_false] at mem
  rcases mem with rfl | rfl | rfl
  · exact reportsOnly_if
      (reportsOnly_two (.placed (t.hasLine_lineHolding "mysql_query")) (.byHand rfl)) reportsOnly_nil
  · rw [Php.dieExit]
    split
    · exact reportsOnly_one (.placed (t.hasLine_lineAt _))
    · exact reportsOnly_nil
  · exact reportsOnly_if reportsOnly_nil (reportsOnly_one (.placed t.hasLine_one))

theorem reportsOnly_solidity [Engine] {rule : Rule} (mem : rule ∈ Solidity.rules) :
    ReportsOnly fileName t (rule (.ofFile fileName t)) := by
  simp only [Solidity.rules, List.mem_cons, List.not_mem_nil, or_false] at mem
  rcases mem with rfl | rfl
  · exact reportsOnly_if reportsOnly_nil (reportsOnly_two (.placed t.hasLine_one) (.byHand rfl))
  · exact reportsOnly_map _ fun hit => .placed (t.hasLine_lineIndex _)

theorem reportsOnly_vue [Engine] {rule : Rule} (mem : rule ∈ Vue.rules) :
    ReportsOnly fileName t (rule (.ofFile fileName t)) := by
  simp only [Vue.rules, List.mem_cons, List.not_mem_nil, or_false] at mem
  rcases mem with rfl | rfl
  · exact reportsOnly_map _ fun tag => .placed (t.hasLine_lineIndex _)
  · exact reportsOnly_if (reportsOnly_one (.byHand rfl)) reportsOnly_nil

/-- The suggestion of a finding that a fix mends is a fix of the document. -/
theorem isFixOf_of_mem_autofixOf [Engine] {f : Markup.Finding} (mem : f ∈ findings t) {o : Outcome}
    (made : o ∈ Html.autofixOf f) : ∃ s, o = .suggestion s ∧ IsFixOf .html t s := by
  obtain ⟨check, found, rfl⟩ := exists_check_of_mem_findings mem
  cases isCheckOf_of_mem_checks found with
  | byHand kind category suggestion fixCode penalty placed => cases made
  | byFix penalty placed words =>
    obtain rfl := List.mem_singleton.1 made
    exact ⟨_, rfl, words⟩

theorem isOutcomeOf_of_mem_outcomesOf [Engine] (family : Family.ofName fileName = .html) {f : Markup.Finding}
    (mem : f ∈ findings t) {o : Outcome} (made : o ∈ Html.outcomesOf f) :
    IsOutcomeOf fileName t o := by
  rcases List.mem_append.1 made with made | made
  · cases kind : f.kind with
    | error =>
      rw [kind] at made
      obtain rfl := List.mem_singleton.1 made
      exact .found _ _ family mem
    | warning =>
      rw [kind] at made
      obtain rfl := List.mem_singleton.1 made
      exact .found _ _ family mem
    | suggestion | info =>
      rw [kind] at made
      revert made
      dsimp only
      split
      · exact fun made => nomatch made
      · intro made
        obtain rfl := List.mem_singleton.1 made
        exact .byHand rfl
  · obtain ⟨s, rfl, words⟩ := isFixOf_of_mem_autofixOf mem made
    exact .byFix (family ▸ words)

theorem reportsOnly_html [Engine] (family : Family.ofName fileName = .html) {rule : Rule}
    (mem : rule ∈ Html.rules) : ReportsOnly fileName t (rule (.ofFile fileName t)) := by
  obtain rfl := List.mem_singleton.1 mem
  intro o reported
  obtain ⟨f, found, made⟩ := List.mem_flatMap.1 reported
  exact isOutcomeOf_of_mem_outcomesOf family found made

/-- What a rule for a file reports. -/
theorem isOutcomeOf_of_mem_rulesFor [Engine] {rule : Rule} (mem : rule ∈ rulesFor fileName) {o : Outcome}
    (reported : o ∈ isolate (rule (.ofFile fileName t))) : IsOutcomeOf fileName t o := by
  rcases List.mem_append.1 mem with mem | mem
  · exact reportsOnly_universal mem o reported
  · cases family : Family.ofName fileName with
    | html => exact reportsOnly_html family (by rwa [family] at mem) o reported
    | script => exact reportsOnly_script family (by rwa [family] at mem) o reported
    | python => exact reportsOnly_python (by rwa [family] at mem) o reported
    | php => exact reportsOnly_php (by rwa [family] at mem) o reported
    | solidity => exact reportsOnly_solidity (by rwa [family] at mem) o reported
    | vue => exact reportsOnly_vue (by rwa [family] at mem) o reported
    | other =>
      rw [family] at mem
      cases mem

end Rules

/-! ### The report -/

section Report

variable {fileName content fileType : String}

theorem isOutcomeOf_of_mem_issues [Engine] {i : Issue}
    (mem : i ∈ (analyzeFile fileName content fileType).issues) :
    IsOutcomeOf fileName (Text.of content) (.issue i) := by
  obtain ⟨o, reported, made⟩ := List.mem_filterMap.1 mem
  obtain ⟨rule, applies, reported⟩ := List.mem_flatMap.1 reported
  cases o with
  | issue i' =>
    obtain rfl : i' = i := by simpa using made
    exact isOutcomeOf_of_mem_rulesFor applies reported
  | suggestion s => cases made

theorem isOutcomeOf_of_mem_suggestions [Engine] {s : Suggestion}
    (mem : s ∈ (analyzeFile fileName content fileType).suggestions) :
    IsOutcomeOf fileName (Text.of content) (.suggestion s) := by
  obtain ⟨o, reported, made⟩ := List.mem_filterMap.1 (mem_keepOnce.1 mem)
  obtain ⟨rule, applies, reported⟩ := List.mem_flatMap.1 reported
  cases o with
  | issue i => cases made
  | suggestion s' =>
    obtain rfl : s' = s := by simpa using made
    exact isOutcomeOf_of_mem_rulesFor applies reported

end Report

end SourceAudit

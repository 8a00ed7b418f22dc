/-
Module: SourceAudit.Proofs.Improve.Spoiling
Layer: Proofs
Purpose: Improvements that make a report worse. For every fix that the rules for a family ask for and
  that is not steady there, a sample is given: its report asks for this fix alone and has the lower score
  afterwards. So the steady fixes are the only ones that can be chosen without a risk.
Main exports: FixKind.Spoils, FixKind.spoilsText, FixKind.Spoils.of_spoilsText, FixKind.sample,
  spoils_sample, chosenImprovement_never_worse_iff, ownImprovement_worse
-/
import SourceAudit.Proofs.Improve.Steady
import SourceAudit.Proofs.Report.Evaluation

namespace SourceAudit

open Markup

/-- The report on a file asks for the fix alone, and the fix lowers its score. The report is in memory, and
    the labels of a document are looked for. -/
structure FixKind.Spoils [Engine] (kind : FixKind) (fileName content : String) : Prop where
  alone : ownRequests fileName content = [kind]
  lower : (analyzeFile fileName (kind.applied fileName content) "").qualityScore <
    (analyzeFile fileName content "").qualityScore
  inMemory : (analyzeFile fileName content "").FitsMemory
  sought : Family.ofName fileName = .html → seeksLabels (labelledInputs (Text.of content)) = true

section

variable [Engine] {kind : FixKind} {fileName content : String} (spoils : kind.Spoils fileName content)
  {chosen : FixKind → Bool}
include spoils

/-- Chosen or not beside others, the fix is all that such a file is improved by. -/
theorem FixKind.Spoils.chosenImprovement_eq (picked : chosen kind = true) :
    chosenImprovement chosen fileName content "" = kind.applied fileName content := by
  rw [chosenImprovement_eq_foldl, spoils.alone, List.filter_cons_of_pos picked]
  rfl

/-- The labels that are missing in such a file were noticed before. -/
theorem FixKind.Spoils.unsoughtBefore_eq : unsoughtBefore chosen fileName (Text.of content) = [] := by
  rw [unsoughtBefore]
  split
  · rename_i trimmed
    rw [unsoughtInputs, if_pos (spoils.sought trimmed.2)]
  · rfl

end

/-! ### Samples by evaluation -/

/-- The fix that an outcome asks for, if it asks for one. -/
def Outcome.request? : Outcome → Option FixKind
  | .issue _ => none
  | .suggestion s => s.request?

theorem filterMap_request?_suggestionsOf (outcomes : List Outcome) :
    (suggestionsOf outcomes).filterMap Suggestion.request? = outcomes.filterMap Outcome.request? := by
  rw [suggestionsOf, List.filterMap_filterMap]
  refine List.filterMap_congr fun o _ => ?_
  cases o <;> rfl

/-- Where the outcomes ask for one fix once, the report asks for it alone. -/
theorem ownRequests_eq_singleton [Engine] {fileName content : String} {kind : FixKind}
    (accepted : ∀ p ∈ (Family.ofName fileName).madePatterns (Text.of content), Engine.accepts p = true)
    (once : (scannedOutcomes fileName (Text.of content)).filterMap Outcome.request? = [kind]) :
    ownRequests fileName content = [kind] := by
  rw [← outcomes_eq_scannedOutcomes accepted, ← filterMap_request?_suggestionsOf] at once
  have fewer : (ownRequests fileName content).Sublist [kind] := by
    rw [← once]
    exact (keepOnce_sublist _).filterMap _
  have some : kind ∈ ownRequests fileName content := by
    obtain ⟨s, found, asks⟩ := List.mem_filterMap.1 (once ▸ List.mem_singleton_self kind)
    exact List.mem_filterMap.2 ⟨s, mem_keepOnce.2 found, asks⟩
  rcases List.sublist_singleton.1 fewer with none | same
  · rw [none] at some
    cases some
  · exact same

attribute [local instance] Engine.unlimited in
/-- Whether evaluation shows that a fix spoils a text: the outcomes ask for it once, and the text that it
    leaves has issues of a greater burden. All patterns that are made on the way are short, so the result
    of the evaluation is that of any engine. -/
def FixKind.spoilsText (kind : FixKind) (fileName : String) (t : Text) : Bool :=
  let family := Family.ofName fileName
  let outcomes := scannedOutcomes fileName t
  let before := burden (kindsOf outcomes)
  areShort (family.madePatterns t ++ kind.madePatterns t) &&
    outcomes.filterMap Outcome.request? == [kind] && before < 100 &&
    match kind.edit fileName t with
    | .ok t' =>
      let after := burden (issueKinds fileName t')
      areShort (family.madePatterns t') && before < after && after < wordSize
    | .error _ => false

/-- The content is given as the list of its characters, so that no evaluation has to decode it. -/
theorem FixKind.Spoils.of_spoilsText [Engine] {kind : FixKind} {fileName content : String} {t : Text}
    (chars : content = String.ofList t) (check : kind.spoilsText fileName t = true) :
    kind.Spoils fileName content := by
  obtain rfl : Text.of content = t := by rw [chars, Text.of, String.toList_ofList]
  simp only [spoilsText, kindsOf_scannedOutcomes, Bool.and_eq_true, beq_iff_eq, decide_eq_true_eq] at check
  obtain ⟨⟨⟨short, once⟩, light⟩, more⟩ := check
  obtain ⟨accepted, edited⟩ := List.forall_mem_append.1 (accepted_of_areShort short)
  rw [← edit_eq_unlimited edited] at more
  refine ⟨ownRequests_eq_singleton accepted once, ?_, fitsMemory_of_burden_lt "" accepted light, ?_⟩
  · cases ran : kind.edit fileName (Text.of content) with
    | error fault =>
      rw [ran] at more
      cases more
    | ok t' =>
      rw [ran] at more
      simp only [Bool.and_eq_true, decide_eq_true_eq] at more
      obtain ⟨⟨short', heavier⟩, fits⟩ := more
      obtain rfl : Text.of (kind.applied fileName content) = t' := by
        rw [applied, applyFix, ran]
        exact String.toList_ofList
      have scoreBefore := toNat_qualityScore_analyzeFile "" accepted
      have scoreAfter := toNat_qualityScore_analyzeFile "" (accepted_of_areShort short')
      rw [Nat.mod_eq_of_lt (Nat.lt_trans heavier fits)] at scoreBefore
      rw [Nat.mod_eq_of_lt fits] at scoreAfter
      rw [UInt8.lt_iff_toNat_lt, scoreBefore, scoreAfter]
      omega
  · intro markup
    rw [markup] at accepted
    exact (seeks_of_accepts accepted).2

/-! ### A sample for each fix that is not steady -/

/-- The name of a file of the family. -/
def Family.sampleName : Family → String
  | .html => "a.html"
  | .script => "a.jsx"
  | .python => "a.py"
  | .php => "a.php"
  | .solidity => "a.sol"
  | .vue => "a.vue"
  | .other => "a.css"

/-- A file of the family that the fix spoils, for each fix that is asked for and not steady there. A document
    begins with the document type, character set and viewport that no fix is to put in. -/
def FixKind.sample : Family → FixKind → String
  -- the calls hold what is needed, or keep apart what is a finding when it stands together
  | .html, .removeConsoleLogs => "<!doctype><meta charset=><metaname=\"viewport\"><b>console.log(</b>)"
  | .script, .removeConsoleLogs => "console.log(import React)"
  | .python, .removeConsoleLogs => "print\nconsole.log()\n(==\nconsole.log()\nNone"
  | .php, .removeConsoleLogs => "console.log(<?php)"
  | .solidity, .removeConsoleLogs => "console.log(pragma solidity)"
  | .vue, .removeConsoleLogs => "<v-for=console.log( :key=)><v-for=console.log( :key=)>"
  -- a tag of that name, and state of the name that is put in
  | .html, .replaceVar => "<!doctype><meta charset=><metaname=\"viewport\"><var x></var>"
  | .script, .replaceVar =>
    "import \x7bconst[let,a]=useState;const[let,a]=useState;useEffect(()=>\x7bvar x\x7d,[])"
  -- the document type no longer comes first, and the note is an open task
  | .html, .extractMagicNumbers => "<!doctype><meta charset=><metaname=\"viewport\">11 12 13"
  | .html, .annotateNestedLoops => "<!doctype><meta charset=><metaname=\"viewport\">for()\x7bfor("
  | .script, .annotateNestedLoops => "import \x7bfor()\x7bfor("
  | _, .annotateNestedLoops => "for()\x7bfor("
  -- the lines hold what is needed, or keep the keyword and a name apart
  | .html, .removeCommentedCode =>
    "<!doctype><meta charset=><metaname=\"viewport\"><b>\n//=</b>\n//=\n//=\n//="
  | .script, .removeCommentedCode => "//=import React\n//=\n//=\n//="
  | _, .removeCommentedCode => "var\n//=\n//=\n//=\n//=\nx"
  -- what looks like the tag stands in the value of an attribute, or in another tag
  | .html, .addHtmlLang =>
    "<!doctype><meta charset=><metaname=\"viewport\"><label for=\"<html \"><input id=\"<html \"><input id=\"<html \">"
  | .html, .addViewportMeta => "<!doctype><meta charset=><p</head><p></p></p>"
  | .html, .addCharsetMeta => "<!doctype><metaname=\"viewport\"><input id=\"<p</head><p></p></p>"
  | .html, .addAltAttributes => "<!doctype><meta charset=><metaname=\"viewport\"><img src=\"<p-\"><p></p></p>"
  | .html, .replaceDeprecatedTags =>
    "<!doctype><meta charset=><metaname=\"viewport\"><p><<blink></blink>p></p>"
  | .html, .stripVoidSlash => "<!doctype><meta charset=><metaname=\"viewport\"><br <p/><p></p>"
  -- what is put in, or what is taken out, is a name that the effect or the file needs
  | .script, .addReactImport =>
    "const[from,a]=useState;const[from,a]=useState;const[from,a]=useState;const[from,a]=useState\nuseEffect(()=>\x7b\nimport \n\x7d,[])"
  | .script, .extractInlineStyles =>
    "import \x7bconst[0,a]=useState;useEffect(()=>\x7bstyle=\x7b\x7bx\x7d\x7d\x7d,[])"
  | .script, .addMissingKeys =>
    "import \x7bconst[key,a]=useState;const[key,a]=useState;useEffect(()=>\x7b.map((y)=><p>\x7d,[])"
  | .script, .removeUnusedImports => "import \x7b a$a \x7d from 'b';"
  | _, _ => ""

theorem ofName_sampleName (family : Family) : Family.ofName family.sampleName = family := by
  cases family <;> decide +kernel

section

variable [Engine] {kind : FixKind}

-- The samples are evaluated one after the other and in small groups, so that no evaluation grows large.

theorem spoils_sample_html_of_everywhere (asked : kind.isAskedIn .other = true)
    (unsteady : kind.isSteadyIn .html = false) : kind.Spoils "a.html" (kind.sample .html) := by
  cases kind <;>
    first
    | cases asked; done
    | cases unsteady; done
    | exact .of_spoilsText rfl (by decide +kernel)

theorem spoils_sample_html (asked : kind.isAskedIn .html = true)
    (unsteady : kind.isSteadyIn .html = false) : kind.Spoils "a.html" (kind.sample .html) := by
  cases everywhere : kind.isAskedIn .other with
  | true => exact spoils_sample_html_of_everywhere everywhere unsteady
  | false =>
    cases kind <;>
      first
      | cases asked; done
      | cases everywhere; done
      | cases unsteady; done
      | exact .of_spoilsText rfl (by decide +kernel)

set_option maxRecDepth 1000 in
theorem spoils_sample_script (asked : kind.isAskedIn .script = true)
    (unsteady : kind.isSteadyIn .script = false) : kind.Spoils "a.jsx" (kind.sample .script) := by
  cases kind <;>
    first
    | cases asked; done
    | cases unsteady; done
    | exact .of_spoilsText rfl (by decide +kernel)

theorem spoils_sample_of_ne {family : Family} (noMarkup : family ≠ .html) (noScript : family ≠ .script)
    (asked : kind.isAskedIn family = true) (unsteady : kind.isSteadyIn family = false) :
    kind.Spoils family.sampleName (kind.sample family) := by
  cases family <;> cases kind <;>
    first
    | cases asked; done
    | cases unsteady; done
    | exact absurd rfl noMarkup
    | exact absurd rfl noScript
    | exact .of_spoilsText rfl (by decide +kernel)

theorem spoils_sample {family : Family} (asked : kind.isAskedIn family = true)
    (unsteady : kind.isSteadyIn family = false) : kind.Spoils family.sampleName (kind.sample family) := by
  by_cases markup : family = .html
  · subst markup
    exact spoils_sample_html asked unsteady
  · by_cases script : family = .script
    · subst script
      exact spoils_sample_script asked unsteady
    · exact spoils_sample_of_ne markup script asked unsteady

end

/-! ### The choice of fixes -/

/-- Improving the files of a family by chosen fixes never makes a report worse if and only if, of the
    fixes that the rules for the family ask for, only steady ones are chosen. (Where the engine refuses to
    look for the labels of a document, missing labels can come to be noticed when it is trimmed, and each
    of them costs its points then.) -/
theorem chosenImprovement_never_worse_iff [Engine] (family : Family) (chosen : FixKind → Bool) :
    (∀ fileName content fileType : String, Family.ofName fileName = family →
      let before := analyzeFile fileName content fileType
      let after := analyzeFile fileName (chosenImprovement chosen fileName content fileType) fileType
      after.errorCount ≤ before.errorCount ∧
        (before.FitsMemory → before.qualityScore.toNat ≤
          after.qualityScore.toNat + 5 * (unsoughtBefore chosen fileName (Text.of content)).length)) ↔
      ∀ kind : FixKind, kind.isAskedIn family = true → chosen kind = true →
        kind.isSteadyIn family = true := by
  constructor
  · intro never kind asked picked
    by_contra unsteady
    have spoils := spoils_sample asked (Bool.eq_false_iff.2 unsteady)
    obtain ⟨-, noLower⟩ := never _ (kind.sample family) "" (ofName_sampleName family)
    have atLeast := noLower spoils.inMemory
    rw [spoils.chosenImprovement_eq picked, spoils.unsoughtBefore_eq, List.length_nil, Nat.mul_zero,
      Nat.add_zero] at atLeast
    exact Nat.not_le.2 (UInt8.lt_iff_toNat_lt.1 spoils.lower) atLeast
  · rintro steady fileName content fileType rfl
    exact chosenImprovement_not_worse steady content fileType

attribute [local instance] Engine.standard in
/-- A file whose only suggestion makes its report worse: the lines that are taken for code left in
    comments hold the opening tag. -/
theorem ownImprovement_worse :
    (analyzeFile "a.php" "// <?php $a = 1;\n// $b = 2;\n// $c = 3;\n// $d = 4;\n" "").errorCount <
        (analyzeFile "a.php"
          (ownImprovement "a.php" "// <?php $a = 1;\n// $b = 2;\n// $c = 3;\n// $d = 4;\n" "") "").errorCount ∧
      (analyzeFile "a.php"
          (ownImprovement "a.php" "// <?php $a = 1;\n// $b = 2;\n// $c = 3;\n// $d = 4;\n" "") "").qualityScore <
        (analyzeFile "a.php" "// <?php $a = 1;\n// $b = 2;\n// $c = 3;\n// $d = 4;\n" "").qualityScore := by
  decide +kernel

end SourceAudit

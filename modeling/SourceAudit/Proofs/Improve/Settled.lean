/-
Module: SourceAudit.Proofs.Improve.Settled
Layer: Proofs
Purpose: Fixes that settle what they are for. Where a fix and the rule that asks for it read a text by
  the same definition, the rule has nothing to report on the fixed text, and a second run of the fix
  leaves that text as it is.
Main exports: Gives, Settles, not_isCommentedCode_of_mem, includes_addReactImport,
  occurs_insertIntoHead, shared_definitions_settle
-/
import SourceAudit.Fix.Apply
import SourceAudit.Proofs.Improve.Doctype
import SourceAudit.Proofs.Improve.LineEdits
import SourceAudit.Proofs.Pattern.Stretch

namespace SourceAudit

open Pattern Markup

/-- The fix turns the code into one with the property. -/
def Gives [Engine] (kind : FixKind) (fileName code : String) (P : Text → Prop) : Prop :=
  ∃ fixed, applyFix kind fileName code = .ok fixed ∧ P (Text.of fixed)

theorem Gives.of_edit [Engine] (edit : Text → Text) {kind : FixKind} {fileName : String}
    (edits : ∀ t, kind.edit fileName t = .ok (edit t)) {code : String} {P : Text → Prop}
    (holds : P (edit (Text.of code))) : Gives kind fileName code P := by
  refine ⟨(edit (Text.of code)).str, ?_, by rwa [Text.of_str]⟩
  rw [applyFix, edits]
  rfl

/-- The fix turns the code into one with the property, which a second run of the fix leaves as it is. -/
def Settles [Engine] (kind : FixKind) (fileName code : String) (settled : Text → Prop) : Prop :=
  ∃ fixed, applyFix kind fileName code = .ok fixed ∧ settled (Text.of fixed) ∧
    applyFix kind fileName fixed = .ok fixed

theorem Settles.of_edit [Engine] (edit : Text → Text) {kind : FixKind} {fileName : String}
    (edits : ∀ t, kind.edit fileName t = .ok (edit t)) {code : String} {settled : Text → Prop}
    (holds : settled (edit (Text.of code)))
    (again : edit (edit (Text.of code)) = edit (Text.of code)) :
    Settles kind fileName code settled := by
  refine ⟨(edit (Text.of code)).str, ?_, ?_, ?_⟩
  · rw [applyFix, edits]
    rfl
  · rwa [Text.of_str]
  · rw [applyFix, edits, Text.of_str, again]
    rfl

/-! ### Blanks at the ends of lines -/

theorem hasTrailingBlank_editLine_trimEnd (line : Text) :
    hasTrailingBlank (Fix.editLine Text.trimEnd line) = false := by
  rw [hasTrailingBlank, keepsBreaks_trimEnd.splitReturn_editLine, Text.endsWithOneOf]
  cases last : line.splitReturn.1.trimEnd.getLast? with
  | none => rfl
  | some x =>
    have solid := isBlank_of_getLast?_trimEnd last
    have space : x ≠ ' ' := by
      rintro rfl
      cases solid
    have tab : x ≠ '\t' := by
      rintro rfl
      cases solid
    simp [space, tab]

theorem settles_trimTrailingWhitespace [Engine] (fileName code : String) :
    Settles .trimTrailingWhitespace fileName code fun t =>
      (∀ line ∈ t.lines, hasTrailingBlank line = false) ∧
        Universal.trailingBlanks (.ofFile fileName t) = .ok [] := by
  apply Settles.of_edit Fix.trimTrailingBlanks fun _ => rfl
  · have clean : ∀ line ∈ (Fix.trimTrailingBlanks (Text.of code)).lines,
        hasTrailingBlank line = false := by
      rw [Fix.trimTrailingBlanks, keepsBreaks_trimEnd.lines_mapLines]
      intro line mem
      obtain ⟨before, -, rfl⟩ := List.mem_map.1 mem
      exact hasTrailingBlank_editLine_trimEnd before
    refine ⟨clean, ?_⟩
    have none : (Fix.trimTrailingBlanks (Text.of code)).lines.filter hasTrailingBlank = [] := by
      rw [List.filter_eq_nil_iff]
      intro line mem
      rw [clean line mem]
      exact Bool.false_ne_true
    simp only [Universal.trailingBlanks, SourceView.ofFile, none]
    rfl
  · exact trimTrailingBlanks_idem (Text.of code)

/-! ### Code in comments -/

/-- The lines that are left are no code in comments. If none is left, the text is one empty line. -/
theorem not_isCommentedCode_of_mem {t line : Text} (mem : line ∈ (Fix.removeCommentedCode t).lines) :
    isCommentedCode line = false := by
  rw [Fix.removeCommentedCode] at mem
  by_cases left : (t.lines.filter fun line => !isCommentedCode line) = []
  · rw [left] at mem
    obtain rfl := List.mem_singleton.1 mem
    rfl
  · rw [Text.lines_unlines left] at mem
    · simpa using (List.mem_filter.1 mem).2
    · intro kept among
      exact Text.not_mem_of_mem_lines (List.mem_filter.1 among).1

theorem settles_removeCommentedCode [Engine] (fileName code : String) :
    Settles .removeCommentedCode fileName code fun t =>
      (∀ line ∈ t.lines, isCommentedCode line = false) ∧
        Universal.commentedCode (.ofFile fileName t) = .ok [] := by
  apply Settles.of_edit Fix.removeCommentedCode fun _ => rfl
  · refine ⟨fun line => not_isCommentedCode_of_mem, ?_⟩
    have none : (Fix.removeCommentedCode (Text.of code)).lines.filter isCommentedCode = [] := by
      rw [List.filter_eq_nil_iff]
      intro line mem
      rw [not_isCommentedCode_of_mem mem]
      exact Bool.false_ne_true
    simp only [Universal.commentedCode, SourceView.ofFile, none]
    rfl
  · conv_lhs => rw [Fix.removeCommentedCode]
    rw [List.filter_eq_self.2, Text.unlines_lines]
    intro line mem
    rw [not_isCommentedCode_of_mem mem]
    rfl

/-! ### The React import -/

/-- Behind the fix the import is there, unless the file is none that needs it. -/
theorem includes_addReactImport (fileName : String) (t : Text) :
    (isJsxExtension (extensionOf (Text.of fileName)) || SourceView.importsReact t) = false ∧
        Fix.addReactImport fileName t = t ∨
      (Fix.addReactImport fileName t).includes "import React" = true := by
  by_cases markup : (isJsxExtension (extensionOf (Text.of fileName)) || SourceView.importsReact t) = true
  · right
    by_cases there : t.includes "import React" = true
    · rwa [Fix.addReactImport, if_pos (by rw [there, Bool.or_true])]
    · rw [Fix.addReactImport, if_neg (by rw [markup, Bool.not_true, Bool.false_or]; exact there),
        Text.includes_iff, ← Text.exists_infix_unlines (by decide) (by decide)]
      refine ⟨Fix.reactImportLine, by simp, ?_⟩
      exact ⟨[], " from 'react';".toList, rfl⟩
  · left
    refine ⟨by simpa using markup, ?_⟩
    rw [Fix.addReactImport, if_pos]
    rw [Bool.eq_false_iff.2 markup]
    rfl

theorem settles_addReactImport [Engine] (fileName code : String) :
    Settles .addReactImport fileName code fun t =>
      Script.reactImport (.ofFile fileName t) = .ok [] := by
  apply Settles.of_edit (Fix.addReactImport fileName) fun _ => rfl
  · rcases includes_addReactImport fileName (Text.of code) with ⟨other, -⟩ | there
    · rw [Bool.or_eq_false_iff] at other
      simp only [Script.reactImport, SourceView.ofFile, other.1]
      rfl
    · rw [Script.reactImport, SourceView.ofFile, if_pos (by rw [there, Bool.or_true, Bool.true_or])]
  · rcases includes_addReactImport fileName (Text.of code) with ⟨-, same⟩ | there
    · rw [same, same]
    · rw [Fix.addReactImport, if_pos (by rw [there, Bool.or_true])]

/-! ### The document type -/

theorem checkDoctype_eq_nil_iff {t : Text} : checkDoctype t = [] ↔ startsWithDoctype t = true := by
  rw [checkDoctype]
  constructor
  · intro none
    by_contra absent
    rw [if_neg absent] at none
    cases none
  · exact fun declared => if_pos declared

theorem checkDoctype_addDoctype (t : Text) : checkDoctype (Fix.addDoctype t) = [] := by
  by_cases declared : startsWithDoctype t = true
  · rw [Fix.addDoctype, if_pos declared, checkDoctype_eq_nil_iff]
    exact declared
  · rw [Fix.addDoctype, if_neg declared]
    exact checkDoctype_doctypeLine t

theorem settles_addDoctype [Engine] (fileName code : String) :
    Settles .addDoctype fileName code fun t => checkDoctype t = [] := by
  have settled := checkDoctype_addDoctype (Text.of code)
  apply Settles.of_edit Fix.addDoctype fun _ => rfl
  · exact settled
  · conv_lhs => rw [Fix.addDoctype, if_pos (checkDoctype_eq_nil_iff.1 settled)]

/-! ### Meta tags -/

section Head

variable {present : Pattern} {tag : Text} (free : present.isEdgeFree = true)
  (moves : present.isSkippable = false) (declares : present.occurs tag = true)
include free moves declares

/-- A text with a head has, behind the fix, what the tag is there for. -/
theorem occurs_insertIntoHead {t : Text}
    (head : (openTag "head").occurs t = true ∨ (closeTag "head").occurs t = true) :
    present.occurs (Fix.insertIntoHead present tag t) = true := by
  by_cases there : present.occurs t = true
  · rwa [Fix.insertIntoHead, if_pos there]
  · rw [Fix.insertIntoHead, if_neg there]
    cases opening : (openTag "head").find t with
    | some hit => exact occurs_of_infix free moves ⟨_, _, rfl⟩ declares
    | none =>
      rw [occurs, opening] at head
      obtain ⟨hit, closing⟩ := Option.isSome_iff_exists.1 (head.resolve_left Bool.false_ne_true)
      rw [closing]
      exact occurs_of_infix free moves ⟨_, _, rfl⟩ declares

theorem insertIntoHead_idem {t : Text}
    (head : (openTag "head").occurs t = true ∨ (closeTag "head").occurs t = true) :
    Fix.insertIntoHead present tag (Fix.insertIntoHead present tag t) =
      Fix.insertIntoHead present tag t := by
  conv_lhs => rw [Fix.insertIntoHead, if_pos (occurs_insertIntoHead free moves declares head)]

end Head

theorem settles_addCharsetMeta [Engine] (fileName : String) {code : String}
    (head : (openTag "head").occurs (Text.of code) = true ∨
      (closeTag "head").occurs (Text.of code) = true) :
    Settles .addCharsetMeta fileName code fun t =>
      ∀ check ∈ checkMeta t, check.finding.message ≠ "Missing character encoding declaration" := by
  have declares : charsetMeta.occurs "<meta charset=\"UTF-8\">" = true := by decide +kernel
  have declared := occurs_insertIntoHead rfl rfl declares head
  apply Settles.of_edit Fix.addCharsetMeta fun _ => rfl
  · intro check mem
    rw [checkMeta, Fix.addCharsetMeta, if_pos declared, List.nil_append] at mem
    split at mem
    · cases mem
    · obtain rfl := List.mem_singleton.1 mem
      change "Missing viewport meta tag" ≠ _
      decide
  · exact insertIntoHead_idem rfl rfl declares head

theorem settles_addViewportMeta [Engine] (fileName : String) {code : String}
    (head : (openTag "head").occurs (Text.of code) = true ∨
      (closeTag "head").occurs (Text.of code) = true) :
    Settles .addViewportMeta fileName code fun t =>
      ∀ check ∈ checkMeta t, check.finding.message ≠ "Missing viewport meta tag" := by
  have declares : viewportMeta.occurs
      "<meta name=\"viewport\" content=\"width=device-width, initial-scale=1.0\">" = true := by
    decide +kernel
  have declared := occurs_insertIntoHead rfl rfl declares head
  apply Settles.of_edit Fix.addViewportMeta fun _ => rfl
  · intro check mem
    rw [checkMeta, Fix.addViewportMeta, if_pos declared, List.append_nil] at mem
    split at mem
    · cases mem
    · obtain rfl := List.mem_singleton.1 mem
      change "Missing character encoding declaration" ≠ _
      decide
  · exact insertIntoHead_idem rfl rfl declares head

/-- A fix and the rule that asks for it agree where they share a definition: the rule has nothing to
    report on the fixed text, and the fix changes nothing in it. The meta tags need a head to go
    into. -/
theorem shared_definitions_settle [Engine] (fileName code : String) :
    Settles .trimTrailingWhitespace fileName code (fun t =>
      (∀ line ∈ t.lines, hasTrailingBlank line = false) ∧
        Universal.trailingBlanks (.ofFile fileName t) = .ok []) ∧
    Settles .removeCommentedCode fileName code (fun t =>
      (∀ line ∈ t.lines, isCommentedCode line = false) ∧
        Universal.commentedCode (.ofFile fileName t) = .ok []) ∧
    Settles .addReactImport fileName code (fun t =>
      Script.reactImport (.ofFile fileName t) = .ok []) ∧
    Settles .addDoctype fileName code (fun t => checkDoctype t = []) ∧
    ((openTag "head").occurs (Text.of code) = true ∨ (closeTag "head").occurs (Text.of code) = true →
      Settles .addCharsetMeta fileName code (fun t =>
        ∀ check ∈ checkMeta t, check.finding.message ≠ "Missing character encoding declaration") ∧
      Settles .addViewportMeta fileName code (fun t =>
        ∀ check ∈ checkMeta t, check.finding.message ≠ "Missing viewport meta tag")) := by
  refine ⟨settles_trimTrailingWhitespace fileName code, settles_removeCommentedCode fileName code,
    settles_addReactImport fileName code, settles_addDoctype fileName code, fun head => ?_⟩
  exact ⟨settles_addCharsetMeta fileName head, settles_addViewportMeta fileName head⟩

attribute [local instance] Engine.standard in
/-- The fixes of the meta tags settle a text whose only sign of a head is its closing tag. -/
theorem shared_definitions_settle_closing_head :
    (closeTag "head").occurs "</HEAD >" = true ∧
      Settles .addCharsetMeta "a.html" "</HEAD >" (fun t =>
        ∀ check ∈ checkMeta t, check.finding.message ≠ "Missing character encoding declaration") := by
  have head : (closeTag "head").occurs "</HEAD >" = true := by decide +kernel
  exact ⟨head, ((shared_definitions_settle "a.html" "</HEAD >").2.2.2.2 (.inr head)).1⟩

end SourceAudit

/-
Module: SourceAudit.Proofs.Improve.Unsettled
Layer: Proofs
Purpose: Fixes that can leave the finding that asked for them. Where a fix and the check that asks for it
  read the text by patterns of their own, a finding is left exactly on the texts on which the two
  patterns part: blanks before the equals sign of an attribute, a second slash in a void element, and
  a declaration over a line break or in the place of a name.
Main exports: Leaves, HasSpacedAlt, HasSpacedLang, autofix_leaves_finding_iff, autofix_leaves_findings
-/
import SourceAudit.Fix.Apply
import SourceAudit.Proofs.Improve.Renewal
import SourceAudit.Proofs.Markup.Images
import SourceAudit.Proofs.Markup.Mending
import SourceAudit.Proofs.Markup.Reported

namespace SourceAudit

open Pattern Markup

/-- The fix turns the code into one that has the finding exactly if the code gave the cause. -/
def Leaves [Engine] (kind : FixKind) (fileName code : String) (finding cause : Text → Prop) : Prop :=
  ∃ fixed, applyFix kind fileName code = .ok fixed ∧ (finding (Text.of fixed) ↔ cause (Text.of code))

theorem Leaves.of_edit [Engine] {kind : FixKind} {fileName : String} {edit : Text → Text}
    (edits : ∀ t, kind.edit fileName t = .ok (edit t)) {finding cause : Text → Prop}
    (leaves : ∀ t, finding (edit t) ↔ cause t) (code : String) :
    Leaves kind fileName code finding cause := by
  refine ⟨(edit (Text.of code)).str, ?_, ?_⟩
  · rw [applyFix, edits]
    rfl
  · rw [Text.of_str]
    exact leaves _

/-- Some image has a text alternative for the fix, but none for the validation. -/
def HasSpacedAlt (t : Text) : Prop :=
  ∃ image ∈ Fix.imageTag.findAll t, Fix.spacedAltAttribute.occurs (image.groupChars 1) = true ∧
    altAttribute.occurs image.chars = false

/-- The first html tag has a language for the fix, but the validation finds none. -/
def HasSpacedLang (t : Text) : Prop :=
  ∃ tag, (openTag "html").find t = some tag ∧ Fix.langAttribute.occurs (tag.groupChars 1) = true ∧
    htmlLang.occurs t = false

theorem leaves_image [Engine] (t : Text) :
    Reported imageMessage (Fix.addAltAttributes t) ↔ HasSpacedAlt t := by
  have images := map_chars_findAll_addAltAttributes t
  rw [reported_image_iff, HasSpacedAlt]
  simp only [← occurs_altAttribute_imageWithAlt]
  constructor
  · rintro ⟨image, found, without⟩
    have mended : image.chars ∈ (Fix.imageTag.findAll t).map Fix.imageWithAlt := by
      rw [← images]
      exact List.mem_map_of_mem found
    obtain ⟨original, among, same⟩ := List.mem_map.1 mended
    exact ⟨original, among, by rw [same, without]⟩
  · rintro ⟨original, among, without⟩
    have found : Fix.imageWithAlt original ∈
        ((tagNamed "img").findAll (Fix.addAltAttributes t)).map Hit.chars := by
      rw [images]
      exact List.mem_map_of_mem among
    obtain ⟨image, found, same⟩ := List.mem_map.1 found
    exact ⟨image, found, by rw [same, without]⟩

/-- A language that is put in is one for the validation. -/
theorem occurs_htmlLang_of_infix {t : Text} (there : "<html lang=\"en\"".toList <:+: t) :
    htmlLang.occurs t = true :=
  occurs_of_infix rfl rfl there (by decide +kernel)

theorem leaves_language [Engine] (t : Text) :
    Reported languageMessage (Fix.addHtmlLang t) ↔ HasSpacedLang t := by
  rw [reported_language_iff, HasSpacedLang, Fix.addHtmlLang]
  cases found : (openTag "html").find t with
  | none =>
    constructor
    · rintro ⟨there, -⟩
      rw [occurs, found] at there
      cases there
    · rintro ⟨tag, other, -⟩
      cases other
  | some tag =>
    by_cases given : Fix.langAttribute.occurs (tag.groupChars 1) = true
    · simp only [if_pos given]
      constructor
      · rintro ⟨-, without⟩
        exact ⟨tag, rfl, given, without⟩
      · rintro ⟨tag', -, -, without⟩
        exact ⟨by rw [occurs, found]; rfl, without⟩
    · have declared : htmlLang.occurs
          (splice t 0 [(tag, "<html lang=\"en\"" ++ tag.groupChars 1 ++ ">")]) = true := by
        apply occurs_htmlLang_of_infix
        rw [splice, List.append_assoc, List.append_assoc]
        exact ⟨_, _, List.append_assoc _ _ _⟩
      simp only [if_neg given]
      constructor
      · rintro ⟨-, without⟩
        rw [declared] at without
        cases without
      · rintro ⟨tag', same, given', -⟩
        cases same
        exact absurd given' given

theorem leaves_slash [Engine] {fileName : String} (family : Family.ofName fileName ≠ .script) (t : Text) :
    Reported slashMessage (Fix.stripVoidSlash fileName t) ↔ doubledSlash.occurs t = true := by
  rw [reported_slash_iff, occurs_slashedVoid_stripVoidSlash family]

theorem leaves_var (fileName : String) (t : Text) :
    Universal.varUsage (.ofFile fileName (Fix.replaceVar t)) ≠ .ok [] ↔
      brokenVar.occurs t = true ∨ doubledVar.occurs t = true := by
  rw [← occurs_varDeclaration_replaceVar, occurs, Universal.varUsage, SourceView.ofFile]
  cases Universal.varDeclaration.find (Fix.replaceVar t) with
  | none => simp
  | some hit => simp

/-- What four fixes leave of the findings that ask for them: a text alternative with blanks before the
    equals sign, and likewise a language, counts for the fix and not for the validation; of two slashes
    on a void element one stays; and the dated keyword stays in a declaration with a line break before
    the name, and where a name should be given. -/
theorem autofix_leaves_finding_iff [Engine] (fileName code : String) :
    Leaves .addAltAttributes fileName code (Reported "Image missing alt attribute") HasSpacedAlt ∧
    Leaves .addHtmlLang fileName code (Reported "Missing lang attribute in <html> tag") HasSpacedLang ∧
    (Family.ofName fileName ≠ .script → Leaves .stripVoidSlash fileName code
      (Reported "Trailing slash on void elements has no effect")
      (fun t => doubledSlash.occurs t = true)) ∧
    Leaves .replaceVar fileName code
      (fun t => Universal.varUsage (.ofFile fileName t) ≠ .ok [])
      (fun t => brokenVar.occurs t = true ∨ doubledVar.occurs t = true) := by
  refine ⟨?_, ?_, fun family => ?_, ?_⟩
  · exact Leaves.of_edit (fun _ => rfl) leaves_image code
  · exact Leaves.of_edit (fun _ => rfl) leaves_language code
  · exact Leaves.of_edit (fun _ => rfl) (leaves_slash family) code
  · exact Leaves.of_edit (fun _ => rfl) (leaves_var fileName) code

attribute [local instance] Engine.standard in
/-- Each of the four fixes leaves a finding on some text. -/
theorem autofix_leaves_findings :
    (applyFix .addAltAttributes "a.html" "<img alt = \"x\">" = .ok "<img alt = \"x\">" ∧
      Reported "Image missing alt attribute" (Text.of "<img alt = \"x\">")) ∧
    (applyFix .addHtmlLang "a.html" "<html lang = \"en\">" = .ok "<html lang = \"en\">" ∧
      Reported "Missing lang attribute in <html> tag" (Text.of "<html lang = \"en\">")) ∧
    (applyFix .stripVoidSlash "a.html" "<br//>" = .ok "<br/>" ∧
      Reported "Trailing slash on void elements has no effect" (Text.of "<br/>")) ∧
    (applyFix .replaceVar "a.js" "var\nx" = .ok "var\nx" ∧
      Universal.varUsage (.ofFile "a.js" (Text.of "var\nx")) ≠ .ok []) ∧
    applyFix .replaceVar "a.js" "var var x" = .ok "const var x" ∧
      Universal.varUsage (.ofFile "a.js" (Text.of "const var x")) ≠ .ok [] := by
  refine ⟨⟨?_, ?_⟩, ⟨?_, ?_⟩, ⟨?_, ?_⟩, ⟨?_, ?_⟩, ?_, ?_⟩
  · decide +kernel
  · exact (reported_image_iff _).2 (by decide +kernel)
  · decide +kernel
  · exact (reported_language_iff _).2 (by decide +kernel)
  · decide +kernel
  · exact (reported_slash_iff _).2 (by decide +kernel)
  · decide +kernel
  · decide +kernel
  · decide +kernel
  · decide +kernel

end SourceAudit

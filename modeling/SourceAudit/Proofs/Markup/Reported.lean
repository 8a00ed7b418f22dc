/-
Module: SourceAudit.Proofs.Markup.Reported
Layer: Proofs
Purpose: When a document is reported. Of the findings that name one of three fixes, each comes from one
  group of checks only, whatever else is wrong with the document: images without a text alternative, an
  html tag without a language, and void elements with a slash.
Main exports: Reported, reported_iff_exists_check, reported_image_iff, reported_language_iff,
  reported_slash_iff
-/
import SourceAudit.Markup.Validate
import SourceAudit.Proofs.Pattern.Edits

namespace SourceAudit

open Pattern Markup

/-- The validation of the document has a finding with this message. -/
def Reported [Engine] (message : String) (t : Text) : Prop :=
  ∃ finding ∈ (validate t).errors ++ (validate t).warnings ++ (validate t).suggestions,
    finding.message = message

/-- The message about an image. -/
def imageMessage : String := "Image missing alt attribute"

/-- The message about the language. -/
def languageMessage : String := "Missing lang attribute in <html> tag"

/-- The message about a slash. -/
def slashMessage : String := "Trailing slash on void elements has no effect"

/-- The messages whose groups of checks are told apart here. -/
def tagMessages : List String := [imageMessage, languageMessage, slashMessage]

/-- Every check that finds something is reported, in one of the three lists. -/
theorem reported_iff_exists_check [Engine] (message : String) (t : Text) :
    Reported message t ↔ ∃ check ∈ checks t, check.finding.message = message := by
  simp only [Reported, validate, List.mem_append, List.mem_filter, List.mem_map]
  constructor
  · rintro ⟨finding, ((⟨⟨check, mem, rfl⟩, -⟩ | ⟨⟨check, mem, rfl⟩, -⟩) | ⟨⟨check, mem, rfl⟩, -⟩), same⟩
    · exact ⟨check, mem, same⟩
    · exact ⟨check, mem, same⟩
    · exact ⟨check, mem, same⟩
  · rintro ⟨check, mem, same⟩
    refine ⟨check.finding, ?_, same⟩
    cases kind : check.finding.kind with
    | error => exact .inl (.inl ⟨⟨check, mem, rfl⟩, rfl⟩)
    | warning => exact .inl (.inr ⟨⟨check, mem, rfl⟩, rfl⟩)
    | suggestion => exact .inr ⟨⟨check, mem, rfl⟩, rfl⟩
    | info => exact .inr ⟨⟨check, mem, rfl⟩, rfl⟩

section Messages

variable {t : Text} {check : Check}

/-- A message with something filled in is none of those if it starts otherwise. -/
theorem filled_not_mem (opening : String) {filled ending : String} (long : 2 ≤ opening.toList.length)
    (other : opening.toList.take 2 ∉ ["Im", "Mi", "Tr"].map String.toList) :
    opening ++ filled ++ ending ∉ tagMessages := by
  intro mem
  have fronts : tagMessages.map (fun m => m.toList.take 2) = ["Im", "Mi", "Tr"].map String.toList := by
    decide
  have among := List.mem_map_of_mem (f := fun m : String => m.toList.take 2) mem
  rw [fronts, String.toList_append, String.toList_append, List.append_assoc,
    List.take_append_of_le_length long] at among
  exact other among

theorem message_checkDoctype (mem : check ∈ checkDoctype t) : check.finding.message ∉ tagMessages := by
  rw [checkDoctype] at mem
  split at mem
  · cases mem
  · obtain rfl := List.mem_singleton.1 mem
    change "Missing DOCTYPE declaration" ∉ tagMessages
    decide

/-- Of the structure only the html tag matters. -/
theorem mem_checkRoot_of_mem (mem : check ∈ checkStructure t) :
    check ∈ checkRoot t ∨ check.finding.message ∉ tagMessages := by
  simp only [checkStructure, List.mem_append] at mem
  rcases mem with ((mem | mem) | mem) | mem
  · exact .inl mem
  · split at mem
    · cases mem
    · obtain rfl := List.mem_singleton.1 mem
      change _ ∨ "Missing <head> tag" ∉ tagMessages
      exact .inr (by decide)
  · split at mem
    · cases mem
    · obtain rfl := List.mem_singleton.1 mem
      change _ ∨ "Missing <title> tag" ∉ tagMessages
      exact .inr (by decide)
  · split at mem
    · cases mem
    · obtain rfl := List.mem_singleton.1 mem
      change _ ∨ "Missing <body> tag" ∉ tagMessages
      exact .inr (by decide)

theorem message_checkMeta (mem : check ∈ checkMeta t) : check.finding.message ∉ tagMessages := by
  simp only [checkMeta, List.mem_append] at mem
  rcases mem with mem | mem
  · split at mem
    · cases mem
    · obtain rfl := List.mem_singleton.1 mem
      change "Missing character encoding declaration" ∉ tagMessages
      decide
  · split at mem
    · cases mem
    · obtain rfl := List.mem_singleton.1 mem
      change "Missing viewport meta tag" ∉ tagMessages
      decide

theorem message_checkDeprecated (mem : check ∈ checkDeprecated t) :
    check.finding.message ∉ tagMessages := by
  obtain ⟨tag, -, mem⟩ := List.mem_flatMap.1 mem
  split at mem
  · obtain rfl := List.mem_singleton.1 mem
    exact filled_not_mem "Deprecated tag " (by decide) (by decide)
  · cases mem

theorem message_checkParagraphs (mem : check ∈ checkParagraphs t) :
    check.finding.message ∉ tagMessages := by
  obtain ⟨hit, -, mem⟩ := List.mem_flatMap.1 mem
  split at mem
  · obtain rfl := List.mem_singleton.1 mem
    exact filled_not_mem "Block element <" (by decide) (by decide)
  · cases mem

theorem message_checkInlineStyles (mem : check ∈ checkInlineStyles t) :
    check.finding.message ∉ tagMessages := by
  simp only [checkInlineStyles] at mem
  split at mem
  · obtain rfl := List.mem_singleton.1 mem
    exact filled_not_mem "Found " (by decide) (by decide)
  · cases mem

theorem message_checkHeadings (mem : check ∈ checkHeadings t) :
    check.finding.message ∉ tagMessages := by
  rw [checkHeadings] at mem
  split at mem
  · split at mem
    · obtain rfl := List.mem_singleton.1 mem
      change "No <h1> heading found" ∉ tagMessages
      decide
    · cases mem
    · obtain rfl := List.mem_singleton.1 mem
      exact filled_not_mem "Multiple <h1> headings found (" (by decide) (by decide)
  · cases mem

theorem message_checkBalance [Engine] (mem : check ∈ isolate (checkBalance t)) :
    check.finding.message ∉ tagMessages := by
  rw [checkBalance, isolate_ite] at mem
  split at mem
  · obtain ⟨entry, -, rfl⟩ := List.mem_map.1 mem
    exact filled_not_mem "Unclosed or mismatched <" (by decide) (by decide)
  · cases mem

theorem message_checkLabels [Engine] (mem : check ∈ isolate (checkLabels t)) :
    check.finding.message ∉ tagMessages := by
  rw [checkLabels, isolate_ite] at mem
  split at mem
  · obtain ⟨input, -, rfl⟩ := List.mem_map.1 mem
    change "Form input without associated label" ∉ tagMessages
    decide
  · cases mem

theorem message_checkLinks (mem : check ∈ checkLinks t) : check.finding.message ∉ tagMessages := by
  obtain ⟨link, -, rfl⟩ := List.mem_map.1 mem
  change "Link without valid href attribute" ∉ tagMessages
  decide

/-- A finding with one of the messages comes from one of three groups of checks. -/
theorem mem_of_message_mem [Engine] (mem : check ∈ checks t)
    (message : check.finding.message ∈ tagMessages) :
    check ∈ checkRoot t ∨ check ∈ checkImages t ∨ check ∈ checkVoidSlash t := by
  obtain ⟨group, among, mem⟩ := List.mem_flatMap.1 mem
  simp only [List.mem_cons, List.not_mem_nil, or_false] at among
  rcases among with rfl | rfl | rfl | rfl | rfl | rfl | rfl | rfl | rfl | rfl | rfl | rfl
  · exact absurd message (message_checkDoctype mem)
  · exact .inl ((mem_checkRoot_of_mem mem).resolve_right (absurd message))
  · exact absurd message (message_checkMeta mem)
  · exact .inr (.inl mem)
  · exact absurd message (message_checkDeprecated mem)
  · exact absurd message (message_checkParagraphs mem)
  · exact absurd message (message_checkInlineStyles mem)
  · exact absurd message (message_checkHeadings mem)
  · exact absurd message (message_checkBalance mem)
  · exact absurd message (message_checkLabels mem)
  · exact absurd message (message_checkLinks mem)
  · exact .inr (.inr mem)

theorem message_checkImages (mem : check ∈ checkImages t) : check.finding.message = imageMessage := by
  obtain ⟨image, -, rfl⟩ := List.mem_map.1 mem
  rfl

theorem message_checkVoidSlash (mem : check ∈ checkVoidSlash t) :
    check.finding.message = slashMessage := by
  obtain ⟨tag, -, rfl⟩ := List.mem_map.1 mem
  rfl

/-- The html tag is reported as missing or as without a language. -/
theorem message_checkRoot (mem : check ∈ checkRoot t) :
    check.finding.message = "Missing <html> tag" ∨ check.finding.message = languageMessage := by
  rw [checkRoot] at mem
  split at mem
  · obtain rfl := List.mem_singleton.1 mem
    exact .inl rfl
  · split at mem
    · cases mem
    · obtain rfl := List.mem_singleton.1 mem
      exact .inr rfl

end Messages

/-- An image is reported exactly if one has no text alternative. -/
theorem reported_image_iff [Engine] (t : Text) : Reported imageMessage t ↔
    ∃ image ∈ (tagNamed "img").findAll t, altAttribute.occurs image.chars = false := by
  rw [reported_iff_exists_check]
  constructor
  · rintro ⟨check, mem, message⟩
    rcases mem_of_message_mem mem (by rw [message]; decide) with mem | mem | mem
    · rcases message_checkRoot mem with other | other
      · exact absurd (message.symm.trans other) (by decide)
      · exact absurd (message.symm.trans other) (by decide)
    · obtain ⟨image, among, -⟩ := List.mem_map.1 mem
      obtain ⟨found, without⟩ := List.mem_filter.1 among
      exact ⟨image, found, by simpa using without⟩
    · exact absurd (message.symm.trans (message_checkVoidSlash mem)) (by decide)
  · rintro ⟨image, found, without⟩
    refine ⟨_, List.mem_flatMap.2 ⟨checkImages, by simp, List.mem_map.2 ⟨image, ?_, rfl⟩⟩, rfl⟩
    exact List.mem_filter.2 ⟨found, by simp [without]⟩

/-- The language is reported exactly if there is an html tag and none with a language. -/
theorem reported_language_iff [Engine] (t : Text) : Reported languageMessage t ↔
    (openTag "html").occurs t = true ∧ htmlLang.occurs t = false := by
  rw [reported_iff_exists_check]
  constructor
  · rintro ⟨check, mem, message⟩
    rcases mem_of_message_mem mem (by rw [message]; decide) with mem | mem | mem
    · rw [checkRoot] at mem
      split at mem
      · obtain rfl := List.mem_singleton.1 mem
        exact absurd message (by decide)
      · rename_i found
        split at mem
        · cases mem
        · rename_i without
          exact ⟨by rw [occurs, found]; rfl, by simpa using without⟩
    · exact absurd (message.symm.trans (message_checkImages mem)) (by decide)
    · exact absurd (message.symm.trans (message_checkVoidSlash mem)) (by decide)
  · rintro ⟨there, without⟩
    obtain ⟨tag, found⟩ := Option.isSome_iff_exists.1 there
    have root : ∃ check ∈ checkRoot t, check.finding.message = languageMessage := by
      rw [checkRoot, found]
      simp only [without]
      exact ⟨_, List.mem_singleton_self _, rfl⟩
    obtain ⟨check, mem, message⟩ := root
    refine ⟨check, List.mem_flatMap.2 ⟨checkStructure, by simp, ?_⟩, message⟩
    simp only [checkStructure, List.mem_append]
    exact .inl (.inl (.inl mem))

/-- A slash is reported exactly if a void element has one. -/
theorem reported_slash_iff [Engine] (t : Text) : Reported slashMessage t ↔ slashedVoid.occurs t = true := by
  rw [reported_iff_exists_check, ← findAll_ne_nil_iff]
  constructor
  · rintro ⟨check, mem, message⟩
    rcases mem_of_message_mem mem (by rw [message]; decide) with mem | mem | mem
    · rcases message_checkRoot mem with other | other
      · exact absurd (message.symm.trans other) (by decide)
      · exact absurd (message.symm.trans other) (by decide)
    · exact absurd (message.symm.trans (message_checkImages mem)) (by decide)
    · obtain ⟨tag, among, -⟩ := List.mem_map.1 mem
      exact List.ne_nil_of_mem among
  · intro some
    obtain ⟨tag, among⟩ := List.exists_mem_of_ne_nil _ some
    exact ⟨_, List.mem_flatMap.2 ⟨checkVoidSlash, by simp, List.mem_map.2 ⟨tag, among, rfl⟩⟩, rfl⟩

end SourceAudit

/-
Module: SourceAudit.Proofs.Markup.LineEnds
Layer: Proofs
Purpose: A blank that is dropped at the end of a line of a document. The blank behind the name of a tag
  may be the one, but then another blank follows, and no other part of what the checks look for can start
  or end beside it. So all groups of checks have the same findings without it, but for the labels, whose
  identifiers may be spread over lines.
Main exports: overlooks_openTag, sameTags_of_dropsBlank, kinds_checkParagraphs_of_dropsBlank,
  kinds_checkBalance_of_dropsBlank, kinds_eq_of_dropsBlank
-/
import SourceAudit.Proofs.Markup.Kinds
import SourceAudit.Proofs.Pattern.LineEnd
import SourceAudit.Proofs.Text.BlankCase

namespace SourceAudit

open Markup Pattern Html

/-! ### The patterns of the checks -/

/-- An opening tag may lose the blank behind its name where another one follows. -/
theorem overlooks_openTag (tag : String) (free : lineEndSight.Avoids sameFold ("<" ++ tag).toList) :
    (openTag tag).OverlooksLineEnds := by
  intro u v b blank next
  let like := Likeness.lineEnd u v blank next
  have bracket : Grade.shut.Holds like ((text ">").reach fun d => some (.done d))
      ((text ">").reach fun d => some (.done d)) :=
    holds_of_grade _ (by decide) rfl like.done_holds
  have inside := (bracket.closed.one_most isBlank (noneOf ">") (by decide) (by decide)).begun 1
  have attributed : Grade.outer.Holds like (attributes.reach ((text ">").reach fun d => some (.done d)))
      (attributes.reach ((text ">").reach fun d => some (.done d))) := by
    rw [attributes, perhaps, reach_alt]
    exact inside.meet bracket
  have graded : (anyCase ("<" ++ tag)).grade lineEndSight .outer = some .shut := by
    rw [anyCase, String.toList_append]
    rfl
  have moves : (openTag tag).isSkippable = false := Bool.and_false _
  exact ⟨moves, holds_of_grade (anyCase ("<" ++ tag)) free graded attributed⟩

theorem overlooks_htmlLang : htmlLang.OverlooksLineEnds := by
  intro u v b blank next
  let like := Likeness.lineEnd u v blank next
  have language : Grade.shut.Holds like ((anyCase "lang=").reach fun d => some (.done d))
      ((anyCase "lang=").reach fun d => some (.done d)) :=
    holds_of_grade _ (by decide) rfl like.done_holds
  have named := language.one_most isBlank (noneOf ">") (by decide) (by decide)
  exact ⟨rfl, holds_of_grade (anyCase "<html") (by decide) rfl named⟩

theorem overlooks_of_mem_soughtPatterns {p : Pattern} (mem : p ∈ soughtPatterns) :
    p.OverlooksLineEnds := by
  have plain : ∀ p ∈ [titleElement, charsetMeta, viewportMeta, heading], p.Unmoved lineEndSight := by
    decide +kernel
  have deprecated : ∀ tag ∈ deprecatedTags, (anyCase ("<" ++ tag) ++ wordEdge).Unmoved lineEndSight := by
    decide +kernel
  have unmoved {p : Pattern} (mem : p ∈ [titleElement, charsetMeta, viewportMeta, heading]) :=
    (plain p mem).overlooksLineEnds
  simp only [soughtPatterns, List.mem_append, List.mem_cons, List.not_mem_nil, or_false,
    List.mem_map] at mem
  rcases mem with (rfl | rfl | rfl | rfl | rfl | rfl | rfl | rfl) | ⟨tag, named, rfl⟩
  · exact overlooks_openTag _ (by decide)
  · exact overlooks_htmlLang
  · exact overlooks_openTag _ (by decide)
  · exact unmoved (by simp)
  · exact overlooks_openTag _ (by decide)
  · exact unmoved (by simp)
  · exact unmoved (by simp)
  · exact unmoved (by simp)
  · exact (deprecated tag named).overlooksLineEnds

theorem overlooks_of_mem_tagPatterns {p : Pattern} (mem : p ∈ tagPatterns) : p.OverlooksLineEnds := by
  have plain : ∀ p ∈ [tagNamed "img", tagNamed "h1", slashedVoid], p.Unmoved lineEndSight := by
    decide +kernel
  simp only [tagPatterns, List.mem_cons, List.not_mem_nil, or_false] at mem
  rcases mem with rfl | rfl | rfl | rfl
  · exact (plain _ (by simp)).overlooksLineEnds
  · exact (plain _ (by simp)).overlooksLineEnds
  · exact overlooks_openTag _ (by decide)
  · exact (plain _ (by simp)).overlooksLineEnds

theorem overlooks_of_mem_testPatterns {p : Pattern} (mem : p ∈ testPatterns) : p.OverlooksLineEnds := by
  have plain : ∀ p ∈ testPatterns, p.Unmoved lineEndSight := by decide +kernel
  exact (plain p mem).overlooksLineEnds

/-- The opening and the closing tags of a name without blanks. -/
theorem overlooks_of_tag {tag : Text} (solid : ∀ c ∈ tag, isBlank c = false) :
    (text "<" ++ charsAnyCase tag ++ wordEdge ++ many (noneOf ">") ++ text ">").OverlooksLineEnds ∧
      (text "</" ++ charsAnyCase tag ++ blanks ++ text ">").OverlooksLineEnds := by
  have free : lineEndSight.Avoids sameFold tag := by
    intro x inside y blank
    have all : ∀ y ∈ blankChars, isBlank y = true := List.forall_iff_forall_mem.1 (by decide)
    by_contra like
    rw [Bool.not_eq_false] at like
    have hard := (isBlank_eq_of_sameFold like).trans (all y blank)
    rw [solid x inside] at hard
    cases hard
  constructor
  · refine Unmoved.overlooksLineEnds ⟨rfl, ⟨⟨⟨⟨by decide, free⟩, trivial⟩, trivial⟩, by decide⟩, ?_⟩
    cases tag <;> rfl
  · refine Unmoved.overlooksLineEnds ⟨rfl, ⟨⟨⟨by decide, free⟩, trivial⟩, by decide⟩, ?_⟩
    cases tag <;> rfl

/-! ### The checks -/

section

variable {t t' : Text} (h : DropsBlank t t')
include h

/-- A document type starts as before. -/
theorem startsWithDoctype_of_dropsBlank : startsWithDoctype t' = startsWithDoctype t := by
  obtain ⟨u, v, blank, next⟩ := h
  have next := isBlank_of_next next
  rw [startsWithDoctype, startsWithDoctype, Text.trimStart, Text.trimStart, List.dropWhile_append,
    List.dropWhile_append]
  split
  · rw [List.dropWhile_cons_of_pos blank]
  · have solid : ∀ c ∈ "<!doctype".toList, isBlank c = false := List.forall_iff_forall_mem.1 (by decide)
    rw [startsWith_lower_append _ next solid, startsWith_lower_append _ _ solid]
    rintro x ⟨⟩
    exact blank

/-- The document has the same tags without the blank. -/
theorem sameTags_of_dropsBlank : SameTags t t' where
  sought p mem := (h.occurs_eq (overlooks_of_mem_soughtPatterns mem)).symm
  listed p mem := by
    refine (h.findAll_edited (overlooks_of_mem_tagPatterns mem)).imp fun hit hit' edited q among => ?_
    rcases edited.chars with same | dropped
    · rw [same]
    · exact (dropped.occurs_eq (overlooks_of_mem_testPatterns among)).symm

theorem count_eq_of_dropsBlank {p : Pattern} (overlooks : p.OverlooksLineEnds) : p.count t' = p.count t :=
  (h.findAll_edited overlooks).length_eq.symm

omit h in
/-- A bracket does not stand right behind the dropped blank, so its place is before it or further on. -/
theorem offset_of_atBracket {u v : Text} {b : Char} (blank : isBlank b = true)
    (next : ∀ x ∈ v.head?, isBlank x = true) {c c' : Cursor} (partners : LineEndPartners u v b c c')
    (bracket : AtBracket c) : (c'.offset = c.offset ∧ c.offset < u.length) ∨
      (c.offset = c'.offset + 1 ∧ u.length < c'.offset) := by
  have hard {x : Char} (blank : isBlank x = true) : x ≠ '<' := by
    rintro rfl
    cases blank
  obtain ⟨rest, ahead⟩ := bracket
  rcases partners with (@⟨p, q, rfl⟩ | @⟨p, q, x, rfl⟩) | ⟨rfl, rfl⟩
  · left
    cases q with
    | nil => exact absurd (List.cons.inj ahead).1 (hard blank)
    | cons x q => simp [Cursor.between]
  · right
    simp only [Cursor.between, List.length_append, List.length_cons]
    omega
  · obtain rfl : v = '<' :: rest := ahead
    exact absurd rfl (hard (next _ rfl))

/-- Blocks stand in the same paragraphs. -/
theorem kinds_checkParagraphs_of_dropsBlank :
    kindsOfChecks (checkParagraphs t') = kindsOfChecks (checkParagraphs t) := by
  obtain ⟨u, v, blank, next⟩ := h
  have next := isBlank_of_next next
  let like := Likeness.lineEnd u v blank next
  have tags := (overlooks_openTag "p" (by decide) u v blank next).findAll_alike
    Likeness.start_lineEnd
  have evenly {p : Pattern} (free : p.Avoids lineEndSight) (graded : p.grade lineEndSight .open = some .even) :
      Grade.even.Holds like (p.reach fun d => some (.done d)) (p.reach fun d => some (.done d)) :=
    p.holds_of_grade free graded like.done_holds
  rw [kinds_checkParagraphs, kinds_checkParagraphs, List.flatMap, List.flatMap]
  refine congrArg List.flatten (map_eq_of_forall₂ (tags.imp ?_)).symm
  intro hit hit' alike
  have stop : LineEndPartners u v _ hit.whole.stop hit'.whole.stop := alike.whole.2
  have place := (stop.elim like.isIn_matched like.isIn_amid).1
  rw [isSome_blockInParagraph?_congr (R := like.kept) place ?_
    (Likeness.hitAt_alike rfl (evenly (by decide +kernel) (by decide +kernel)) stop)
    (Likeness.hitAt_alike rfl (evenly (by decide +kernel) (by decide +kernel)) stop)]
  intro d d' e e' partners partners' bracket bracket'
  have first := offset_of_atBracket blank next partners bracket
  have second := offset_of_atBracket blank next partners' bracket'
  omega

/-- Tags are as balanced as before. -/
theorem kinds_checkBalance_of_dropsBlank [Engine] :
    kindsOfChecks (isolate (checkBalance t')) = kindsOfChecks (isolate (checkBalance t)) := by
  have overlooks : anyOpenTag.OverlooksLineEnds := Unmoved.overlooksLineEnds (by decide +kernel)
  have letters : ∀ hit ∈ anyOpenTag.findAll t, ∀ c ∈ hit.groupChars 1, isWordChar c = true :=
    fun hit mem => isWordChar_of_mem_groupChars rfl mem
  -- lower case makes no blanks of word characters
  have solid {name : Text} (word : ∀ c ∈ name, isWordChar c = true) : ∀ c ∈ name.lower, isBlank c = false := by
    intro c mem
    by_contra blank
    rw [Bool.not_eq_false] at blank
    have inside := isBlank_of_isWordChar (word c (mem_of_blank_mem_lower blank mem))
    rw [blank] at inside
    cases inside
  have tags := forall₂_closableTags (Q := fun tag => ∀ c ∈ tag, isBlank c = false)
    (((List.forall₂_and_left _ _).2 ⟨letters, h.findAll_edited overlooks⟩).imp
      fun hit hit' ⟨word, edited⟩ => ⟨(edited.groupChars_eq word).symm, solid word⟩) []
  refine kinds_checkBalance_congr (tags.imp ?_)
  rintro ⟨tag, hit⟩ ⟨_, hit'⟩ ⟨rfl, solid⟩
  obtain ⟨opens, closes⟩ := overlooks_of_tag solid
  exact ⟨rfl, by simp only [isUnbalanced, count_eq_of_dropsBlank h opens, count_eq_of_dropsBlank h closes]⟩

/-- The checks have findings of the same kinds on the document without the blank. -/
theorem kinds_eq_of_dropsBlank [Engine] {check : Text → List Check} (mem : check ∈ checkGroups)
    (other : check ≠ isolate ∘ checkLabels) : kindsOfChecks (check t') = kindsOfChecks (check t) := by
  have tags := sameTags_of_dropsBlank h
  have styles : styleAttribute.OverlooksLineEnds := Unmoved.overlooksLineEnds (by decide +kernel)
  simp only [checkGroups, List.mem_cons, List.not_mem_nil, or_false] at mem
  rcases mem with rfl | rfl | rfl | rfl | rfl | rfl | rfl | rfl | rfl | rfl | rfl | rfl
  · rw [checkDoctype, checkDoctype, startsWithDoctype_of_dropsBlank h]
  · exact tags.kinds_eq (by simp)
  · exact tags.kinds_eq (by simp)
  · exact tags.kinds_eq (by simp)
  · exact tags.kinds_eq (by simp)
  · exact kinds_checkParagraphs_of_dropsBlank h
  · rw [checkInlineStyles, checkInlineStyles, count_eq_of_dropsBlank h styles]
  · exact tags.kinds_eq (by simp)
  · exact kinds_checkBalance_of_dropsBlank h
  · exact absurd rfl other
  · exact tags.kinds_eq (by simp)
  · exact tags.kinds_eq (by simp)

end

end SourceAudit

/-
Module: SourceAudit.Proofs.Improve.Doctype
Layer: Proofs
Purpose: A document type in front of a document. None of the checks of markup reads it but the one
  that asks for it, so all other checks have the same findings on the document behind it.
Main exports: doctypeLine, html_eased_doctypeLine, eases_addDoctype
-/
import SourceAudit.Fix.Markup
import SourceAudit.Proofs.Markup.Kinds
import SourceAudit.Proofs.Pattern.Front
import SourceAudit.Proofs.Text.LowerCase

namespace SourceAudit

open Markup Pattern Html

/-- The line that declares the document type. -/
def doctypeLine : Text := "<!DOCTYPE html>\n".toList

theorem apart_doctypeLine : ∀ x ∈ doctypeLine.getLast?, isWordChar x = false := by
  rintro x ⟨⟩
  decide

/-- Whether the pattern is stuck at every place of the line. -/
def isStuckInDoctype (p : Pattern) : Bool :=
  doctypeLine.tails.all fun s => s.isEmpty || p.isStuckAt s

section

variable {p : Pattern} (moves : p.isSkippable = false) (edges : p.isWordEdged = true)
  (quiet : p.Quiet doctypeLine) (t : Text)
include moves edges quiet

theorem findAll_doctypeLine : List.Forall₂
    (Hit.Alike (Likeness.front doctypeLine t apart_doctypeLine).kept) (p.findAll t)
    (p.findAll (doctypeLine ++ t)) :=
  findAll_front moves edges quiet t apart_doctypeLine

theorem count_doctypeLine : p.count (doctypeLine ++ t) = p.count t :=
  (findAll_doctypeLine moves edges quiet t).length_eq.symm

end

/-- A pattern that is stuck in the line occurs behind it exactly if it occurs in the text. -/
theorem occurs_doctypeLine {p : Pattern} (moves : p.isSkippable = false)
    (edges : p.isWordEdged = true) (stuck : isStuckInDoctype p = true) (t : Text) :
    p.occurs (doctypeLine ++ t) = p.occurs t :=
  occurs_front moves edges (quiet_of_isStuckAt stuck) t apart_doctypeLine

theorem kinds_checkParagraphs_doctypeLine (t : Text) :
    kindsOfChecks (checkParagraphs (doctypeLine ++ t)) = kindsOfChecks (checkParagraphs t) := by
  have quiet : (openTag "p").Quiet doctypeLine := quiet_of_isStuckAt (by decide)
  rw [kinds_checkParagraphs, kinds_checkParagraphs, List.flatMap, List.flatMap]
  refine congrArg List.flatten (map_eq_of_forall₂ ((findAll_doctypeLine rfl rfl quiet t).imp ?_)).symm
  intro hit hit' alike
  obtain ⟨place, stop⟩ := alike.whole.2
  let like := Likeness.front doctypeLine t apart_doctypeLine
  have here : like.matched hit.whole.stop (hit.whole.stop.after doctypeLine) := ⟨place, rfl⟩
  rw [stop, isSome_blockInParagraph?_congr (R := like.kept) place ?_
    ((like.shuts (unmoved_frontSight rfl rfl)).hitAt_alike (.inl here))
    ((like.shuts (unmoved_frontSight rfl rfl)).hitAt_alike (.inl here))]
  rintro d _ e _ ⟨-, rfl⟩ ⟨-, rfl⟩ - -
  exact Nat.add_lt_add_iff_left

/-- Whether a tag is balanced does not depend on the line in front, unless its name starts with an
    exclamation mark. -/
theorem isUnbalanced_doctypeLine (t : Text) {x : Char} {xs : Text} (other : sameFold x '!' = false) :
    isUnbalanced (doctypeLine ++ t) (x :: xs) = isUnbalanced t (x :: xs) := by
  have opens : (text "<" ++ charsAnyCase (x :: xs)).Quiet doctypeLine := by
    have bracket : doctypeLine.tails.all (fun s => s.isEmpty || (text "<").isStuckAt s ||
        s == doctypeLine) = true := by decide
    rintro t c d place inside ⟨m, first, second⟩
    obtain ⟨rest, some, whole, ahead⟩ := place.ahead_eq inside
    have here := List.all_eq_true.1 bracket rest ((List.mem_tails _ _).2 ⟨_, whole⟩)
    simp only [Bool.or_eq_true, List.isEmpty_iff, some, false_or, beq_iff_eq] at here
    rcases here with stuck | rfl
    · exact not_passes_of_isStuckAt stuck ahead first
    · -- behind the bracket stands the exclamation mark
      have behind : m.ahead = '!' :: "DOCTYPE html>\n".toList ++ t := ahead_of_rest? rfl ahead first
      have stuck : (charsAnyCase (x :: xs)).isStuckAt ('!' :: "DOCTYPE html>\n".toList) = true := by
        rw [charsAnyCase, isStuckAt, clashes, other, Bool.not_false, Bool.true_or]
      exact not_passes_of_isStuckAt stuck behind second
  have closes : (text "</").Quiet doctypeLine := quiet_of_isStuckAt (by decide)
  rw [isUnbalanced, isUnbalanced, count_doctypeLine rfl rfl (((opens.seq _).seq _).seq _) t,
    count_doctypeLine rfl rfl (((closes.seq _).seq _).seq _) t]

theorem kinds_checkBalance_doctypeLine [Engine] (t : Text) :
    kindsOfChecks (isolate (checkBalance (doctypeLine ++ t))) =
      kindsOfChecks (isolate (checkBalance t)) := by
  have quiet : anyOpenTag.Quiet doctypeLine := quiet_of_isStuckAt (by decide)
  have hits := findAll_doctypeLine rfl rfl quiet t
  have named : ∀ hit ∈ anyOpenTag.findAll t,
      ∃ x xs, (hit.groupChars 1).lower = x :: xs ∧ sameFold x '!' = false := by
    intro hit mem
    obtain ⟨_, _, _, ⟨n, _, _, ⟨m, _, _, ⟨-, rfl⟩, ⟨_, ⟨letters, rfl⟩, rfl⟩, rfl⟩, ⟨-, rfl⟩, rfl⟩,
      ⟨-, rfl⟩, kept⟩ := (anyOpenTag.keeps_of_mem_findAll mem).1
    obtain ⟨cs, long, all, moves⟩ := Cursor.mem_choices_iff.1 letters
    have group : hit.group? 1 = some ⟨m, n⟩ := by
      rw [Hit.group?, kept]
      rfl
    have chars : hit.groupChars 1 = cs := by
      rw [Hit.groupChars, group]
      exact moves.chars
    rw [chars]
    cases cs with
    | nil => cases long
    | cons w ws => exact exists_lower_eq ws (all w List.mem_cons_self)
  have tags := forall₂_closableTags (Q := fun tag => ∃ x xs, tag = x :: xs ∧ sameFold x '!' = false)
    (((List.forall₂_and_left _ _).2 ⟨named, hits⟩).imp
      fun hit hit' both => ⟨Hit.groupChars_front both.2 1, both.1⟩) []
  refine kinds_checkBalance_congr (tags.imp ?_)
  rintro ⟨tag, hit⟩ ⟨tag', hit'⟩ ⟨rfl, x, xs, rfl, other⟩
  exact ⟨rfl, isUnbalanced_doctypeLine t other⟩

theorem kinds_checkLabels_doctypeLine [Engine] (t : Text) :
    kindsOfChecks (isolate (checkLabels (doctypeLine ++ t))) =
      kindsOfChecks (isolate (checkLabels t)) := by
  have quiet : (tagNamed "input").Quiet doctypeLine := quiet_of_isStuckAt (by decide)
  have labels (id : Text) : (labelFor id).occurs (doctypeLine ++ t) = (labelFor id).occurs t := by
    have start : (anyCase "<label").Quiet doctypeLine := quiet_of_isStuckAt (by decide)
    exact occurs_front rfl rfl (((((start.seq _).seq _).seq _).seq _).seq _) t apart_doctypeLine
  have inputs := forall₂_labelledInputs
    ((findAll_doctypeLine rfl rfl quiet t).imp fun _ _ => Hit.chars_front)
  exact kinds_checkLabels_congr inputs labels

/-- The line in front is what the check of the document type asks for. -/
theorem checkDoctype_doctypeLine (t : Text) : checkDoctype (doctypeLine ++ t) = [] := by
  have trimmed : (doctypeLine ++ t).trimStart = doctypeLine ++ t := rfl
  have start : Text.lower (doctypeLine ++ t) = lowercaseFrom "<!DOCTYPE".toList.reverse
    "<!doctype".toList.reverse (" html>\n".toList ++ t) := rfl
  obtain ⟨more, lowered⟩ := exists_lowercaseFrom_eq "<!DOCTYPE".toList.reverse
    "<!doctype".toList.reverse (" html>\n".toList ++ t)
  have declared : startsWithDoctype (doctypeLine ++ t) = true := by
    rw [startsWithDoctype, trimmed, start, lowered, List.reverse_reverse, Text.startsWith,
      List.isPrefixOf_iff_prefix]
    exact List.prefix_append _ _
  rw [checkDoctype, if_pos declared]

/-- The document behind the line has the same tags. -/
theorem sameTags_doctypeLine (t : Text) : SameTags t (doctypeLine ++ t) where
  sought p mem := by
    have all : ∀ p ∈ soughtPatterns, p.isSkippable = false ∧ p.isWordEdged = true ∧
        isStuckInDoctype p = true := by decide
    obtain ⟨moves, edges, stuck⟩ := all p mem
    exact occurs_doctypeLine moves edges stuck t
  listed p mem := by
    have all : ∀ p ∈ tagPatterns, p.isSkippable = false ∧ p.isWordEdged = true ∧
        isStuckInDoctype p = true := by decide
    obtain ⟨moves, edges, stuck⟩ := all p mem
    refine (findAll_doctypeLine moves edges (quiet_of_isStuckAt stuck) t).imp ?_
    exact fun _ _ alike q _ => by rw [Hit.chars_front alike]

/-- A document type in front adds no finding to a document. -/
theorem html_eased_doctypeLine [Engine] (t : Text) : Html.Eased t (doctypeLine ++ t) := by
  have same {check : Text → List Check}
      (h : kindsOfChecks (check (doctypeLine ++ t)) = kindsOfChecks (check t)) :
      (kindsOfChecks (check (doctypeLine ++ t))).Sublist (kindsOfChecks (check t)) := by
    rw [h]
  have tags := sameTags_doctypeLine t
  intro check mem
  simp only [checkGroups, List.mem_cons, List.not_mem_nil, or_false] at mem
  rcases mem with rfl | rfl | rfl | rfl | rfl | rfl | rfl | rfl | rfl | rfl | rfl | rfl
  · rw [checkDoctype_doctypeLine]
    exact List.nil_sublist _
  · exact same (tags.kinds_eq (by simp))
  · exact same (tags.kinds_eq (by simp))
  · exact same (tags.kinds_eq (by simp))
  · exact same (tags.kinds_eq (by simp))
  · exact same (kinds_checkParagraphs_doctypeLine t)
  · apply same
    have quiet : styleAttribute.Quiet doctypeLine := quiet_of_isStuckAt (by decide)
    rw [checkInlineStyles, checkInlineStyles, count_doctypeLine rfl rfl quiet t]
  · exact same (tags.kinds_eq (by simp))
  · exact same (kinds_checkBalance_doctypeLine t)
  · exact same (kinds_checkLabels_doctypeLine t)
  · exact same (tags.kinds_eq (by simp))
  · exact same (tags.kinds_eq (by simp))

theorem universal_eased_doctypeLine (t : Text) : Universal.Eased t (doctypeLine ++ t) := by
  have absent {needle : Text} (feed : '\n' ∉ needle) (front : ¬ needle <:+: doctypeLine) :
      (doctypeLine ++ t).includes needle = t.includes needle := by
    refine Text.includes_congr ?_
    rw [Text.infix_append_of_getLast? rfl feed, or_iff_right front]
  constructor
  case logging =>
    intro h
    rwa [absent (by decide) (by decide)] at h
  case declarations =>
    intro h
    rwa [occurs_doctypeLine rfl rfl (by decide)] at h
  case tasks =>
    intro h
    rwa [absent (by decide) (by decide), absent (by decide) (by decide)] at h

/-- A document type never makes the report of a document worse. -/
theorem eases_addDoctype [Engine] {fileName : String} (family : Family.ofName fileName = .html) (t : Text) :
    Eases fileName t (Fix.addDoctype t) := by
  rw [Fix.addDoctype]
  split
  · exact Eases.refl fileName t
  · refine Eases.of_eased (universal_eased_doctypeLine t) ?_
    rw [family]
    exact html_eased_doctypeLine t

end SourceAudit

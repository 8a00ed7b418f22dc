/-
Module: SourceAudit.Proofs.Pattern.Ink
Layer: Proofs
Purpose: What a pattern finds in a text whose lines are trimmed. A pattern that does not notice a dropped
  blank has its matches between the same characters that are no blanks, however many blanks are dropped.
  So a match that starts and ends with such characters is the trimmed match of the text.
Main exports: Hit.inkPlace, Pattern.OverlooksLineEnds.map_inkPlace_trimmed,
  Pattern.OverlooksLineEnds.occurs_trimmed, Pattern.OverlooksLineEnds.forall₂_chars_trimmed
-/
import SourceAudit.Proofs.Pattern.LineEnd
import SourceAudit.Proofs.Pattern.Spelling
import SourceAudit.Proofs.Text.LineTrim

namespace SourceAudit

open SourceAudit.Fix (trimTrailingBlanks)

/-- The characters that are no blanks in front of the start and of the end of a match. -/
def Hit.inkPlace (hit : Hit) : Text × Text :=
  (ink hit.whole.start.behind.reverse, ink hit.whole.stop.behind.reverse)

theorem ink_behind_of_lineEndPartners {u v : Text} {b : Char} (blank : isBlank b = true) {c c' : Cursor}
    (partners : LineEndPartners u v b c c') : ink c.behind.reverse = ink c'.behind.reverse := by
  have dropped (r : Text) : ink (b :: r) = ink r := ink_cons_of_blank blank r
  rcases partners with (@⟨p, q, -⟩ | @⟨p, q, x, -⟩) | ⟨rfl, rfl⟩
  · rfl
  · simp only [Cursor.between, List.reverse_reverse, ink_append, dropped]
  · simp only [Cursor.between, List.reverse_reverse, ink_append, dropped]
    exact List.append_nil _

namespace Pattern

variable {p : Pattern} {t : Text}

/-- A match in a text, told by its place among the characters that are no blanks. -/
theorem exists_inkPlace {hit : Hit} (mem : hit ∈ p.findAll t) : ∃ before after,
    t = before ++ (hit.chars ++ after) ∧ p.Spells before hit.chars after (keptTexts hit.groups) ∧
      hit.inkPlace = (ink before, ink before ++ ink hit.chars) := by
  obtain ⟨way, place⟩ := p.keeps_of_mem_findAll mem
  obtain ⟨before, cs, after, whole, start, stop, spelled⟩ := exists_spells_of_keeps place way
  have chars : hit.chars = cs := by
    have moves := Cursor.moves_between before cs after
    rw [← start, ← stop] at moves
    exact moves.chars
  refine ⟨before, after, by rw [chars, whole], by rwa [chars], ?_⟩
  simp only [Hit.inkPlace, start, stop, Cursor.between, List.reverse_reverse, ink_append, chars]

namespace OverlooksLineEnds

variable (overlooks : p.OverlooksLineEnds)
include overlooks

theorem map_inkPlace_trimmed (t : Text) :
    (p.findAll t).map Hit.inkPlace = (p.findAll (trimTrailingBlanks t)).map Hit.inkPlace := by
  refine trimTrailingBlanks_induction
    (motive := fun t' => (p.findAll t).map Hit.inkPlace = (p.findAll t').map Hit.inkPlace) rfl ?_
  rintro _ _ ⟨u, v, blank, next⟩ same
  have hits := (overlooks u v blank (isBlank_of_next next)).findAll_alike Likeness.start_lineEnd
  rw [same, ← List.forall₂_eq_eq_eq, List.forall₂_map_left_iff, List.forall₂_map_right_iff]
  refine hits.imp fun hit hit' alike => ?_
  obtain ⟨start, stop⟩ := alike.whole
  exact Prod.ext (ink_behind_of_lineEndPartners blank start) (ink_behind_of_lineEndPartners blank stop)

theorem occurs_trimmed (t : Text) : p.occurs (trimTrailingBlanks t) = p.occurs t :=
  trimTrailingBlanks_induction (motive := fun t' => p.occurs t' = p.occurs t) rfl fun step same =>
    (step.occurs_eq overlooks).symm.trans same

/-- The matches in a trimmed text are the trimmed matches of the text. -/
theorem forall₂_chars_trimmed
    (solid : ∀ {before cs after kept}, p.Spells before cs after kept → IsSolidEnded cs) (t : Text) :
    List.Forall₂ (fun hit hit' => hit'.chars = trimTrailingBlanks hit.chars) (p.findAll t)
      (p.findAll (trimTrailingBlanks t)) := by
  have places := overlooks.map_inkPlace_trimmed t
  rw [← List.forall₂_eq_eq_eq, List.forall₂_map_left_iff, List.forall₂_map_right_iff] at places
  refine (forall₂_mem places).imp ?_
  rintro hit hit' ⟨mem, mem', same⟩
  obtain ⟨before, after, whole, spelled, place⟩ := exists_inkPlace mem
  obtain ⟨before', after', whole', spelled', place'⟩ := exists_inkPlace mem'
  rw [place, place', Prod.mk.injEq] at same
  obtain ⟨start, stop⟩ := same
  rw [start] at stop
  rw [whole] at whole'
  exact eq_trimTrailingBlanks_of_ink (solid spelled) (solid spelled') whole' start
    (List.append_cancel_left stop)

end OverlooksLineEnds

end Pattern

end SourceAudit

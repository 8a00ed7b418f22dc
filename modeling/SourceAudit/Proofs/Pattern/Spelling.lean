/-
Module: SourceAudit.Proofs.Pattern.Spelling
Layer: Proofs
Purpose: What a pattern matches, told by texts instead of places: the characters it covers between those
  before and those behind, and the characters it keeps under each number. For a given pattern this
  unfolds to an equation between the text and its parts.
Main exports: keptTexts, Pattern.Spells, Pattern.Keeps.spells, Pattern.Spells.passes,
  Pattern.Keeps.exists_moves, Pattern.exists_spells_of_mem_findAll, Pattern.exists_spells_of_find,
  Pattern.occurs_iff_spells, Pattern.wordStart_holds_iff, Pattern.wordEnd_holds_iff
-/
import SourceAudit.Proofs.Pattern.Stretch

namespace SourceAudit

/-- Blanks that are not nothing. -/
def IsGap (g : Text) : Prop := g ≠ [] ∧ ∀ c ∈ g, isBlank c = true

/-- The characters of the stretches that are kept, each under its number. -/
def keptTexts (kept : Groups) : List (Nat × Text) := kept.map fun s => (s.1, s.2.chars)

theorem Hit.map_chars_group? (hit : Hit) (index : Nat) :
    (hit.group? index).map Span.chars = (keptTexts hit.groups).lookup index := by
  rw [Hit.group?, keptTexts]
  induction hit.groups with
  | nil => rfl
  | cons s kept ih =>
    obtain ⟨i, s⟩ := s
    rw [List.map_cons, List.lookup_cons, List.lookup_cons]
    cases index == i with
    | true => rfl
    | false => exact ih

theorem Hit.groupChars_eq (hit : Hit) (index : Nat) :
    hit.groupChars index = ((keptTexts hit.groups).lookup index).getD [] := by
  rw [← hit.map_chars_group?, Hit.groupChars]
  cases hit.group? index <;> rfl

namespace Cursor

theorem moves_between_iff {before cs xs after : Text} :
    (between before (cs ++ after)).Moves xs (between (before ++ cs) after) ↔ xs = cs := by
  constructor
  · rintro ⟨ahead, -, -⟩
    exact (List.append_cancel_right ahead).symm
  · rintro rfl
    exact moves_between before xs after

theorem between_inj {p q p' q' : Text} (same : between p q = between p' q') : p = p' ∧ q = q' := by
  simp only [between, mk.injEq, List.reverse_inj] at same
  exact ⟨same.1, same.2.1⟩

/-- Two places of a text, of which the second does not lie before the first. -/
theorem IsIn.exists_between_between {t : Text} {c d : Cursor} (hc : c.IsIn t) (hd : d.IsIn t)
    (below : c.offset ≤ d.offset) : ∃ before cs after, t = before ++ (cs ++ after) ∧
      c = between before (cs ++ after) ∧ d = between (before ++ cs) after := by
  obtain ⟨p, q, rfl, rfl⟩ := hc.exists_between
  obtain ⟨p', q', whole, rfl⟩ := hd.exists_between
  obtain ⟨cs, rfl, rfl⟩ | ⟨cs, rfl, rfl⟩ := List.append_eq_append_iff.1 whole
  · have none : cs = [] := by
      simp only [between, List.length_append] at below
      exact List.eq_nil_of_length_eq_zero (by omega)
    subst none
    exact ⟨p', [], q, by simp, by simp, by simp⟩
  · exact ⟨p, cs, q', by simp, rfl, rfl⟩

end Cursor

namespace Pattern

open Cursor

/-- The pattern covers these characters between the ones before and the ones behind, and keeps these
    texts. -/
def Spells : Pattern → (before cs after : Text) → (kept : List (Nat × Text)) → Prop
  | .literal same xs, _, cs, _, kept =>
    List.Forall₂ (fun x y => same x y = true) xs cs ∧ kept = []
  | .one set, _, cs, _, kept => (∃ x, set x = true ∧ cs = [x]) ∧ kept = []
  | .most set least, _, cs, _, kept => (least ≤ cs.length ∧ ∀ x ∈ cs, set x = true) ∧ kept = []
  | .fewest set least, _, cs, _, kept => (least ≤ cs.length ∧ ∀ x ∈ cs, set x = true) ∧ kept = []
  | .edge e, before, cs, after, kept =>
    (e.holds (between before after) = true ∧ cs = []) ∧ kept = []
  | .seq p q, before, cs, after, kept => ∃ xs ys first second, cs = xs ++ ys ∧
      kept = first ++ second ∧ p.Spells before xs (ys ++ after) first ∧
      q.Spells (before ++ xs) ys after second
  | .alt p q, before, cs, after, kept => p.Spells before cs after kept ∨ q.Spells before cs after kept
  | .group index p, before, cs, after, kept =>
    ∃ inner, p.Spells before cs after inner ∧ kept = (index, cs) :: inner

variable {p q : Pattern} {t before cs after : Text} {kept : List (Nat × Text)}

/-- A way through the pattern spells the characters that it passes. -/
theorem Keeps.spells {groups : Groups}
    (way : p.Keeps (between before (cs ++ after)) (between (before ++ cs) after) groups) :
    p.Spells before cs after (keptTexts groups) := by
  induction p generalizing before cs after groups with
  | literal same xs =>
    obtain ⟨passed, rfl⟩ := way
    obtain ⟨ys, like, moves⟩ := skip_eq_some_iff_forall₂.1 passed
    obtain rfl := moves_between_iff.1 moves
    exact ⟨like, rfl⟩
  | one set =>
    obtain ⟨passed, rfl⟩ := way
    obtain ⟨x, inside, moves⟩ := passes_one.1 passed
    exact ⟨⟨x, inside, (moves_between_iff.1 moves).symm⟩, rfl⟩
  | most set least | fewest set least =>
    obtain ⟨passed, rfl⟩ := way
    obtain ⟨ys, enough, all, moves⟩ := mem_choices_iff.1 passed
    obtain rfl := moves_between_iff.1 moves
    exact ⟨⟨enough, all⟩, rfl⟩
  | edge e =>
    obtain ⟨⟨holds, same⟩, rfl⟩ := way
    obtain rfl : [] = cs := moves_between_iff.1 (moves_nil.2 same)
    exact ⟨⟨holds, rfl⟩, rfl⟩
  | seq p q ihp ihq =>
    obtain ⟨m, first, second, way, way', rfl⟩ := way
    obtain ⟨place, below, -⟩ := way.passes.isIn (isIn_between _ _)
    obtain ⟨-, below', -⟩ := way'.passes.isIn place
    obtain ⟨before', xs, after', -, here, rfl⟩ :=
      (isIn_between before (cs ++ after)).exists_between_between place below
    obtain ⟨rfl, rest⟩ := between_inj here
    have within : xs.length ≤ cs.length := by
      simp only [between, List.length_append] at below'
      omega
    obtain ⟨ys, rfl⟩ := List.prefix_of_prefix_length_le (rest ▸ List.prefix_append xs after')
      (List.prefix_append cs after) within
    rw [List.append_assoc] at rest
    obtain rfl := List.append_cancel_left rest
    rw [← List.append_assoc] at way'
    rw [List.append_assoc] at way
    exact ⟨xs, ys, keptTexts first, keptTexts second, rfl, List.map_append, ihp way, ihq way'⟩
  | alt p q ihp ihq => exact way.imp ihp ihq
  | group index p ih =>
    obtain ⟨inner, way, rfl⟩ := way
    refine ⟨keptTexts inner, ih way, ?_⟩
    rw [keptTexts, List.map_cons, (moves_between before cs after).chars]
    rfl

/-- What the pattern spells is passed by a way through it. -/
theorem Spells.passes (spelled : p.Spells before cs after kept) :
    p.Passes (between before (cs ++ after)) (between (before ++ cs) after) := by
  induction p generalizing before cs after kept with
  | literal same xs => exact skip_eq_some_iff_forall₂.2 ⟨cs, spelled.1, moves_between _ _ _⟩
  | one set =>
    obtain ⟨x, inside, rfl⟩ := spelled.1
    exact passes_one.2 ⟨x, inside, moves_between _ _ _⟩
  | most set least | fewest set least =>
    exact mem_choices_iff.2 ⟨cs, spelled.1.1, spelled.1.2, moves_between _ _ _⟩
  | edge e =>
    obtain ⟨⟨holds, rfl⟩, -⟩ := spelled
    exact ⟨holds, by simp⟩
  | seq p q ihp ihq =>
    obtain ⟨xs, ys, first, second, rfl, -, left, right⟩ := spelled
    refine ⟨between (before ++ xs) (ys ++ after), ?_, ?_⟩
    · have passed := ihp left
      rwa [← List.append_assoc] at passed
    · have passed := ihq right
      rwa [List.append_assoc] at passed
  | alt p q ihp ihq => exact spelled.imp ihp ihq
  | group index p ih =>
    obtain ⟨inner, spelled, -⟩ := spelled
    exact ih spelled

theorem exists_spells_of_keeps {c d : Cursor} {groups : Groups} (place : c.IsIn t)
    (way : p.Keeps c d groups) : ∃ before cs after, t = before ++ (cs ++ after) ∧
      c = between before (cs ++ after) ∧ d = between (before ++ cs) after ∧
      p.Spells before cs after (keptTexts groups) := by
  obtain ⟨place', below, -⟩ := way.passes.isIn place
  obtain ⟨before, cs, after, whole, rfl, rfl⟩ := place.exists_between_between place' below
  exact ⟨before, cs, after, whole, rfl, rfl, way.spells⟩

/-- A stretch that is kept divides what the pattern passes in three. -/
theorem Keeps.exists_moves {c d : Cursor} {groups : Groups} (h : p.Keeps c d groups)
    (place : c.IsIn t) {index : Nat} {s : Span} (mem : (index, s) ∈ groups) :
    ∃ xs ys zs, c.Moves xs s.start ∧ s.start.Moves ys s.stop ∧ s.stop.Moves zs d := by
  have passed {p : Pattern} {c d : Cursor} {kept : Groups} (way : p.Keeps c d kept)
      (place : c.IsIn t) : ∃ cs, c.Moves cs d := by
    obtain ⟨before, cs, after, -, rfl, rfl, -⟩ := exists_spells_of_keeps place way
    exact ⟨cs, moves_between before cs after⟩
  induction p generalizing c d groups with
  | literal | one | most | fewest | edge =>
    obtain ⟨-, rfl⟩ := h
    cases mem
  | seq p q ihp ihq =>
    obtain ⟨m, first, second, way, way', rfl⟩ := h
    have place' := (way.passes.isIn place).1
    rcases List.mem_append.1 mem with mem | mem
    · obtain ⟨xs, ys, zs, start, inner, stop⟩ := ihp way place mem
      obtain ⟨cs, rest⟩ := passed way' place'
      exact ⟨xs, ys, zs ++ cs, start, inner, stop.trans rest⟩
    · obtain ⟨xs, ys, zs, start, inner, stop⟩ := ihq way' place' mem
      obtain ⟨cs, first⟩ := passed way place
      exact ⟨cs ++ xs, ys, zs, first.trans start, inner, stop⟩
  | alt p q ihp ihq =>
    rcases h with way | way
    · exact ihp way place mem
    · exact ihq way place mem
  | group i p ih =>
    obtain ⟨inner, way, rfl⟩ := h
    rcases List.mem_cons.1 mem with here | mem
    · obtain ⟨-, rfl⟩ := Prod.mk.inj here
      obtain ⟨cs, moves⟩ := passed way place
      exact ⟨[], cs, [], moves_nil.2 rfl, moves, moves_nil.2 rfl⟩
    · exact ih way place mem

theorem exists_spells_of_mem_findAll {hit : Hit} (mem : hit ∈ p.findAll t) :
    ∃ before cs after, t = before ++ (cs ++ after) ∧
      p.Spells before cs after (keptTexts hit.groups) := by
  obtain ⟨way, place⟩ := p.keeps_of_mem_findAll mem
  obtain ⟨before, cs, after, whole, -, -, spelled⟩ := exists_spells_of_keeps place way
  exact ⟨before, cs, after, whole, spelled⟩

theorem exists_spells_of_find {hit : Hit} (found : p.find t = some hit) :
    ∃ before cs after, t = before ++ (cs ++ after) ∧
      hit.whole = ⟨between before (cs ++ after), between (before ++ cs) after⟩ ∧
      p.Spells before cs after (keptTexts hit.groups) := by
  obtain ⟨place, -, way, -, -⟩ := p.findFrom_eq_some (isIn_start t) found
  obtain ⟨before, cs, after, whole, start, stop, spelled⟩ := exists_spells_of_keeps place way
  exact ⟨before, cs, after, whole, by rw [← start, ← stop], spelled⟩

theorem occurs_iff_spells (some : p.isSkippable = false) : p.occurs t = true ↔
    ∃ before cs after kept, t = before ++ (cs ++ after) ∧ p.Spells before cs after kept := by
  constructor
  · intro found
    obtain ⟨hit, found⟩ := Option.isSome_iff_exists.1 found
    obtain ⟨before, cs, after, whole, -, spelled⟩ := exists_spells_of_find found
    exact ⟨before, cs, after, _, whole, spelled⟩
  · rintro ⟨before, cs, after, kept, rfl, spelled⟩
    exact (occurs_iff some _).2 ⟨_, _, isIn_between _ _, spelled.passes⟩

theorem Spells.eq_nil (spelled : p.Spells before cs after kept) (free : p.isGroupFree = true) :
    kept = [] := by
  induction p generalizing before cs after kept with
  | literal | one | most | fewest | edge => exact spelled.2
  | seq p q ihp ihq =>
    obtain ⟨hp, hq⟩ := (Bool.and_eq_true _ _).mp free
    obtain ⟨_, _, first, second, -, rfl, left, right⟩ := spelled
    rw [ihp left hp, ihq right hq, List.append_nil]
  | alt p q ihp ihq =>
    obtain ⟨hp, hq⟩ := (Bool.and_eq_true _ _).mp free
    exact spelled.elim (ihp · hp) (ihq · hq)
  | group index p ih => cases free

/-- Before a word character, a word starts where no word character stands before. -/
theorem wordStart_holds_iff {x : Char} (first : after.head? = some x) (letter : isWordChar x = true) :
    Edge.word.holds (between before after) = true ↔ ∀ y ∈ before.getLast?, isWordChar y = false := by
  rw [Edge.holds, between, List.head?_reverse, first, Option.any_some, letter]
  cases before.getLast? <;> simp

/-- Behind word characters, a word ends where no word character follows. -/
theorem wordEnd_holds_iff {n : Text} (some : n ≠ []) (letters : ∀ y ∈ n, isWordChar y = true) :
    Edge.word.holds (between (before ++ n) after) = true ↔ ∀ y ∈ after.head?, isWordChar y = false := by
  obtain ⟨x, last⟩ := Option.ne_none_iff_exists'.1 (mt List.getLast?_eq_none_iff.1 some)
  have letter : isWordChar x = true := letters x (List.mem_of_getLast? last)
  rw [Edge.holds, between, List.head?_reverse, List.getLast?_append_of_ne_nil _ some, last,
    Option.any_some, letter]
  cases after.head? <;> simp

/-! ### The vocabulary -/

theorem spells_append : (p ++ q).Spells before cs after kept ↔ ∃ xs ys first second, cs = xs ++ ys ∧
    kept = first ++ second ∧ p.Spells before xs (ys ++ after) first ∧
    q.Spells (before ++ xs) ys after second := Iff.rfl

theorem spells_or : (p ||| q).Spells before cs after kept ↔
    p.Spells before cs after kept ∨ q.Spells before cs after kept := Iff.rfl

theorem spells_group {index : Nat} : (group index p).Spells before cs after kept ↔
    ∃ inner, p.Spells before cs after inner ∧ kept = (index, cs) :: inner := Iff.rfl

theorem spells_text {s : String} : (text s).Spells before cs after kept ↔ cs = s.toList ∧ kept = [] := by
  rw [text, Spells]
  simp only [beq_iff_eq]
  rw [List.forall₂_eq_eq_eq, eq_comm]

theorem spells_many {set : Char → Bool} : (many set).Spells before cs after kept ↔
    (∀ x ∈ cs, set x = true) ∧ kept = [] := by
  simp [many, Spells]

theorem spells_most_one {set : Char → Bool} : (most set 1).Spells before cs after kept ↔
    (cs ≠ [] ∧ ∀ x ∈ cs, set x = true) ∧ kept = [] := by
  rw [Spells, Nat.one_le_iff_ne_zero, ne_eq, List.length_eq_zero_iff]

theorem spells_fewest_one {set : Char → Bool} : (fewest set 1).Spells before cs after kept ↔
    (cs ≠ [] ∧ ∀ x ∈ cs, set x = true) ∧ kept = [] := by
  rw [Spells, Nat.one_le_iff_ne_zero, ne_eq, List.length_eq_zero_iff]

theorem spells_one {set : Char → Bool} : (one set).Spells before cs after kept ↔
    (∃ x, set x = true ∧ cs = [x]) ∧ kept = [] := Iff.rfl

theorem spells_blanks : blanks.Spells before cs after kept ↔
    (∀ x ∈ cs, isBlank x = true) ∧ kept = [] := spells_many

theorem spells_perhaps : (perhaps p).Spells before cs after kept ↔
    p.Spells before cs after kept ∨ cs = [] ∧ kept = [] := by
  rw [perhaps, Spells, nothing, Spells, List.forall₂_nil_left_iff]

theorem spells_textStart : (edge .textStart).Spells before cs after kept ↔
    (before = [] ∧ cs = []) ∧ kept = [] := by
  simp [Spells, Edge.holds, between]

theorem spells_gap : gap.Spells before cs after kept ↔ IsGap cs ∧ kept = [] := spells_most_one

end Pattern

end SourceAudit

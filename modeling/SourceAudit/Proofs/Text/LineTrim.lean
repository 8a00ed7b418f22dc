/-
Module: SourceAudit.Proofs.Text.LineTrim
Layer: Proofs
Purpose: Trimming the ends of all lines as one walk over the text, which drops each character that its line
  ends in. The walk starts anew behind every character that is no blank, and it keeps these characters in
  their order; so a stretch between two of them becomes the stretch of the trimmed text with the same of
  them before and in it. Texts that are alike up to case are trimmed alike.
Main exports: isTrailing, trimTrailingBlanks_cons, trimFront, trimTrailingBlanks_append_cons,
  trimTrailingBlanks_solid_append, ink, ink_trimFront, append_cons_inj_of_ink, IsSolidEnded,
  eq_trimTrailingBlanks_of_ink, forall₂_trimFront
-/
import SourceAudit.Proofs.Text.LineEnd
import SourceAudit.Proofs.Text.Trim

namespace SourceAudit

open SourceAudit.Fix

/-- Whether a character with this text behind it is one of the blanks that its line ends in. The carriage
    return in front of a line feed is none of them. -/
def isTrailing (c : Char) (rest : Text) : Bool :=
  isBlank c && c != '\n' && (rest.takeWhile (· != '\n')).all isBlank &&
    !(c == '\r' && (rest.takeWhile (· != '\n')).isEmpty)

theorem isTrailing_of_solid {c : Char} (solid : isBlank c = false) (rest : Text) :
    isTrailing c rest = false := by
  rw [isTrailing, solid, Bool.false_and, Bool.false_and, Bool.false_and]

theorem trimEnd_cons (c : Char) (t : Text) :
    Text.trimEnd (c :: t) = if isBlank c && t.all isBlank then [] else c :: t.trimEnd := by
  rw [Text.trimEnd, List.reverse_cons, List.dropWhile_append]
  cases rest : t.reverse.dropWhile isBlank with
  | nil =>
    have blank : t.all isBlank = true := by simpa using rest
    rw [Text.trimEnd, rest, blank]
    cases h : isBlank c <;> simp [h]
  | cons x xs =>
    have solid : t.all isBlank = false := by
      rw [← Bool.not_eq_true, ← List.all_reverse]
      intro blank
      rw [List.dropWhile_eq_nil_iff.2 (List.all_eq_true.1 blank)] at rest
      cases rest
    rw [Text.trimEnd, rest, solid]
    simp

theorem splitReturn_cons (c : Char) {line : Text} (some : line ≠ []) :
    Text.splitReturn (c :: line) = (c :: line.splitReturn.1, line.splitReturn.2) := by
  have last : (c :: line).getLast? = line.getLast? := List.getLast?_cons_of_ne_nil some
  rw [Text.splitReturn, Text.splitReturn, last]
  split
  · rw [List.dropLast_cons_of_ne_nil some]
  · rfl

/-- A line loses its first character exactly if it holds nothing but blanks. -/
theorem editLine_trimEnd_cons (c : Char) (line : Text) : editLine Text.trimEnd (c :: line) =
    if isBlank c && line.all isBlank && !(c == '\r' && line.isEmpty) then editLine Text.trimEnd line
    else c :: editLine Text.trimEnd line := by
  cases line with
  | nil =>
    by_cases ret : c = '\r'
    · subst ret
      rfl
    · have whole : Text.splitReturn [c] = ([c], []) := splitReturn_of_getLast? (by simpa using ret)
      have none : Text.splitReturn [] = ([], []) := rfl
      rw [editLine, editLine, whole, none, trimEnd_cons, beq_false_of_ne ret]
      cases isBlank c <;> rfl
  | cons d line =>
    -- a line is blank exactly if its body is
    obtain ⟨parts, returns⟩ := splitReturn_append (d :: line)
    have blank : (d :: line).all isBlank = (Text.splitReturn (d :: line)).1.all isBlank := by
      have ret : (Text.splitReturn (d :: line)).2.all isBlank = true := by
        rw [List.all_eq_true]
        intro y mem
        rw [returns y mem]
        decide
      conv_lhs => rw [parts, List.all_append, ret, Bool.and_true]
    rw [editLine, editLine, splitReturn_cons c (List.cons_ne_nil d line), trimEnd_cons, blank]
    cases all : (Text.splitReturn (d :: line)).1.all isBlank with
    | false => simp only [Bool.and_false, Bool.false_and, Bool.false_eq_true, if_false, List.cons_append]
    | true =>
      have nothing : (Text.splitReturn (d :: line)).1.trimEnd = [] := by
        rw [Text.trimEnd, List.reverse_eq_nil_iff, List.dropWhile_eq_nil_iff]
        exact fun y mem => List.all_eq_true.1 all y (List.mem_reverse.1 mem)
      cases isBlank c <;> simp [nothing]

theorem trimTrailingBlanks_nil : trimTrailingBlanks [] = [] := rfl

/-- Trimming the ends of lines character by character: the trailing ones go. -/
theorem trimTrailingBlanks_cons (c : Char) (t : Text) : trimTrailingBlanks (c :: t) =
    if isTrailing c t then trimTrailingBlanks t else c :: trimTrailingBlanks t := by
  obtain ⟨rest, lined⟩ := Text.exists_pieces_eq (· == '\n') t
  have behind : trimTrailingBlanks t = editLine Text.trimEnd (t.takeWhile (· != '\n')) ++
      (rest.map (editLine Text.trimEnd)).flatMap ('\n' :: ·) := by
    rw [trimTrailingBlanks, mapLines, Text.lines, lined, List.map_cons, Text.unlines_cons]
    rfl
  by_cases feed : c = '\n'
  · subst feed
    have stays : isTrailing '\n' t = false := by simp [isTrailing]
    have here : Text.lines ('\n' :: t) = [] :: t.lines := Text.pieces_cons_of_separates rfl t
    rw [stays, if_neg Bool.false_ne_true, trimTrailingBlanks, mapLines, here, List.map_cons,
      Text.unlines_cons, Text.lines, lined, List.map_cons, List.flatMap_cons, behind]
    rfl
  · have here : Text.lines (c :: t) = (c :: t.takeWhile (· != '\n')) :: rest :=
      Text.pieces_cons (by simpa using feed) lined
    rw [trimTrailingBlanks, mapLines, here, List.map_cons, Text.unlines_cons, editLine_trimEnd_cons, behind,
      isTrailing, bne_iff_ne.2 feed, Bool.and_true]
    split <;> rfl

theorem trimTrailingBlanks_cons_solid {x : Char} (solid : isBlank x = false) (t : Text) :
    trimTrailingBlanks (x :: t) = x :: trimTrailingBlanks t := by
  rw [trimTrailingBlanks_cons, isTrailing_of_solid solid, if_neg Bool.false_ne_true]

/-- The text with its lines trimmed but for the last one, as it is trimmed in front of a character that is
    no blank. -/
def trimFront : Text → Text
  | [] => []
  | c :: t => if t.contains '\n' && isTrailing c t then trimFront t else c :: trimFront t

theorem isTrailing_append_cons (c : Char) (u : Text) {x : Char} (solid : isBlank x = false) (v : Text) :
    isTrailing c (u ++ x :: v) = (u.contains '\n' && isTrailing c u) := by
  have clear {l : Text} (absent : '\n' ∉ l) : ∀ y ∈ l, (y != '\n') = true := by
    intro y mem
    rw [bne_iff_ne]
    rintro rfl
    exact absent mem
  cases feed : u.contains '\n' with
  | true =>
    obtain ⟨l, r, rfl, absent⟩ := List.eq_append_cons_of_mem (List.contains_iff_mem.1 feed)
    have line (q : Text) : (l ++ '\n' :: q).takeWhile (· != '\n') = l := by
      rw [List.takeWhile_append_of_pos (clear absent), List.takeWhile_cons_of_neg (by simp), List.append_nil]
    rw [isTrailing, isTrailing, List.append_assoc, List.cons_append, line, line, Bool.true_and]
  | false =>
    have absent : '\n' ∉ u := by simpa using feed
    have other : (x != '\n') = true := by
      rw [bne_iff_ne]
      rintro rfl
      cases solid
    have hard : (x :: v).takeWhile (· != '\n') = x :: v.takeWhile (· != '\n') :=
      List.takeWhile_cons_of_pos other
    rw [isTrailing, List.takeWhile_append_of_pos (clear absent), hard]
    simp [solid]

/-- Trimming goes on behind a character that is no blank as at the start of a text. -/
theorem trimTrailingBlanks_append_cons (u : Text) {x : Char} (solid : isBlank x = false) (v : Text) :
    trimTrailingBlanks (u ++ x :: v) = trimFront u ++ x :: trimTrailingBlanks v := by
  induction u with
  | nil => exact trimTrailingBlanks_cons_solid solid v
  | cons c u ih =>
    rw [List.cons_append, trimTrailingBlanks_cons, isTrailing_append_cons c u solid v, trimFront, ih]
    split <;> rfl

theorem trimTrailingBlanks_solid_append {n : Text} (solid : ∀ c ∈ n, isBlank c = false) (t : Text) :
    trimTrailingBlanks (n ++ t) = n ++ trimTrailingBlanks t := by
  induction n with
  | nil => rfl
  | cons c n ih =>
    obtain ⟨here, others⟩ := List.forall_mem_cons.1 solid
    rw [List.cons_append, trimTrailingBlanks_cons_solid here, ih others, List.cons_append]

/-- Trimming goes on behind a word without blanks as at the start of a text. -/
theorem trimTrailingBlanks_append_append (u : Text) {n : Text} (some : n ≠ [])
    (solid : ∀ c ∈ n, isBlank c = false) (v : Text) :
    trimTrailingBlanks (u ++ (n ++ v)) = trimFront u ++ (n ++ trimTrailingBlanks v) := by
  obtain ⟨x, n, rfl⟩ := List.exists_cons_of_ne_nil some
  obtain ⟨first, others⟩ := List.forall_mem_cons.1 solid
  rw [List.cons_append, trimTrailingBlanks_append_cons u first, trimTrailingBlanks_solid_append others,
    List.cons_append]

theorem trimFront_sublist (t : Text) : (trimFront t).Sublist t := by
  induction t with
  | nil => exact .slnil
  | cons c t ih =>
    rw [trimFront]
    split
    · exact ih.cons c
    · exact ih.cons_cons c

/-! ### What trimming keeps -/

/-- The characters of a text that are no blanks. -/
def ink (t : Text) : Text := t.filter fun c => !isBlank c

theorem ink_append (t u : Text) : ink (t ++ u) = ink t ++ ink u := List.filter_append ..

theorem ink_cons_of_blank {c : Char} (blank : isBlank c = true) (t : Text) : ink (c :: t) = ink t :=
  List.filter_cons_of_neg (by simp [blank])

theorem ink_cons_of_solid {c : Char} (solid : isBlank c = false) (t : Text) : ink (c :: t) = c :: ink t :=
  List.filter_cons_of_pos (by simp [solid])

theorem isBlank_of_isTrailing {c : Char} {t : Text} (trailing : isTrailing c t = true) : isBlank c = true := by
  simp only [isTrailing, Bool.and_eq_true] at trailing
  exact trailing.1.1.1

theorem ink_cons_congr (c : Char) {t u : Text} (same : ink t = ink u) : ink (c :: t) = ink (c :: u) := by
  cases blank : isBlank c with
  | true => rw [ink_cons_of_blank blank, ink_cons_of_blank blank, same]
  | false => rw [ink_cons_of_solid blank, ink_cons_of_solid blank, same]

theorem ink_trimFront (t : Text) : ink (trimFront t) = ink t := by
  induction t with
  | nil => rfl
  | cons c t ih =>
    rw [trimFront]
    split
    · rename_i trailing
      rw [ih, ink_cons_of_blank (isBlank_of_isTrailing ((Bool.and_eq_true _ _).mp trailing).2)]
    · exact ink_cons_congr c ih

/-- A character that is no blank has one place only behind so many others. -/
theorem append_cons_inj_of_ink {u v u' v' : Text} {x y : Char} (solid : isBlank x = false)
    (solid' : isBlank y = false) (whole : u ++ x :: v = u' ++ y :: v') (same : ink u = ink u') :
    u = u' ∧ x :: v = y :: v' := by
  have later {u a v : Text} {x : Char} (solid : isBlank x = false) (same : ink u = ink (u ++ x :: a)) :
      False := by
    rw [ink_append, ink_cons_of_solid solid] at same
    simpa using congrArg List.length same
  rcases List.append_eq_append_iff.1 whole with ⟨a, rfl, rest⟩ | ⟨a, rfl, rest⟩
  · cases a with
    | nil => exact ⟨(List.append_nil u).symm, rest⟩
    | cons z a =>
      obtain ⟨rfl, -⟩ := List.cons.inj rest
      exact (later (v := []) solid same).elim
  · cases a with
    | nil => exact ⟨List.append_nil u', rest.symm⟩
    | cons z a =>
      obtain ⟨rfl, -⟩ := List.cons.inj rest
      exact (later (v := []) solid' same.symm).elim

/-- The text is not empty, and neither its first character nor its last one is a blank. -/
def IsSolidEnded (w : Text) : Prop :=
  (∃ x m, w = x :: m ∧ isBlank x = false) ∧ ∃ m x, w = m ++ [x] ∧ isBlank x = false

/-- What becomes of a stretch between characters that are no blanks: the stretch of the trimmed text with
    the same of them before and in it. -/
theorem eq_trimTrailingBlanks_of_ink {before w after before' w' after' : Text} (ends : IsSolidEnded w)
    (ends' : IsSolidEnded w')
    (whole : trimTrailingBlanks (before ++ (w ++ after)) = before' ++ (w' ++ after'))
    (start : ink before = ink before') (stop : ink w = ink w') : w' = trimTrailingBlanks w := by
  obtain ⟨⟨x, m, split, solid⟩, n, y, last, solid'⟩ := ends
  obtain ⟨⟨z, k, split', other⟩, l, q, last', other'⟩ := ends'
  have stretch : trimTrailingBlanks w = x :: trimTrailingBlanks m := by
    rw [split, trimTrailingBlanks_cons_solid solid]
  have body : trimTrailingBlanks w = trimFront n ++ [y] := by
    rw [last, trimTrailingBlanks_append_cons n solid', trimTrailingBlanks_nil]
  have behind : trimTrailingBlanks (w ++ after) = trimTrailingBlanks w ++ trimTrailingBlanks after := by
    rw [body, last, List.append_assoc, List.singleton_append, trimTrailingBlanks_append_cons n solid']
    simp
  have front : trimTrailingBlanks (before ++ (w ++ after)) =
      trimFront before ++ (trimTrailingBlanks w ++ trimTrailingBlanks after) := by
    rw [← behind, split, List.cons_append, trimTrailingBlanks_append_cons before solid,
      trimTrailingBlanks_cons_solid solid]
  rw [front, stretch, split'] at whole
  have rest := (append_cons_inj_of_ink solid other whole (by rw [ink_trimFront, start])).2
  have same : trimFront n ++ y :: trimTrailingBlanks after = l ++ q :: after' := by
    have joined : trimTrailingBlanks w ++ trimTrailingBlanks after = w' ++ after' := by
      rw [stretch, split']
      exact rest
    rw [body, last'] at joined
    simpa using joined
  have marks : ink (trimFront n ++ [y]) = ink (l ++ [q]) := by
    rw [ink_append, ink_trimFront, ← ink_append, ← last, stop, last']
  have inner : ink (trimFront n) = ink l := by
    rw [ink_append, ink_append, ink_cons_of_solid solid', ink_cons_of_solid other'] at marks
    exact List.append_inj_left' marks rfl
  obtain ⟨here, final⟩ := append_cons_inj_of_ink solid' other' same inner
  obtain ⟨rfl, -⟩ := List.cons.inj final
  rw [body, last', here]

/-! ### Texts that differ up to case -/

section

variable {R : Char → Char → Prop} (agree : ∀ {c d}, R c d → c = d ∨ isBlank c = false ∧ isBlank d = false)
include agree

theorem eq_iff_of_agree {c d b : Char} (blank : isBlank b = true) (h : R c d) : c = b ↔ d = b := by
  have other {c : Char} (solid : isBlank c = false) : c ≠ b := by
    rintro rfl
    rw [solid] at blank
    cases blank
  rcases agree h with rfl | ⟨solid, solid'⟩
  · rfl
  · exact iff_of_false (other solid) (other solid')

theorem mem_iff_of_agree {t u : Text} {b : Char} (blank : isBlank b = true) (h : List.Forall₂ R t u) :
    b ∈ t ↔ b ∈ u := by
  induction h with
  | nil => exact Iff.rfl
  | cons here _ ih =>
    rw [List.mem_cons, List.mem_cons, ih, eq_comm, eq_iff_of_agree agree blank here, eq_comm]

theorem isBlank_eq_of_agree {c d : Char} (h : R c d) : isBlank c = isBlank d := by
  rcases agree h with rfl | ⟨solid, solid'⟩
  · rfl
  · rw [solid, solid']

theorem all_isBlank_eq_of_agree {t u : Text} (h : List.Forall₂ R t u) : t.all isBlank = u.all isBlank := by
  induction h with
  | nil => rfl
  | cons here _ ih => rw [List.all_cons, List.all_cons, isBlank_eq_of_agree agree here, ih]

/-- Lines that are alike but for the case of their letters end alike. -/
theorem forall₂_takeWhile_feed {t u : Text} (h : List.Forall₂ R t u) :
    List.Forall₂ R (t.takeWhile (· != '\n')) (u.takeWhile (· != '\n')) := by
  induction h with
  | nil => exact .nil
  | @cons c d t u here _ ih =>
    have same : (c != '\n') = (d != '\n') := by
      rw [Bool.eq_iff_iff, bne_iff_ne, bne_iff_ne, ne_eq, eq_iff_of_agree agree (by decide) here]
    rw [List.takeWhile_cons, List.takeWhile_cons, same]
    split
    · exact .cons here ih
    · exact .nil

theorem isTrailing_eq_of_agree {c d : Char} {t u : Text} (here : R c d) (h : List.Forall₂ R t u) :
    isTrailing c t = isTrailing d u := by
  have line := forall₂_takeWhile_feed agree h
  have none : (t.takeWhile (· != '\n')).isEmpty = (u.takeWhile (· != '\n')).isEmpty := by
    rw [Bool.eq_iff_iff, List.isEmpty_iff_length_eq_zero, List.isEmpty_iff_length_eq_zero, line.length_eq]
  have feed : (c != '\n') = (d != '\n') := by
    rw [Bool.eq_iff_iff, bne_iff_ne, bne_iff_ne, ne_eq, eq_iff_of_agree agree (by decide) here]
  have ret : (c == '\r') = (d == '\r') := by
    rw [Bool.eq_iff_iff, beq_iff_eq, beq_iff_eq, eq_iff_of_agree agree (by decide) here]
  rw [isTrailing, isTrailing, isBlank_eq_of_agree agree here, all_isBlank_eq_of_agree agree line, none, feed, ret]

/-- Texts that are alike but for the case of their letters are alike when they are trimmed. -/
theorem forall₂_trimFront {t u : Text} (h : List.Forall₂ R t u) :
    List.Forall₂ R (trimFront t) (trimFront u) := by
  induction h with
  | nil => exact .nil
  | @cons c d t u here rest ih =>
    have feed : t.contains '\n' = u.contains '\n' := by
      rw [Bool.eq_iff_iff, List.contains_iff_mem, List.contains_iff_mem, mem_iff_of_agree agree (by decide) rest]
    rw [trimFront, trimFront, feed, isTrailing_eq_of_agree agree here rest]
    split
    · exact ih
    · exact .cons here ih

end

end SourceAudit

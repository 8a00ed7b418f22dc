/-
Module: SourceAudit.Proofs.Text.Trim
Layer: Proofs
Purpose: Blanks around a text and the carriage return at the end of a line. Blanks put before or behind
  a text do not change what trimming leaves of it, and the carriage return is one of them; a line is its
  body and that carriage return, and is taken apart again in the same way.
Main exports: isBlank_of_getLast?_trimEnd, trimEnd_trimEnd, exists_trimEnd_append,
  exists_blanks_trim_blanks, trim_append_blanks, trim_blanks_append, trim_trimEnd, trim_trim,
  exists_trim_concat, splitReturn_append, splitReturn_body_append, trim_splitReturn
-/
import SourceAudit.Proofs.Text.Words
import Mathlib.Data.List.DropRight

namespace SourceAudit

/-! ### Trimming -/

theorem isBlank_of_getLast?_trimEnd {t : Text} {x : Char} (last : t.trimEnd.getLast? = some x) :
    isBlank x = false := by
  rw [Text.trimEnd, List.getLast?_reverse] at last
  have first := List.head?_dropWhile_not isBlank t.reverse
  rw [last] at first
  simpa using first

theorem trimEnd_trimEnd (t : Text) : t.trimEnd.trimEnd = t.trimEnd := by
  simp only [Text.trimEnd, List.reverse_reverse, List.dropWhile_idempotent]

/-- What is trimmed off the end of a text is blank. -/
theorem exists_trimEnd_append (t : Text) : ∃ g, t = t.trimEnd ++ g ∧ ∀ c ∈ g, isBlank c = true := by
  refine ⟨(t.reverse.takeWhile isBlank).reverse, ?_, ?_⟩
  · rw [Text.trimEnd, ← List.reverse_append, List.takeWhile_append_dropWhile, List.reverse_reverse]
  · exact fun c mem => List.mem_takeWhile_imp (List.mem_reverse.1 mem)

theorem prefix_trimEnd (t : Text) : t.trimEnd <+: t := by
  obtain ⟨g, parts, -⟩ := exists_trimEnd_append t
  exact ⟨g, parts.symm⟩

theorem trim_subset (t : Text) : t.trim ⊆ t :=
  fun _ mem => (List.dropWhile_sublist isBlank).subset ((prefix_trimEnd t.trimStart).subset mem)

/-- Trimming takes nothing but blanks off the two ends of a text. -/
theorem exists_blanks_trim_blanks (t : Text) : ∃ g g', t = g ++ (t.trim ++ g') ∧
    (∀ c ∈ g, isBlank c = true) ∧ ∀ c ∈ g', isBlank c = true := by
  obtain ⟨g', back, blank'⟩ := exists_trimEnd_append t.trimStart
  refine ⟨t.takeWhile isBlank, g', ?_, fun c => List.mem_takeWhile_imp, blank'⟩
  conv_lhs => rw [← List.takeWhile_append_dropWhile (p := isBlank) (l := t)]
  exact congrArg (_ ++ ·) back

theorem trimEnd_append_blanks (t : Text) {g : Text} (blank : ∀ c ∈ g, isBlank c = true) :
    Text.trimEnd (t ++ g) = t.trimEnd := by
  rw [Text.trimEnd, List.reverse_append, List.dropWhile_append_of_pos (by simpa using blank),
    ← Text.trimEnd]

/-- Blanks behind a text do not change what trimming leaves of it. -/
theorem trim_append_blanks (t : Text) {g : Text} (blank : ∀ c ∈ g, isBlank c = true) :
    Text.trim (t ++ g) = t.trim := by
  rw [Text.trim, Text.trimStart, List.dropWhile_append]
  split
  · rename_i none
    have nothing : t.trimStart = [] := List.isEmpty_iff.1 none
    rw [Text.trim, nothing, List.dropWhile_eq_nil_iff.2 blank]
  · rw [trimEnd_append_blanks _ blank]
    rfl

/-- Blanks before a text do not change what trimming leaves of it. -/
theorem trim_blanks_append {g : Text} (blank : ∀ c ∈ g, isBlank c = true) (t : Text) :
    Text.trim (g ++ t) = t.trim := by
  rw [Text.trim, Text.trimStart, List.dropWhile_append_of_pos blank]
  rfl

theorem trim_trimEnd (t : Text) : t.trimEnd.trim = t.trim := by
  obtain ⟨g, parts, blank⟩ := exists_trimEnd_append t
  conv_rhs => rw [parts, trim_append_blanks _ blank]

theorem trim_trimStart (t : Text) : t.trimStart.trim = t.trim := by
  have parts : t = t.takeWhile isBlank ++ t.trimStart := (List.takeWhile_append_dropWhile).symm
  conv_rhs => rw [parts, trim_blanks_append fun c mem => List.mem_takeWhile_imp mem]

theorem trim_trim (t : Text) : t.trim.trim = t.trim := by
  conv_lhs => rw [Text.trim.eq_def t, trim_trimEnd, trim_trimStart]

/-- Trimming stops at the last character of a text if that is none of the blanks. -/
theorem exists_trim_concat (u : Text) {x : Char} (solid : isBlank x = false) :
    ∃ v, Text.trim (u ++ [x]) = v ++ [x] := by
  have start : ∃ v, Text.trimStart (u ++ [x]) = v ++ [x] := by
    rw [Text.trimStart, List.dropWhile_append]
    split
    · exact ⟨[], List.dropWhile_cons_of_neg (by simp [solid])⟩
    · exact ⟨u.dropWhile isBlank, rfl⟩
  obtain ⟨v, start⟩ := start
  refine ⟨v, ?_⟩
  have whole := @Text.trimEnd_of_solid_end (v ++ [x]) [] (by simp) (by simpa using solid)
  rw [Text.trim, start]
  rwa [List.append_nil] at whole

/-! ### The carriage return at the end of a line -/

theorem splitReturn_append (line : Text) :
    line = line.splitReturn.1 ++ line.splitReturn.2 ∧ ∀ y ∈ line.splitReturn.2, y = '\r' := by
  rw [Text.splitReturn]
  split
  · rename_i last
    obtain ⟨body, rfl⟩ := List.getLast?_eq_some_iff.1 last
    simp
  · simp

theorem splitReturn_append_return (t : Text) : Text.splitReturn (t ++ ['\r']) = (t, ['\r']) := by
  rw [Text.splitReturn, List.getLast?_concat]
  simp only [List.dropLast_concat]

theorem splitReturn_of_getLast? {t : Text} (h : t.getLast? ≠ some '\r') : t.splitReturn = (t, []) := by
  rw [Text.splitReturn]
  split
  · rename_i last
    exact absurd last h
  · rfl

/-- A line ends in a carriage return exactly if one is split off. -/
theorem splitReturn_snd (line : Text) :
    line.getLast? = some '\r' ∧ line.splitReturn.2 = ['\r'] ∨
      line.getLast? ≠ some '\r' ∧ line.splitReturn = (line, []) := by
  by_cases last : line.getLast? = some '\r'
  · obtain ⟨body, rfl⟩ := List.getLast?_eq_some_iff.1 last
    exact .inl ⟨last, by rw [splitReturn_append_return]⟩
  · exact .inr ⟨last, splitReturn_of_getLast? last⟩

theorem getLast?_eq_return_iff {line : Text} :
    line.getLast? = some '\r' ↔ line.splitReturn.2 = ['\r'] := by
  rcases splitReturn_snd line with ⟨last, ret⟩ | ⟨last, whole⟩
  · exact iff_of_true last ret
  · refine iff_of_false last ?_
    rw [whole]
    exact (List.cons_ne_nil _ _).symm

/-- A new body before what was split off a line is split off again, unless it brings a carriage return
    to the end of a line that had none. -/
theorem splitReturn_body_append {line body : Text}
    (last : line.getLast? ≠ some '\r' → body.getLast? ≠ some '\r') :
    Text.splitReturn (body ++ line.splitReturn.2) = (body, line.splitReturn.2) := by
  rcases splitReturn_snd line with ⟨-, ret⟩ | ⟨other, whole⟩
  · rw [ret, splitReturn_append_return]
  · rw [whole, List.append_nil, splitReturn_of_getLast? (last other)]

/-- Trimming a line takes the carriage return off. -/
theorem trim_splitReturn (line : Text) : line.splitReturn.1.trim = line.trim := by
  obtain ⟨parts, returns⟩ := splitReturn_append line
  conv_rhs => rw [parts]
  refine (trim_append_blanks _ fun c mem => ?_).symm
  rw [returns c mem]
  decide

theorem not_mem_splitReturn {line : Text} (feedless : '\n' ∉ line) : '\n' ∉ line.splitReturn.1 := by
  intro feed
  rw [(splitReturn_append line).1] at feedless
  exact feedless (List.mem_append_left _ feed)

end SourceAudit

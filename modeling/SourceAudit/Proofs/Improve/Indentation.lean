/-
Module: SourceAudit.Proofs.Improve.Indentation
Layer: Proofs
Purpose: Indentation by nesting. The new indentation goes by what stands between the blanks of each line,
  and leaves just that and the carriage return at the end of the line as they are; so a second run
  changes nothing, and it makes no difference whether the ends of the lines are trimmed before or after.
Main exports: lineContent, indentedFrom, lines_fixIndentation, contents_fixIndentation,
  fixIndentation_congr, line_fixes_keep_lines
-/
import SourceAudit.Proofs.Improve.Settled

namespace SourceAudit

/-- What stands between the blanks of a line, and the carriage return at its end. -/
def lineContent (line : Text) : Text × Text := (line.splitReturn.1.trim, line.splitReturn.2)

/-- The lines with these contents, indented one after the other from a level on. -/
def indentedFrom (level : Nat) : (contents : List (Text × Text)) → List Text
  | [] => []
  | (trimmed, ret) :: contents =>
    let own := Fix.lineLevel level trimmed
    (Fix.indentedLine own trimmed ++ ret) :: indentedFrom (Fix.nextLevel own trimmed) contents

theorem indentLines_eq (level : Nat) (done lines : List Text) :
    Fix.indentLines level done lines = done.reverse ++ indentedFrom level (lines.map lineContent) := by
  induction lines generalizing level done with
  | nil => simp [Fix.indentLines, indentedFrom]
  | cons line lines ih => simp [Fix.indentLines, indentedFrom, lineContent, ih]

/-! ### One line -/

theorem trim_indentedLine (level : Nat) (line : Text) :
    (Fix.indentedLine level line.trim).trim = line.trim := by
  rw [Fix.indentedLine]
  split
  · rename_i none
    rw [List.isEmpty_iff.1 none]
    rfl
  · rw [trim_blanks_append, trim_trim]
    intro c mem
    obtain rfl := List.eq_of_mem_replicate mem
    decide

theorem trimEnd_indentedLine (level : Nat) (line : Text) :
    (Fix.indentedLine level line.trim).trimEnd = Fix.indentedLine level line.trim := by
  rw [Fix.indentedLine]
  split
  · rfl
  · rename_i some
    have last : ∀ c ∈ (List.replicate (2 * level) ' ' ++ line.trim).getLast?, isBlank c = false :=
      solid_last_append _ (by simpa using some) fun c mem => isBlank_of_getLast?_trimEnd mem
    simpa using @Text.trimEnd_of_solid_end _ [] (by simp) last

theorem feedless_indentedLine (level : Nat) {line : Text} (feedless : '\n' ∉ line) :
    '\n' ∉ Fix.indentedLine level line.trim := by
  rw [Fix.indentedLine]
  split
  · exact List.not_mem_nil
  · intro feed
    rcases List.mem_append.1 feed with space | feed
    · cases List.eq_of_mem_replicate space
    · exact feedless (trim_subset line feed)

/-- An indented line ends in the carriage return that it is given, and in no other. -/
theorem splitReturn_indented (level : Nat) (line : Text) :
    Text.splitReturn (Fix.indentedLine level line.splitReturn.1.trim ++ line.splitReturn.2) =
      (Fix.indentedLine level line.splitReturn.1.trim, line.splitReturn.2) := by
  apply splitReturn_body_append
  intro _ last
  rw [← trimEnd_indentedLine] at last
  have solid := isBlank_of_getLast?_trimEnd last
  cases solid

theorem lineContent_indented (level : Nat) (line : Text) :
    lineContent (Fix.indentedLine level (lineContent line).1 ++ (lineContent line).2) =
      lineContent line := by
  rw [lineContent, lineContent, splitReturn_indented, trim_indentedLine]

theorem editLine_trimEnd_indented (level : Nat) (line : Text) :
    Fix.editLine Text.trimEnd (Fix.indentedLine level (lineContent line).1 ++ (lineContent line).2) =
      Fix.indentedLine level (lineContent line).1 ++ (lineContent line).2 := by
  rw [Fix.editLine, lineContent, splitReturn_indented, trimEnd_indentedLine]

/-! ### All lines -/

/-- What holds of every line with a content at every level holds of the indented lines. -/
theorem forall_mem_indentedFrom {P : Text → Prop} {lines : List Text}
    (each : ∀ line ∈ lines, ∀ level,
      P (Fix.indentedLine level (lineContent line).1 ++ (lineContent line).2)) (level : Nat) :
    ∀ line ∈ indentedFrom level (lines.map lineContent), P line := by
  induction lines generalizing level with
  | nil => exact fun _ mem => absurd mem List.not_mem_nil
  | cons line lines ih =>
    obtain ⟨here, others⟩ := List.forall_mem_cons.1 each
    exact List.forall_mem_cons.2 ⟨here _, ih others _⟩

theorem contents_indentedFrom (level : Nat) (lines : List Text) :
    (indentedFrom level (lines.map lineContent)).map lineContent = lines.map lineContent := by
  induction lines generalizing level with
  | nil => rfl
  | cons line lines ih =>
    rw [List.map_cons, indentedFrom, List.map_cons, lineContent_indented, ih]

theorem lines_fixIndentation (t : Text) :
    (Fix.fixIndentation t).lines = indentedFrom 0 (t.lines.map lineContent) := by
  rw [Fix.fixIndentation, indentLines_eq, List.reverse_nil, List.nil_append]
  apply Text.lines_unlines
  · obtain ⟨rest, lined⟩ := Text.exists_pieces_eq (· == '\n') t
    rw [Text.lines, lined]
    exact List.cons_ne_nil _ _
  · apply forall_mem_indentedFrom
    intro line mem level feed
    have feedless := Text.not_mem_of_mem_lines mem
    rcases List.mem_append.1 feed with feed | feed
    · exact feedless_indentedLine level (not_mem_splitReturn feedless) feed
    · cases (splitReturn_append line).2 _ feed

theorem contents_fixIndentation (t : Text) :
    (Fix.fixIndentation t).lines.map lineContent = t.lines.map lineContent := by
  rw [lines_fixIndentation, contents_indentedFrom]

theorem contents_trimTrailingBlanks (t : Text) :
    (Fix.trimTrailingBlanks t).lines.map lineContent = t.lines.map lineContent := by
  rw [Fix.trimTrailingBlanks, keepsBreaks_trimEnd.lines_mapLines, List.map_map]
  refine List.map_congr_left fun line _ => ?_
  rw [Function.comp, lineContent, keepsBreaks_trimEnd.splitReturn_editLine, trim_trimEnd, lineContent]

/-- Texts whose lines have the same contents are indented alike. -/
theorem fixIndentation_congr {t t' : Text} (same : t.lines.map lineContent = t'.lines.map lineContent) :
    Fix.fixIndentation t = Fix.fixIndentation t' := by
  rw [Fix.fixIndentation, Fix.fixIndentation, indentLines_eq, indentLines_eq, same]

theorem fixIndentation_idem (t : Text) :
    Fix.fixIndentation (Fix.fixIndentation t) = Fix.fixIndentation t :=
  fixIndentation_congr (contents_fixIndentation t)

theorem fixIndentation_trimTrailingBlanks (t : Text) :
    Fix.fixIndentation (Fix.trimTrailingBlanks t) = Fix.fixIndentation t :=
  fixIndentation_congr (contents_trimTrailingBlanks t)

/-- Indented lines have no blanks at their ends. -/
theorem trimTrailingBlanks_fixIndentation (t : Text) :
    Fix.trimTrailingBlanks (Fix.fixIndentation t) = Fix.fixIndentation t := by
  have trimmed : ∀ line ∈ (Fix.fixIndentation t).lines, Fix.editLine Text.trimEnd line = line := by
    rw [lines_fixIndentation]
    exact forall_mem_indentedFrom (fun line _ level => editLine_trimEnd_indented level line) 0
  rw [Fix.trimTrailingBlanks, Fix.mapLines, List.map_congr_left trimmed, List.map_id',
    Text.unlines_lines]

/-! ### Lines with the same contents -/

section

variable {t t' : Text} (same : t'.lines.map lineContent = t.lines.map lineContent)
include same

theorem forall₂_of_contents {R : Text → Text → Prop}
    (alike : ∀ {line line' : Text}, lineContent line' = lineContent line → R line line') :
    List.Forall₂ R t.lines t'.lines := by
  have rows : List.Forall₂ (fun line line' => lineContent line' = lineContent line)
      t.lines t'.lines := by
    rw [← List.forall₂_eq_eq_eq, List.forall₂_map_left_iff, List.forall₂_map_right_iff] at same
    exact same.flip
  exact rows.imp fun _ _ => alike

theorem keepsReturns_of_contents : KeepsReturns t t' := by
  apply forall₂_of_contents same
  intro line line' alike
  obtain ⟨-, ret⟩ := Prod.mk.inj alike
  rw [getLast?_eq_return_iff, getLast?_eq_return_iff, ret]

theorem keepsTrimmed_of_contents : KeepsTrimmed t t' := by
  apply forall₂_of_contents same
  intro line line' alike
  obtain ⟨trimmed, -⟩ := Prod.mk.inj alike
  rw [← trim_splitReturn, trimmed, trim_splitReturn]

end

/-- The fixes that go line by line change no more than they are for. All of them keep the number of lines
    and which lines end in a carriage return; the trimming of line ends and the indentation keep every
    line but for the blanks around it. A second run of the fixes other than the newer declaration
    keywords changes nothing, and trimming makes no difference before or after the indentation. -/
theorem line_fixes_keep_lines [Engine] (fileName code : String) :
    Gives .replaceVar fileName code (KeepsReturns (Text.of code)) ∧
    Settles .addSemicolons fileName code (KeepsReturns (Text.of code)) ∧
    Settles .trimTrailingWhitespace fileName code (fun t =>
      KeepsReturns (Text.of code) t ∧ KeepsTrimmed (Text.of code) t) ∧
    Settles .fixIndentation fileName code (fun t =>
      KeepsReturns (Text.of code) t ∧ KeepsTrimmed (Text.of code) t) ∧
    ∃ trimmed indented, applyFix .trimTrailingWhitespace fileName code = .ok trimmed ∧
      applyFix .fixIndentation fileName code = .ok indented ∧
      applyFix .fixIndentation fileName trimmed = .ok indented ∧
      applyFix .trimTrailingWhitespace fileName indented = .ok indented := by
  refine ⟨?_, ?_, ?_, ?_, ?_⟩
  · exact Gives.of_edit Fix.replaceVar (fun _ => rfl) (keepsBreaks_replaceVarInLine.keepsReturns _)
  · exact Settles.of_edit Fix.addSemicolons (fun _ => rfl)
      (keepsBreaks_addSemicolonToLine.keepsReturns _) (addSemicolons_idem _)
  · exact Settles.of_edit Fix.trimTrailingBlanks (fun _ => rfl)
      ⟨keepsBreaks_trimEnd.keepsReturns _, keepsBreaks_trimEnd.keepsTrimmed trim_trimEnd _⟩
      (trimTrailingBlanks_idem _)
  · have same := contents_fixIndentation (Text.of code)
    exact Settles.of_edit Fix.fixIndentation (fun _ => rfl)
      ⟨keepsReturns_of_contents same, keepsTrimmed_of_contents same⟩ (fixIndentation_idem _)
  · refine ⟨(Fix.trimTrailingBlanks (Text.of code)).str, (Fix.fixIndentation (Text.of code)).str, rfl,
      rfl, ?_, ?_⟩
    · change Except.ok (Fix.fixIndentation (Text.of (Text.str _))).str = _
      rw [Text.of_str, fixIndentation_trimTrailingBlanks]
    · change Except.ok (Fix.trimTrailingBlanks (Text.of (Text.str _))).str = _
      rw [Text.of_str, trimTrailingBlanks_fixIndentation]

end SourceAudit

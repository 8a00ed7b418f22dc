/-
Module: SourceAudit.Proofs.Improve.LineEdits
Layer: Proofs
Purpose: The fixes that edit every line by itself. Where the edit of a line keeps the breaks around it,
  the lines of the edited text are the edited lines, a line ends in a carriage return as it did before,
  and two runs of such fixes are one run with both edits.
Main exports: KeepsBreaks, KeepsBreaks.lines_mapLines, KeepsBreaks.mapLines_mapLines, KeepsReturns,
  KeepsTrimmed, KeepsBreaks.keepsReturns, keepsBreaks_trimEnd, keepsBreaks_replaceVarInLine,
  keepsBreaks_addSemicolonToLine, trimTrailingBlanks_idem, addSemicolons_idem
-/
import SourceAudit.Fix.Lines
import SourceAudit.Proofs.Pattern.First
import SourceAudit.Proofs.Text.Trim

namespace SourceAudit

open Pattern

/-- The edit of the body of a line brings no line feed in, and no carriage return to the end of it. -/
structure KeepsBreaks (edit : Text → Text) : Prop where
  feedless : ∀ {body : Text}, '\n' ∉ body → '\n' ∉ edit body
  returnless : ∀ {body : Text}, body.getLast? ≠ some '\r' → (edit body).getLast? ≠ some '\r'

/-- As many lines in both texts, and a line ends in a carriage return exactly if the one in its place
    does. -/
def KeepsReturns (t t' : Text) : Prop :=
  List.Forall₂ (fun line line' : Text => line'.getLast? = some '\r' ↔ line.getLast? = some '\r')
    t.lines t'.lines

/-- As many lines in both texts, and each is the same as the one in its place but for the blanks around
    it. -/
def KeepsTrimmed (t t' : Text) : Prop :=
  List.Forall₂ (fun line line' : Text => line'.trim = line.trim) t.lines t'.lines

namespace KeepsBreaks

variable {edit edit' : Text → Text} (keeps : KeepsBreaks edit)
include keeps

theorem splitReturn_editLine (line : Text) :
    (Fix.editLine edit line).splitReturn = (edit line.splitReturn.1, line.splitReturn.2) := by
  rw [Fix.editLine]
  apply splitReturn_body_append
  intro other
  rw [splitReturn_of_getLast? other]
  exact keeps.returnless other

theorem editLine_editLine (line : Text) :
    Fix.editLine edit' (Fix.editLine edit line) = Fix.editLine (fun body => edit' (edit body)) line := by
  rw [Fix.editLine, keeps.splitReturn_editLine, ← Fix.editLine.eq_def (fun body => edit' (edit body))]

theorem lines_mapLines (t : Text) : (Fix.mapLines edit t).lines = t.lines.map (Fix.editLine edit) := by
  apply Text.lines_unlines_map
  intro line absent feed
  rcases List.mem_append.1 feed with feed | feed
  · exact keeps.feedless (not_mem_splitReturn absent) feed
  · cases (splitReturn_append line).2 _ feed

/-- Two runs, one after the other, are one run with both edits. -/
theorem mapLines_mapLines (t : Text) :
    Fix.mapLines edit' (Fix.mapLines edit t) = Fix.mapLines (fun body => edit' (edit body)) t := by
  rw [Fix.mapLines, keeps.lines_mapLines, List.map_map, Fix.mapLines]
  exact congrArg Text.unlines (List.map_congr_left fun line _ => keeps.editLine_editLine line)

theorem keepsReturns (t : Text) : KeepsReturns t (Fix.mapLines edit t) := by
  rw [KeepsReturns, keeps.lines_mapLines, List.forall₂_map_right_iff, List.forall₂_same]
  intro line _
  rw [getLast?_eq_return_iff, keeps.splitReturn_editLine, getLast?_eq_return_iff]

theorem keepsTrimmed (trims : ∀ body, (edit body).trim = body.trim) (t : Text) :
    KeepsTrimmed t (Fix.mapLines edit t) := by
  rw [KeepsTrimmed, keeps.lines_mapLines, List.forall₂_map_right_iff, List.forall₂_same]
  intro line _
  rw [← trim_splitReturn, keeps.splitReturn_editLine, trims, trim_splitReturn]

end KeepsBreaks

/-! ### Blanks at the ends of lines -/

theorem keepsBreaks_trimEnd : KeepsBreaks Text.trimEnd where
  feedless absent feed := absent ((prefix_trimEnd _).subset feed)
  returnless _ last := by
    have solid := isBlank_of_getLast?_trimEnd last
    cases solid

theorem trimTrailingBlanks_idem (t : Text) :
    Fix.trimTrailingBlanks (Fix.trimTrailingBlanks t) = Fix.trimTrailingBlanks t := by
  simp only [Fix.trimTrailingBlanks, keepsBreaks_trimEnd.mapLines_mapLines, trimEnd_trimEnd]

/-! ### Declaration keywords -/

/-- The newer keyword takes the place of the dated one in front of something that stays. -/
theorem replaceVarInLine_keeps (line : Text) :
    ('\n' ∈ Fix.replaceVarInLine line → '\n' ∈ line) ∧
      (Fix.replaceVarInLine line).getLast? = line.getLast? := by
  have plain : '\n' ∉ (if line.contains '=' then "let".toList else "const".toList) := by
    split <;> decide
  apply keeps_replaceAll (R := fun a b => ('\n' ∈ b → '\n' ∈ a) ∧ b.getLast? = a.getLast?) rfl
  · exact ⟨id, rfl⟩
  · rintro x a b ⟨feed, last⟩
    refine ⟨fun mem => ?_, by rw [List.getLast?_cons, List.getLast?_cons, last]⟩
    exact List.mem_cons.2 ((List.mem_cons.1 mem).imp id feed)
  · rintro before rest hit found a b ⟨feed, last⟩
    obtain ⟨after, -, -, spelled⟩ := exists_chars_of_matchAt found
    obtain ⟨xs, name, first, second, chars, kept, leading, named⟩ := spelled
    obtain ⟨inner, ⟨gap, start, -, -, rfl, -, -, ⟨x, -, rfl⟩, -⟩, rfl⟩ := named
    have none := leading.eq_nil rfl
    have group : hit.groupChars 1 = gap ++ [x] := by
      rw [hit.groupChars_eq, kept, none]
      rfl
    rw [chars, group]
    constructor
    · intro mem
      simp only [List.mem_append] at mem ⊢
      rcases mem with (word | here) | behind
      · exact absurd word plain
      · exact .inl (.inr here)
      · exact .inr (feed behind)
    · simp only [List.getLast?_append, last, List.getLast?_singleton, Option.some_or]

theorem keepsBreaks_replaceVarInLine : KeepsBreaks Fix.replaceVarInLine where
  feedless absent feed := absent ((replaceVarInLine_keeps _).1 feed)
  returnless other := by rwa [(replaceVarInLine_keeps _).2]

/-! ### Semicolons -/

theorem keepsBreaks_addSemicolonToLine : KeepsBreaks Fix.addSemicolonToLine where
  feedless {body} absent feed := by
    rw [Fix.addSemicolonToLine] at feed
    split at feed
    · rcases List.mem_append.1 feed with feed | feed
      · exact keepsBreaks_trimEnd.feedless absent feed
      · simp at feed
    · exact absent feed
  returnless {body} other := by
    rw [Fix.addSemicolonToLine]
    split
    · change (body.trimEnd ++ [';']).getLast? ≠ _
      rw [List.getLast?_concat]
      decide
    · exact other

/-- A line with its semicolon lacks none. -/
theorem addSemicolonToLine_idem (body : Text) :
    Fix.addSemicolonToLine (Fix.addSemicolonToLine body) = Fix.addSemicolonToLine body := by
  by_cases lacks : Fix.lacksSemicolon body.trim = true
  · obtain ⟨v, ended⟩ := exists_trim_concat body.trimEnd (x := ';') (by decide)
    have closed : Fix.lacksSemicolon (Text.trim (body.trimEnd ++ ";".toList)) = false := by
      change Fix.lacksSemicolon (Text.trim (body.trimEnd ++ [';'])) = false
      rw [ended, Fix.lacksSemicolon, Text.endsWithOneOf, List.getLast?_concat]
      simp
    rw [Fix.addSemicolonToLine.eq_def body, if_pos lacks, Fix.addSemicolonToLine, closed]
    rfl
  · rw [Fix.addSemicolonToLine.eq_def body, if_neg lacks, Fix.addSemicolonToLine, if_neg lacks]

theorem addSemicolons_idem (t : Text) :
    Fix.addSemicolons (Fix.addSemicolons t) = Fix.addSemicolons t := by
  simp only [Fix.addSemicolons, keepsBreaks_addSemicolonToLine.mapLines_mapLines,
    addSemicolonToLine_idem]

end SourceAudit

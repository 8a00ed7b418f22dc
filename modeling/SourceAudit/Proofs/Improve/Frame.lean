/-
Module: SourceAudit.Proofs.Improve.Frame
Layer: Proofs
Purpose: What a fix leaves alone. The fixes that add something lose no character of the text, and without
  the notes that were put in, the text with notes above its inner loops is the text as it was. The fixes
  that take something away bring no character in, and two of them only ever drop whole lines.
Main exports: unlines_sublist, LosesLines, NotedLine, notedLines, IsNoted, isNoted_annotateNestedLoops,
  sublist_insertIntoHead, stripVoidSlash_sublist, fixes_add_or_remove
-/
import SourceAudit.Proofs.Imports.Unused
import SourceAudit.Proofs.Improve.Constants
import SourceAudit.Proofs.Improve.Settled
import SourceAudit.Proofs.Markup.Tags
import Mathlib.Data.List.Forall2

namespace SourceAudit

open Pattern Markup Cursor

/-! ### Lines that are left out or cut short -/

theorem unlines_sublist_cons (line : Text) (ls : List Text) :
    (Text.unlines ls).Sublist (Text.unlines (line :: ls)) := by
  cases ls with
  | nil => exact List.nil_sublist _
  | cons l ls =>
    rw [Text.unlines_cons_cons]
    exact (List.sublist_cons_self _ _).trans (List.sublist_append_right _ _)

theorem sublist_unlines_cons (line : Text) (ls : List Text) :
    line.Sublist (Text.unlines (line :: ls)) := by
  rw [Text.unlines_cons]
  exact List.sublist_append_left _ _

/-- Joined lines only lose characters where lines are left out or lose characters. -/
theorem unlines_sublist {ls ls' : List Text} (less : List.SublistForall₂ List.Sublist ls ls') :
    (Text.unlines ls).Sublist (Text.unlines ls') := by
  induction less with
  | nil => exact List.nil_sublist _
  | @cons line line' ls ls' here less ih =>
    cases ls with
    | nil =>
      rw [Text.unlines_singleton]
      exact here.trans (sublist_unlines_cons line' ls')
    | cons l ls =>
      obtain ⟨l', ls', rfl⟩ : ∃ l' rest, ls' = l' :: rest := by
        cases less <;> exact ⟨_, _, rfl⟩
      rw [Text.unlines_cons_cons, Text.unlines_cons_cons]
      exact here.append (ih.cons_cons '\n')
  | cons_right _ ih => exact ih.trans (unlines_sublist_cons _ _)

theorem unlines_sublist_of_sublist {ls ls' : List Text} (less : ls.Sublist ls') :
    (Text.unlines ls).Sublist (Text.unlines ls') := by
  refine unlines_sublist (List.sublistForall₂_iff.2 ⟨ls, ?_, less⟩)
  exact List.forall₂_same.2 fun line _ => List.Sublist.refl line

/-- Some lines of the first text, in their order, make up the second. -/
def LosesLines (t t' : Text) : Prop := ∃ kept, kept.Sublist t.lines ∧ t' = Text.unlines kept

theorem LosesLines.sublist {t t' : Text} (loses : LosesLines t t') : t'.Sublist t := by
  obtain ⟨kept, less, rfl⟩ := loses
  have joined := unlines_sublist_of_sublist less
  rwa [Text.unlines_lines] at joined

/-! ### Something added -/

theorem sublist_addDoctype (t : Text) : t.Sublist (Fix.addDoctype t) := by
  rw [Fix.addDoctype]
  split
  · exact .refl t
  · exact List.sublist_append_right _ t

/-- The text is cut where the tag goes in, and both parts stay. -/
theorem sublist_insertIntoHead (present : Pattern) (tag t : Text) :
    t.Sublist (Fix.insertIntoHead present tag t) := by
  rw [Fix.insertIntoHead]
  split
  · exact .refl t
  · split
    · rename_i hit opening
      obtain ⟨before, cs, after, rfl, whole, -⟩ := exists_spells_of_find opening
      have front : (before ++ (cs ++ after)).take (between (before ++ cs) after).offset =
          before ++ cs := by
        rw [← List.append_assoc]
        exact List.take_left
      rw [whole, front, ← List.append_assoc before, List.append_assoc (before ++ cs)]
      exact (List.sublist_append_left _ _).append (.refl after)
    · split
      · rename_i hit closing
        obtain ⟨before, cs, after, rfl, whole, -⟩ := exists_spells_of_find closing
        have front : (before ++ (cs ++ after)).take (between before (cs ++ after)).offset = before :=
          List.take_left
        rw [Hit.offset, whole, front, List.append_assoc before]
        exact (List.sublist_append_left _ _).append (List.sublist_cons_self _ _)
      · exact .refl t

theorem sublist_addReactImport (fileName : String) (t : Text) :
    t.Sublist (Fix.addReactImport fileName t) := by
  rw [Fix.addReactImport]
  split
  · exact .refl t
  · conv_lhs => rw [← Text.unlines_lines t, ← List.take_append_drop
      ((t.lines.findIdx? Fix.isImportLine).getD 0) t.lines]
    exact unlines_sublist_of_sublist ((List.Sublist.refl _).append (List.sublist_cons_self _ _))

theorem sublist_extractMagicNumbers (fileName : String) (t : Text) :
    t.Sublist (Fix.extractMagicNumbers fileName t) := by
  rw [Fix.extractMagicNumbers_eq]
  split
  · exact .refl t
  · exact List.sublist_append_right _ t

/-! ### Notes above inner loops -/

/-- A line of a text with notes, and whether it is a note that was put in. -/
structure NotedLine where
  line : Text
  isNew : Bool

/-- The lines with a note above each of the targets, unless the line before is already the note. -/
def notedLines (targets : List Nat) (index : Nat) (previous : Option Text) :
    (lines : List Text) → List NotedLine
  | [] => []
  | line :: lines =>
    let rest := ⟨line, false⟩ :: notedLines targets (index + 1) (some line) lines
    if targets.contains index && !previous.any fun before => before.trim == Fix.nestedLoopNote then
      ⟨line.indentation ++ Fix.nestedLoopNote, true⟩ :: rest
    else rest

variable {targets : List Nat} {index : Nat} {previous : Option Text}

theorem annotateLines_eq (done lines : List Text) :
    Fix.annotateLines targets index previous done lines =
      done.reverse ++ (notedLines targets index previous lines).map NotedLine.line := by
  induction lines generalizing index previous done with
  | nil => simp [Fix.annotateLines, notedLines]
  | cons line lines ih =>
    rw [Fix.annotateLines, ih, notedLines]
    split <;> simp

/-- Without the new notes, the lines are as they were. -/
theorem old_notedLines (lines : List Text) :
    ((notedLines targets index previous lines).filter fun row => !row.isNew).map NotedLine.line =
      lines := by
  induction lines generalizing index previous with
  | nil => rfl
  | cons line lines ih =>
    rw [notedLines]
    split <;> simp [ih]

theorem new_notedLines {lines : List Text} {row : NotedLine}
    (mem : row ∈ notedLines targets index previous lines) :
    row.isNew = false ∧ row.line ∈ lines ∨
      ∃ line ∈ lines, row.line = line.indentation ++ Fix.nestedLoopNote := by
  induction lines generalizing index previous with
  | nil => cases mem
  | cons line lines ih =>
    have rest (mem : row ∈ ⟨line, false⟩ :: notedLines targets (index + 1) (some line) lines) :
        row.isNew = false ∧ row.line ∈ line :: lines ∨
          ∃ line' ∈ line :: lines, row.line = line'.indentation ++ Fix.nestedLoopNote := by
      rcases List.mem_cons.1 mem with rfl | mem
      · exact .inl ⟨rfl, List.mem_cons_self⟩
      · refine (ih mem).imp (fun old => ⟨old.1, List.mem_cons_of_mem _ old.2⟩) ?_
        rintro ⟨line', among, note⟩
        exact ⟨line', List.mem_cons_of_mem _ among, note⟩
    rw [notedLines] at mem
    split at mem
    · rcases List.mem_cons.1 mem with rfl | mem
      · exact .inr ⟨line, List.mem_cons_self, rfl⟩
      · exact rest mem
    · exact rest mem

/-- The second text has the lines of the first, in their order, and besides them nothing but indented
    notes. -/
def IsNoted (t t' : Text) : Prop :=
  ∃ rows : List NotedLine, t'.lines = rows.map NotedLine.line ∧
    Text.unlines ((rows.filter fun row => !row.isNew).map NotedLine.line) = t ∧
    ∀ row ∈ rows, row.isNew = true → ∃ gap, (∀ c ∈ gap, isBlank c = true) ∧
      row.line = gap ++ Fix.nestedLoopNote

theorem isNoted_annotateNestedLoops (t : Text) : IsNoted t (Fix.annotateNestedLoops t) := by
  refine ⟨notedLines (Fix.innerLoopLines t) 0 none t.lines, ?_, ?_, ?_⟩
  · rw [Fix.annotateNestedLoops, annotateLines_eq, List.reverse_nil, List.nil_append]
    apply Text.lines_unlines
    · obtain ⟨rest, lined⟩ := Text.exists_pieces_eq (· == '\n') t
      rw [Text.lines, lined, notedLines]
      split <;> exact List.cons_ne_nil _ _
    · intro line mem feed
      obtain ⟨row, among, rfl⟩ := List.mem_map.1 mem
      rcases new_notedLines among with ⟨-, old⟩ | ⟨line, old, note⟩
      · exact Text.not_mem_of_mem_lines old feed
      · rw [note] at feed
        rcases List.mem_append.1 feed with indented | noted
        · exact Text.not_mem_of_mem_lines old ((List.takeWhile_sublist _).subset indented)
        · revert noted
          decide
  · rw [old_notedLines, Text.unlines_lines]
  · intro row among new
    rcases new_notedLines among with ⟨old, -⟩ | ⟨line, -, note⟩
    · rw [new] at old
      cases old
    · exact ⟨line.indentation, fun c mem => List.mem_takeWhile_imp mem, note⟩

theorem IsNoted.sublist {t t' : Text} (noted : IsNoted t t') : t.Sublist t' := by
  obtain ⟨rows, lines, rfl, -⟩ := noted
  rw [← Text.unlines_lines t', lines]
  exact unlines_sublist_of_sublist (List.filter_sublist.map NotedLine.line)

/-! ### Something taken away -/

theorem losesLines_removeCommentedCode (t : Text) : LosesLines t (Fix.removeCommentedCode t) :=
  ⟨_, List.filter_sublist, rfl⟩

theorem editLine_trimEnd_sublist (line : Text) :
    (Fix.editLine Text.trimEnd line).Sublist line := by
  conv_rhs => rw [(splitReturn_append line).1]
  exact (prefix_trimEnd _).sublist.append (.refl _)

theorem trimTrailingBlanks_sublist (t : Text) : (Fix.trimTrailingBlanks t).Sublist t := by
  conv_rhs => rw [← Text.unlines_lines t]
  refine unlines_sublist (List.sublistForall₂_iff.2 ⟨t.lines, ?_, .refl _⟩)
  rw [List.forall₂_map_left_iff, List.forall₂_same]
  exact fun line _ => editLine_trimEnd_sublist line

/-- Of a void element, the fix leaves out the slash and the blanks before it. -/
theorem stripVoidSlash_sublist (fileName : String) (t : Text) :
    (Fix.stripVoidSlash fileName t).Sublist t := by
  rw [Fix.stripVoidSlash]
  split
  · exact .refl t
  · apply keeps_replaceAll (R := fun a b => b.Sublist a) rfl
    · exact .refl []
    · exact fun x _ _ less => less.cons_cons x
    · intro before rest hit found a b less
      obtain ⟨start, way⟩ := keeps_of_matchAt found
      obtain ⟨n, attributes, bs, -, -, -, -, moves, name, inner⟩ := keeps_spacedVoidSlash way
      have shape : hit = ⟨⟨between before rest, hit.whole.stop⟩, hit.groups⟩ := by rw [← start]
      rw [← shape] at name inner
      have chars : hit.chars = '<' :: (n ++ (attributes ++ (bs ++ ['/', '>']))) := by
        rw [← moves.chars, ← start]
        rfl
      have closing : List.Sublist ['>'] (bs ++ ['/', '>']) :=
        (List.sublist_cons_self '/' ['>']).trans (List.sublist_append_right bs _)
      rw [name, inner, chars]
      refine List.Sublist.append ?_ less
      change List.Sublist ('<' :: (n ++ attributes ++ ['>'])) _
      rw [List.append_assoc]
      exact ((List.Sublist.refl n).append ((List.Sublist.refl attributes).append closing)).cons_cons '<'

theorem losesLines_removeUnusedImports [Engine] {t fixed : Text}
    (done : Fix.removeUnusedImports t = .ok fixed) :
    LosesLines t fixed := by
  rw [Fix.removeUnusedImports, ← otherLines] at done
  cases kept : Fix.keptLines (otherLines t).wordIndex t.lines with
  | error fault =>
    rw [kept] at done
    cases done
  | ok lines =>
    rw [kept] at done
    obtain rfl := Except.ok.inj done
    obtain ⟨keep, rfl, -⟩ := keptLines_eq_ok kept
    exact ⟨_, List.filter_sublist, rfl⟩

/-- The fixes that add something keep every character of the text in its order, and without the notes
    that one of them puts above inner loops the text is as it was. The fixes that take something away
    bring no character in; removing code in comments, or unused imports where these can be told, drops
    whole lines. -/
theorem fixes_add_or_remove [Engine] (fileName code : String) :
    Gives .addDoctype fileName code (fun t => (Text.of code).Sublist t) ∧
    Gives .addViewportMeta fileName code (fun t => (Text.of code).Sublist t) ∧
    Gives .addCharsetMeta fileName code (fun t => (Text.of code).Sublist t) ∧
    Gives .addReactImport fileName code (fun t => (Text.of code).Sublist t) ∧
    Gives .extractMagicNumbers fileName code (fun t => (Text.of code).Sublist t) ∧
    Gives .annotateNestedLoops fileName code (fun t =>
      (Text.of code).Sublist t ∧ IsNoted (Text.of code) t) ∧
    Gives .trimTrailingWhitespace fileName code (fun t => t.Sublist (Text.of code)) ∧
    Gives .stripVoidSlash fileName code (fun t => t.Sublist (Text.of code)) ∧
    Gives .removeCommentedCode fileName code (fun t =>
      t.Sublist (Text.of code) ∧ LosesLines (Text.of code) t) ∧
    ((∃ fault, applyFix .removeUnusedImports fileName code = .error fault) ∨
      Gives .removeUnusedImports fileName code (fun t =>
        t.Sublist (Text.of code) ∧ LosesLines (Text.of code) t)) := by
  refine ⟨?_, ?_, ?_, ?_, ?_, ?_, ?_, ?_, ?_, ?_⟩
  · exact Gives.of_edit Fix.addDoctype (fun _ => rfl) (sublist_addDoctype _)
  · exact Gives.of_edit Fix.addViewportMeta (fun _ => rfl) (sublist_insertIntoHead _ _ _)
  · exact Gives.of_edit Fix.addCharsetMeta (fun _ => rfl) (sublist_insertIntoHead _ _ _)
  · exact Gives.of_edit (Fix.addReactImport fileName) (fun _ => rfl) (sublist_addReactImport _ _)
  · exact Gives.of_edit (Fix.extractMagicNumbers fileName) (fun _ => rfl)
      (sublist_extractMagicNumbers _ _)
  · have noted := isNoted_annotateNestedLoops (Text.of code)
    exact Gives.of_edit Fix.annotateNestedLoops (fun _ => rfl) ⟨noted.sublist, noted⟩
  · exact Gives.of_edit Fix.trimTrailingBlanks (fun _ => rfl) (trimTrailingBlanks_sublist _)
  · exact Gives.of_edit (Fix.stripVoidSlash fileName) (fun _ => rfl) (stripVoidSlash_sublist _ _)
  · have loses := losesLines_removeCommentedCode (Text.of code)
    exact Gives.of_edit Fix.removeCommentedCode (fun _ => rfl) ⟨loses.sublist, loses⟩
  · cases run : Fix.removeUnusedImports (Text.of code) with
    | error fault =>
      refine .inl ⟨fault, ?_⟩
      rw [applyFix, FixKind.edit, run]
      rfl
    | ok fixed =>
      have loses := losesLines_removeUnusedImports run
      refine .inr ⟨fixed.str, ?_, ?_⟩
      · rw [applyFix, FixKind.edit, run]
        rfl
      · rw [Text.of_str]
        exact ⟨loses.sublist, loses⟩

end SourceAudit

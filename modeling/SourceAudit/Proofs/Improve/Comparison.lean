/-
Module: SourceAudit.Proofs.Improve.Comparison
Layer: Proofs
Purpose: A comparison of two texts loses nothing. Each side can be read off its rows again, the rows
  that only one side has stand at the end and are all of one side, and as many rows differ as the
  measurements count.
Main exports: compareRows, lines_before, lines_after, exists_shared_rows, countP_isDifferent,
  countDifferences_eq_zero_iff, IsComparison, compareLines_lossless
-/
import SourceAudit.Improve.Comparison
import SourceAudit.Proofs.Text.Needle

namespace SourceAudit

/-- The rows for two lists of lines, from number `n` on, in the order of the lines. -/
def compareRows (n : Nat) : (before after : List Text) → List LineComparison
  | [], [] => []
  | b :: bs, [] => .removed n b :: compareRows (n + 1) bs []
  | [], a :: as => .added n a :: compareRows (n + 1) [] as
  | b :: bs, a :: as => .paired n b a :: compareRows (n + 1) bs as

theorem compareFrom_eq_append (n : Nat) (done : List LineComparison) (before after : List Text) :
    compareFrom n done before after = done.reverse ++ compareRows n before after := by
  fun_induction compareFrom n done before after with
  | case1 n done => rw [compareRows, List.append_nil]
  | case2 n done b bs ih => rw [ih, compareRows, List.reverse_cons, ← List.append_cons]
  | case3 n done a as ih => rw [ih, compareRows, List.reverse_cons, ← List.append_cons]
  | case4 n done b bs a as ih => rw [ih, compareRows, List.reverse_cons, ← List.append_cons]

theorem compareLines_eq (original improved : String) :
    compareLines original improved =
      compareRows 1 (Text.of original).lines (Text.of improved).lines :=
  compareFrom_eq_append 1 [] _ _

section Paired

variable (n : Nat) (before after : Text)

@[simp] theorem LineComparison.lineNumber_paired : (paired n before after).lineNumber = n := by
  rw [paired]
  split <;> rfl

@[simp] theorem LineComparison.before_paired : (paired n before after).before = before.str := by
  rw [paired]
  split <;> rfl

@[simp] theorem LineComparison.after_paired : (paired n before after).after = after.str := by
  rw [paired]
  split <;> rfl

theorem LineComparison.changeType_paired :
    (paired n before after).changeType = .unchanged ∨ (paired n before after).changeType = .modified := by
  rw [paired]
  split
  · exact .inl rfl
  · exact .inr rfl

@[simp] theorem LineComparison.isDifferent_paired :
    (paired n before after).isDifferent = !decide (before = after) := by
  rw [paired]
  split
  · rename_i same
    simp [same]
  · rename_i differ
    simp [differ]

/-- A line that both versions have is neither added nor removed. -/
@[simp] theorem LineComparison.paired_shared :
    ((paired n before after).changeType != .added) = true ∧
      ((paired n before after).changeType != .removed) = true := by
  rcases changeType_paired n before after with h | h
  · rw [h]
    decide
  · rw [h]
    decide

end Paired

theorem lineNumbers_compareRows (n : Nat) (before after : List Text) :
    (compareRows n before after).map (·.lineNumber) =
      List.range' n (max before.length after.length) := by
  fun_induction compareRows n before after with
  | case1 => rfl
  | case2 n b bs ih =>
    rw [List.map_cons, ih]
    simp [List.range'_succ, LineComparison.removed]
  | case3 n a as ih =>
    rw [List.map_cons, ih]
    simp [List.range'_succ, LineComparison.added]
  | case4 n b bs a as ih =>
    rw [List.map_cons, ih, LineComparison.lineNumber_paired, List.length_cons, List.length_cons,
      Nat.succ_max_succ, List.range'_succ]

/-- The rows that are not added hold the lines before. -/
theorem lines_before (n : Nat) (before after : List Text) :
    ((compareRows n before after).filter (·.changeType != .added)).map (·.before) =
      before.map Text.str := by
  fun_induction compareRows n before after with
  | case1 => rfl
  | case2 n b bs ih => simpa [LineComparison.removed] using ih
  | case3 n a as ih => simpa [LineComparison.added] using ih
  | case4 n b bs a as ih =>
    rw [List.filter_cons, if_pos (LineComparison.paired_shared n b a).1, List.map_cons, ih,
      LineComparison.before_paired, List.map_cons]

/-- The rows that are not removed hold the lines after. -/
theorem lines_after (n : Nat) (before after : List Text) :
    ((compareRows n before after).filter (·.changeType != .removed)).map (·.after) =
      after.map Text.str := by
  fun_induction compareRows n before after with
  | case1 => rfl
  | case2 n b bs ih => simpa [LineComparison.removed] using ih
  | case3 n a as ih => simpa [LineComparison.added] using ih
  | case4 n b bs a as ih =>
    rw [List.filter_cons, if_pos (LineComparison.paired_shared n b a).2, List.map_cons, ih,
      LineComparison.after_paired, List.map_cons]

/-- Rows that stand for lines of both versions. -/
def AreShared (rows : List LineComparison) : Prop :=
  ∀ row ∈ rows, row.changeType = .unchanged ∨ row.changeType = .modified

/-- Rows that stand for lines of one version, the same for all of them. -/
def AreOneSided (rows : List LineComparison) : Prop :=
  (∀ row ∈ rows, row.changeType = .added) ∨ ∀ row ∈ rows, row.changeType = .removed

theorem removed_compareRows (n : Nat) (before : List Text) :
    ∀ row ∈ compareRows n before [], row.changeType = .removed ∧ row.isDifferent = true := by
  induction before generalizing n with
  | nil => simp [compareRows]
  | cons b bs ih =>
    rw [compareRows, List.forall_mem_cons]
    exact ⟨⟨rfl, rfl⟩, ih (n + 1)⟩

theorem added_compareRows (n : Nat) (after : List Text) :
    ∀ row ∈ compareRows n [] after, row.changeType = .added ∧ row.isDifferent = true := by
  induction after generalizing n with
  | nil => simp [compareRows]
  | cons a as ih =>
    rw [compareRows, List.forall_mem_cons]
    exact ⟨⟨rfl, rfl⟩, ih (n + 1)⟩

/-- First the lines that both versions have, then those of the longer one. -/
theorem exists_shared_rows (n : Nat) (before after : List Text) :
    ∃ shared rest, compareRows n before after = shared ++ rest ∧ AreShared shared ∧
      AreOneSided rest := by
  have none : AreShared [] := fun row mem => nomatch mem
  induction before generalizing n after with
  | nil =>
    exact ⟨[], _, rfl, none, .inl fun row mem => (added_compareRows n after row mem).1⟩
  | cons b bs ih =>
    cases after with
    | nil =>
      exact ⟨[], _, rfl, none, .inr fun row mem => (removed_compareRows n (b :: bs) row mem).1⟩
    | cons a as =>
      obtain ⟨shared, rest, rows, both, one⟩ := ih (n + 1) as
      refine ⟨.paired n b a :: shared, rest, by rw [compareRows, rows, List.cons_append], ?_, one⟩
      exact List.forall_mem_cons.2 ⟨LineComparison.changeType_paired n b a, both⟩

theorem length_compareRows (n : Nat) (before after : List Text) :
    (compareRows n before after).length = max before.length after.length := by
  rw [← List.length_map, lineNumbers_compareRows, List.length_range']

/-- As many rows differ as the measurements count. -/
theorem countP_isDifferent (n : Nat) (before after : List Text) (found : Nat) :
    countDifferences before after found =
      found + (compareRows n before after).countP (·.isDifferent) := by
  fun_induction countDifferences before after found generalizing n with
  | case1 found => simp [compareRows]
  | case2 after found some =>
    rw [List.countP_eq_length.2 fun row mem => (added_compareRows n after row mem).2,
      length_compareRows]
    simp
  | case3 before found some =>
    rw [List.countP_eq_length.2 fun row mem => (removed_compareRows n before row mem).2,
      length_compareRows]
    simp
  | case4 b bs a as found ih =>
    rw [ih (n + 1), compareRows, List.countP_cons, LineComparison.isDifferent_paired]
    by_cases same : b = a
    · simp [same]
    · simp [same]
      omega

/-- Nothing is counted exactly if the lines are the same. -/
theorem countDifferences_eq_zero_iff (before after : List Text) (found : Nat) :
    countDifferences before after found = 0 ↔ found = 0 ∧ before = after := by
  fun_induction countDifferences before after found with
  | case1 found => simp
  | case2 after found some =>
    cases after with
    | nil => exact (some rfl).elim
    | cons a as => simp
  | case3 before found some => simp
  | case4 b bs a as found ih =>
    rw [ih]
    by_cases same : b = a
    · simp [same]
    · simp [same]

theorem lines_injective {t t' : Text} (same : t.lines = t'.lines) : t = t' := by
  rw [← Text.unlines_lines t, same, Text.unlines_lines]

/-- The lines of a text joined by line feeds are the text. -/
theorem intercalate_lines (s : String) :
    "\n".intercalate ((Text.of s).lines.map Text.str) = s := by
  have read : String.toList ∘ Text.str = id := funext Text.of_str
  apply String.toList_inj.1
  rw [String.toList_intercalate, List.map_map, read, List.map_id]
  exact Text.unlines_lines (Text.of s)

/-- What a comparison of two texts tells of them. It has a row for every line of the longer one,
    numbered from 1. Its rows that are not added make up the first text and those that are not removed
    the second one; the rows of one side only come last and are all of the same side; and as many rows
    differ as lines are counted as changed, none exactly if the texts are the same. -/
structure IsComparison (original improved : String) (rows : List LineComparison) : Prop where
  numbered : rows.map (·.lineNumber) =
    List.range' 1 (max (Text.of original).lines.length (Text.of improved).lines.length)
  readsOriginal : "\n".intercalate ((rows.filter (·.changeType != .added)).map (·.before)) = original
  readsImproved : "\n".intercalate ((rows.filter (·.changeType != .removed)).map (·.after)) = improved
  ordered : ∃ shared rest, rows = shared ++ rest ∧ AreShared shared ∧ AreOneSided rest
  counted : rows.countP (·.isDifferent) = (ImprovementMetrics.between original improved).linesChanged
  same : (ImprovementMetrics.between original improved).linesChanged = 0 ↔ original = improved

theorem linesChanged_eq_zero_iff (original improved : String) :
    (ImprovementMetrics.between original improved).linesChanged = 0 ↔ original = improved := by
  have none : (ImprovementMetrics.between original improved).linesChanged = 0 ↔ _ :=
    countDifferences_eq_zero_iff _ _ 0
  rw [none, and_iff_right rfl]
  constructor
  · intro same
    exact String.toList_inj.1 (lines_injective same)
  · intro same
    rw [same]

theorem compareLines_lossless (original improved : String) :
    IsComparison original improved (compareLines original improved) := by
  rw [compareLines_eq]
  constructor
  case numbered => exact lineNumbers_compareRows 1 _ _
  case readsOriginal => rw [lines_before, intercalate_lines]
  case readsImproved => rw [lines_after, intercalate_lines]
  case ordered => exact exists_shared_rows 1 _ _
  case counted =>
    have counted : (ImprovementMetrics.between original improved).linesChanged = _ :=
      countP_isDifferent 1 _ _ 0
    rw [counted, Nat.zero_add]
  case same => exact linesChanged_eq_zero_iff original improved

end SourceAudit

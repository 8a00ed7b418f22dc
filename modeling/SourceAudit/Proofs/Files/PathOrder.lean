/-
Module: SourceAudit.Proofs.Files.PathOrder
Layer: Proofs
Purpose: The order of paths is a linear order of their steps: of two paths each comes before the other
  exactly if they have the same steps. Two spellings of one path are such paths, so the order does not
  tell them apart.
Main exports: keysInOrder_iff, pathKey_eq_iff, pathsInOrder_trans, pathsInOrder_total,
  pathsInOrder_of_steps_eq, steps_eq_of_pathsInOrder
-/
import SourceAudit.Files.Path

namespace SourceAudit

theorem PathStep.key_injective {s s' : PathStep} (same : s.key = s'.key) : s = s' := by
  have chars := congrArg String.toList same
  cases s with
  | entry name =>
    cases s' with
    | entry name' =>
      simp only [key, String.toList_append] at chars
      rw [String.toList_inj.1 (List.append_cancel_left chars)]
    | top | here | up => simp [key] at chars
  | top | here | up => cases s' <;> first | rfl | simp [key] at chars

section

variable {a b c : String}

theorem pathKey_eq_iff : pathKey a = pathKey b ↔ pathSteps a = pathSteps b :=
  List.map_inj_right fun _ _ => PathStep.key_injective

/-- Lists of keys are compared in lexicographic order. -/
theorem keysInOrder_iff {k l : List String} : keysInOrder k l = true ↔ ¬ l < k := by
  induction k generalizing l with
  | nil => simp [keysInOrder]
  | cons x k ih =>
    cases l with
    | nil => simp [keysInOrder]
    | cons y l =>
      rw [keysInOrder, List.cons_lt_cons_iff]
      split
      · rename_i same
        subst same
        rw [ih]
        simp
      · rename_i other
        have turned : ¬ y = x := Ne.symm other
        rw [decide_eq_true_eq]
        simp only [turned, false_and, or_false]
        constructor
        · intro less more
          exact String.lt_irrefl x (String.lt_trans less more)
        · intro notMore
          apply String.not_le.1
          intro notLess
          exact other (String.le_antisymm (String.not_lt.1 notMore) notLess)

theorem pathsInOrder_iff : pathsInOrder a b = true ↔ ¬ pathKey b < pathKey a := keysInOrder_iff

theorem pathsInOrder_trans (h : pathsInOrder a b = true) (h' : pathsInOrder b c = true) :
    pathsInOrder a c = true := by
  rw [pathsInOrder_iff] at *
  exact List.not_lt.2 (List.le_trans (List.not_lt.1 h) (List.not_lt.1 h'))

theorem pathsInOrder_total (a b : String) : (pathsInOrder a b || pathsInOrder b a) = true := by
  rw [Bool.or_eq_true, pathsInOrder_iff, pathsInOrder_iff, List.not_lt, List.not_lt]
  exact List.le_total _ _

/-- Paths with the same steps come before each other. -/
theorem pathsInOrder_of_steps_eq (same : pathSteps a = pathSteps b) : pathsInOrder a b = true := by
  rw [pathsInOrder_iff, pathKey_eq_iff.2 same]
  exact List.lt_irrefl _

/-- Paths that come before each other have the same steps. -/
theorem steps_eq_of_pathsInOrder (h : pathsInOrder a b = true) (h' : pathsInOrder b a = true) :
    pathSteps a = pathSteps b := by
  rw [pathsInOrder_iff] at h h'
  exact pathKey_eq_iff.1 (List.le_antisymm (List.not_lt.1 h) (List.not_lt.1 h'))

end

/-- A separator at the end makes no step. -/
example : pathSteps "site/" = pathSteps "site" := by decide +kernel

end SourceAudit

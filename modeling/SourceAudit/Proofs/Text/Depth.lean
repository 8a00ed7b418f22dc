/-
Module: SourceAudit.Proofs.Text.Depth
Layer: Proofs
Purpose: The depth of nested brackets along a text. An opening bracket leads one level down, a closing
  one leads up again, so the depth behind a stretch is told by how many of each it has. From a positive
  depth, the first place at depth zero lies behind a closing bracket.
Main exports: turn, sum_turns, firstZero, firstZero_cons, firstZero_eq_some_iff, firstZero_eq_none_iff,
  getElem?_of_firstZero
-/
import Mathlib.Algebra.BigOperators.Group.List.Basic
import Mathlib.Algebra.Ring.Int.Defs
import Mathlib.Data.Nat.PSub

namespace SourceAudit

/-- By how much a symbol changes the depth. -/
def turn {α : Type} [DecidableEq α] (opening closing x : α) : Int :=
  if x = opening then 1 else if x = closing then -1 else 0

section

variable {α : Type} [DecidableEq α] {opening closing x : α}

@[simp] theorem turn_opening : turn opening closing opening = 1 := if_pos rfl

theorem turn_closing (apart : opening ≠ closing) : turn opening closing closing = -1 := by
  rw [turn, if_neg apart.symm, if_pos rfl]

theorem turn_other (notOpening : x ≠ opening) (notClosing : x ≠ closing) : turn opening closing x = 0 := by
  rw [turn, if_neg notOpening, if_neg notClosing]

theorem neg_one_le_turn (opening closing x : α) : -1 ≤ turn opening closing x := by
  unfold turn
  split_ifs <;> omega

theorem eq_closing_of_turn (up : turn opening closing x = -1) : x = closing := by
  unfold turn at up
  split_ifs at up with _ here
  exact here

/-- Along a stretch the depth grows by as many opening brackets as there are more than closing ones. -/
theorem sum_turns (apart : opening ≠ closing) (xs : List α) :
    (xs.map (turn opening closing)).sum = (xs.count opening : Int) - xs.count closing := by
  induction xs with
  | nil => rfl
  | cons x xs ih =>
    rw [List.map_cons, List.sum_cons, ih]
    by_cases isOpening : x = opening
    · subst isOpening
      rw [turn_opening, List.count_cons_self, List.count_cons_of_ne apart]
      omega
    · by_cases isClosing : x = closing
      · subst isClosing
        rw [turn_closing apart, List.count_cons_self, List.count_cons_of_ne isOpening]
        omega
      · rw [turn_other isOpening isClosing, List.count_cons_of_ne isOpening, List.count_cons_of_ne isClosing]
        omega

end

/-- The first place of a list of changes behind which the depth is zero. -/
def firstZero (depth : Int) (changes : List Int) : Option Nat :=
  (List.range changes.length).find? fun n => depth + (changes.take (n + 1)).sum == 0

section

variable {depth change : Int} {changes : List Int} {n : Nat}

theorem firstZero_cons : firstZero depth (change :: changes) =
    if depth + change = 0 then some 0 else (firstZero (depth + change) changes).map (· + 1) := by
  rw [firstZero, List.length_cons, List.range_succ_eq_map, List.find?_cons, List.find?_map]
  simp only [List.take_succ_cons, List.take_zero, List.sum_cons, List.sum_nil, add_zero]
  split
  · rename_i zero
    rw [if_pos (beq_iff_eq.1 zero)]
  · rename_i deeper
    rw [if_neg (by simpa using deeper), firstZero]
    congr 2
    funext m
    simp only [Function.comp_apply, Nat.succ_eq_add_one, add_assoc]

/-- A change that does not lead to zero puts off the first place. -/
theorem map_firstZero_cons (deeper : depth + change ≠ 0) (offset : Nat) :
    (firstZero depth (change :: changes)).map (offset + ·) =
      (firstZero (depth + change) changes).map (offset + 1 + ·) := by
  rw [firstZero_cons, if_neg deeper, Option.map_map]
  congr 1
  funext m
  simp only [Function.comp_apply]
  omega

theorem firstZero_eq_some_iff : firstZero depth changes = some n ↔ n < changes.length ∧
    depth + (changes.take (n + 1)).sum = 0 ∧ ∀ m < n, depth + (changes.take (m + 1)).sum ≠ 0 := by
  rw [firstZero, List.find?_range_eq_some]
  simp only [beq_iff_eq, List.mem_range, Bool.not_eq_true', beq_eq_false_iff_ne]
  tauto

theorem firstZero_eq_none_iff : firstZero depth changes = none ↔
    ∀ m < changes.length, depth + (changes.take (m + 1)).sum ≠ 0 := by
  rw [firstZero, List.find?_range_eq_none]
  simp only [Bool.not_eq_true', beq_eq_false_iff_ne]

/-- A depth that goes up by single levels reaches zero by a step of one level. -/
theorem getElem?_of_firstZero (single : ∀ x ∈ changes, -1 ≤ x) (positive : 0 < depth)
    (zero : firstZero depth changes = some n) : changes[n]? = some (-1) := by
  induction changes generalizing depth n with
  | nil => cases zero
  | cons change changes ih =>
    obtain ⟨least, others⟩ := List.forall_mem_cons.1 single
    rw [firstZero_cons] at zero
    split_ifs at zero with here
    · obtain rfl := Option.some.inj zero
      rw [List.getElem?_cons_zero, show change = -1 by omega]
    · obtain ⟨m, later, rfl⟩ := Option.map_eq_some_iff.1 zero
      rw [List.getElem?_cons_succ]
      exact ih others (by omega) later

end

end SourceAudit

/-
Module: SourceAudit.Proofs.Text.WordChar
Layer: Proofs
Purpose: Sets of code points as unions of ranges. The bisection of a sorted table counts the entries up
  to a number, so a set holds the code points between a boundary that opens a range and the next one. In
  this reading two tables can be compared range by range: every decimal digit is a word character.
Main exports: countUpTo_eq_countP, CodeSet.ranges, CodeSet.contains_iff, isWordChar_of_isDecimalDigit
-/
import SourceAudit.Text.WordChar
import Mathlib.Data.List.Chain

namespace SourceAudit

theorem countP_le_eq_zero {l : List Nat} {n : Nat} (above : ∀ b ∈ l, n < b) : l.countP (· ≤ n) = 0 := by
  rw [List.countP_eq_zero]
  intro b mem
  rw [decide_eq_true_eq]
  exact Nat.not_le_of_lt (above b mem)

section

variable {l : List Nat} (sorted : l.Pairwise (· < ·)) (n : Nat)
include sorted

/-- In a sorted list, the entries up to a number are the first ones. -/
theorem getElem_le_iff_lt_countP {i : Nat} (within : i < l.length) :
    l[i] ≤ n ↔ i < l.countP (· ≤ n) := by
  induction l generalizing i with
  | nil => cases within
  | cons a l ih =>
    obtain ⟨above, sorted⟩ := List.pairwise_cons.1 sorted
    by_cases first : a ≤ n
    · rw [List.countP_cons]
      cases i with
      | zero => simp [first]
      | succ i => simpa [first] using ih sorted (Nat.lt_of_succ_lt_succ within)
    · have beyond : ∀ b ∈ a :: l, n < b :=
        List.forall_mem_cons.2 ⟨Nat.lt_of_not_le first, fun b mem => by have := above b mem; omega⟩
      have here := beyond _ (List.getElem_mem within)
      rw [countP_le_eq_zero beyond]
      omega

/-- Bisection keeps the count of the entries up to a number between its bounds, until they meet. -/
theorem countUpTo_eq_countP {fuel lo hi : Nat} (above : lo ≤ l.countP (· ≤ n))
    (below : l.countP (· ≤ n) ≤ hi) (within : hi ≤ l.length) (enough : hi - lo < Nat.pow 2 fuel) :
    countUpTo (fun i => l[i]?) n fuel lo hi = l.countP (· ≤ n) := by
  induction fuel generalizing lo hi with
  | zero =>
    have met : hi - lo < 1 := enough
    rw [countUpTo]
    omega
  | succ fuel ih =>
    have doubled : Nat.pow 2 (fuel + 1) = Nat.pow 2 fuel * 2 := rfl
    rw [countUpTo]
    split
    · have inside : (lo + hi) / 2 < l.length := by omega
      have here := getElem_le_iff_lt_countP sorted n inside
      simp only [List.getElem?_eq_getElem inside]
      split
      · exact ih (by omega) below within (by omega)
      · exact ih above (by omega) (by omega) (by omega)
    · omega

end

namespace CodeSet

/-- The ranges between the boundaries of a table, each with the first code point behind it. -/
def ranges : List Nat → List (Nat × Nat)
  | first :: stop :: bounds => (first, stop) :: ranges bounds
  | _ => []

theorem lt_of_mem_ranges {bounds : List Nat} {r : Nat × Nat} {n : Nat} (above : ∀ b ∈ bounds, n < b)
    (mem : r ∈ ranges bounds) : n < r.1 := by
  induction bounds using ranges.induct with
  | case1 first stop bounds ih =>
    obtain ⟨here, -, later⟩ : n < first ∧ n < stop ∧ ∀ b ∈ bounds, n < b := by simpa using above
    rcases List.mem_cons.1 mem with rfl | mem
    · exact here
    · exact ih later mem
  | case2 _ short =>
    rw [ranges] at mem
    · cases mem
    · exact short

/-- An odd number of boundaries has been passed exactly inside a range. -/
theorem countP_mod_two_iff {bounds : List Nat} (sorted : bounds.Pairwise (· < ·))
    (even : bounds.length % 2 = 0) (n : Nat) :
    bounds.countP (· ≤ n) % 2 = 1 ↔ ∃ r ∈ ranges bounds, r.1 ≤ n ∧ n < r.2 := by
  induction bounds using ranges.induct with
  | case1 first stop bounds ih =>
    obtain ⟨front, behind, sorted⟩ : first < stop ∧ (∀ b ∈ bounds, stop < b) ∧ bounds.Pairwise (· < ·) := by
      rw [List.pairwise_cons, List.pairwise_cons] at sorted
      exact ⟨sorted.1 stop (by simp), sorted.2⟩
    have ih := ih sorted (by simp only [List.length_cons] at even; omega)
    simp only [List.countP_cons, ranges, List.exists_mem_cons_iff, decide_eq_true_eq]
    by_cases passed : stop ≤ n
    · rw [if_pos passed, if_pos (by omega), ← ih]
      omega
    · -- all other ranges lie behind
      have beyond : ∀ b ∈ bounds, n < b := fun b mem => Nat.lt_trans (Nat.lt_of_not_le passed) (behind b mem)
      have later : ¬ ∃ r ∈ ranges bounds, r.1 ≤ n ∧ n < r.2 := by
        rintro ⟨r, mem, inside, -⟩
        have := lt_of_mem_ranges beyond mem
        omega
      rw [if_neg passed, countP_le_eq_zero beyond, or_iff_left later]
      split <;> omega
  | case2 bounds short =>
    cases bounds with
    | nil => simp [ranges]
    | cons first bounds =>
      cases bounds with
      | nil => simp at even
      | cons stop bounds => exact absurd rfl (short first stop bounds)

/-- A table that bisection can read: its boundaries ascend, the last range ends, and there are few enough
    of them. -/
structure Readable (s : CodeSet) : Prop where
  sorted : s.bounds.toList.Pairwise (· < ·)
  even : s.bounds.size % 2 = 0
  small : s.bounds.size < Nat.pow 2 24

/-- A set holds the code points of its ranges. -/
theorem contains_iff {s : CodeSet} (readable : s.Readable) (n : Nat) :
    s.contains n = true ↔ ∃ r ∈ ranges s.bounds.toList, r.1 ≤ n ∧ n < r.2 := by
  have counted : countUpTo (fun i => s.bounds[i]?) n 24 0 s.bounds.size =
      s.bounds.toList.countP (· ≤ n) := by
    simp only [← Array.getElem?_toList]
    exact countUpTo_eq_countP readable.sorted n (Nat.zero_le _) List.countP_le_length
      (Nat.le_refl _) readable.small
  rw [contains, counted, beq_iff_eq, countP_mod_two_iff readable.sorted readable.even]

theorem Readable.of_isChain {s : CodeSet} (checked : s.bounds.toList.IsChain (· < ·) ∧
    s.bounds.size % 2 = 0 ∧ s.bounds.size < Nat.pow 2 24) : s.Readable :=
  ⟨List.isChain_iff_pairwise.1 checked.1, checked.2.1, checked.2.2⟩

end CodeSet

theorem readable_wordCodes : wordCodes.Readable := .of_isChain (by decide +kernel)

theorem readable_digitCodes : digitCodes.Readable := .of_isChain (by decide +kernel)

/-- Every decimal digit, of whatever script, is a word character. -/
theorem isWordChar_of_isDecimalDigit {c : Char} (digit : isDecimalDigit c = true) :
    isWordChar c = true := by
  rw [isDecimalDigit] at digit
  rw [isWordChar]
  split at digit
  · rename_i plain
    rw [if_pos plain]
    simp [digit]
  · rename_i other
    rw [if_neg other]
    -- each range of digits lies in one of word characters
    have covered : (CodeSet.ranges digitCodes.bounds.toList).all fun r =>
        (CodeSet.ranges wordCodes.bounds.toList).any fun s => r.2.ble s.2 && s.1.ble r.1 := by
      decide +kernel
    obtain ⟨r, mem, above, below⟩ := (CodeSet.contains_iff readable_digitCodes _).1 digit
    obtain ⟨s, mem', wider⟩ := List.any_eq_true.1 (List.all_eq_true.1 covered r mem)
    rw [Bool.and_eq_true, Nat.ble_eq, Nat.ble_eq] at wider
    exact (CodeSet.contains_iff readable_wordCodes _).2 ⟨s, mem', by omega, by omega⟩

end SourceAudit

/-
Module: SourceAudit.Proofs.Text.LowerCase
Layer: Proofs
Purpose: Lower case and the characters without case. The lower case of a text starts with the lower
  case of its first characters. No other character becomes a character below the letters, by lower case
  or up to case, and a text in lower case has no capital letter of ASCII and no Kelvin sign.
Main exports: ShiftTable.apply_cases, exists_lowercaseFrom_eq, exists_lower_eq, eq_of_sameFold,
  forall_mem_lower, mem_of_mem_lower, IsLowered, isLowered_of_mem_lower,
  IsLowered.eq_of_foldCase
-/
import SourceAudit.Pattern.Basic
import SourceAudit.Text.Basic
import Mathlib.Tactic.Common

namespace SourceAudit

/-- A table leaves a code point where it is, or one of its runs moves it. -/
theorem ShiftTable.apply_cases (table : ShiftTable) (n : Nat) : table.apply n = n ∨
    ∃ s ∈ table.toList, s.first ≤ n ∧ n ≤ s.last ∧ table.apply n = ((n : Int) + s.distance).toNat := by
  rw [ShiftTable.apply]
  split
  · exact .inl rfl
  · split
    · rename_i s found
      split
      · rename_i moved
        simp only [Shift.moves, Bool.and_eq_true, decide_eq_true_eq] at moved
        exact .inr ⟨s, Array.mem_toList_iff.2 (Array.mem_of_getElem? found), moved.1.1, moved.1.2, rfl⟩
      · exact .inl rfl
    · exact .inl rfl

/-- A table whose runs all move to the small letters or beyond keeps code points there. -/
theorem le_apply {table : ShiftTable}
    (high : table.toList.all (fun s => 97 ≤ (s.first : Int) + s.distance) = true) {n : Nat} (h : 97 ≤ n) :
    97 ≤ table.apply n := by
  obtain stays | ⟨s, among, first, -, moved⟩ := table.apply_cases n
  · omega
  · have here := List.all_eq_true.1 high s among
    rw [decide_eq_true_eq] at here
    omega

theorem le_apply_lowerShifts {n : Nat} (h : 97 ≤ n) : 97 ≤ lowerShifts.apply n :=
  le_apply (by decide +kernel) h

theorem toNat_ofNat (n : Nat) : (Char.ofNat n).toNat = n ∨ Char.ofNat n = '\x00' := by
  by_cases valid : n.isValidChar
  · left
    rw [Char.ofNat, dif_pos valid]
    rfl
  · right
    rw [Char.ofNat, dif_neg valid]
    rfl

theorem ofNat_ne_of_lt {y : Char} (some : y ≠ '\x00') (low : y.toNat < 97) {n : Nat} (h : 97 ≤ n) :
    Char.ofNat n ≠ y := by
  rintro rfl
  rcases toNat_ofNat n with code | none
  · omega
  · exact some none

/-- A character below the letters is the same as itself only up to case. -/
theorem eq_of_sameFold {c y : Char} (some : y ≠ '\x00') (low : y.toNat < 65)
    (h : sameFold c y = true) : c = y := by
  by_contra other
  have unlike : (c == y) = false := by simpa using other
  have fixed : foldCase y = y := by
    simp only [foldCase]
    rw [if_pos (by omega), if_neg (by simp only [Bool.and_eq_true, decide_eq_true_eq]; omega)]
  simp only [sameFold, unlike, Bool.false_or, Bool.and_eq_true, beq_iff_eq] at h
  have folded : foldCase c = y := h.2.trans fixed
  simp only [foldCase] at folded
  split at folded
  · split at folded
    · rename_i letter
      simp only [Bool.and_eq_true, decide_eq_true_eq] at letter
      exact ofNat_ne_of_lt some (by omega) (by omega) folded
    · exact other folded
  · refine ofNat_ne_of_lt some (by omega) (le_apply (by decide +kernel) ?_) folded
    omega

theorem exists_lowercaseFrom_eq (before done rest : List Char) :
    ∃ more, lowercaseFrom before done rest = done.reverse ++ more := by
  induction rest generalizing before done with
  | nil => exact ⟨[], by simp [lowercaseFrom]⟩
  | cons c cs ih =>
    rw [lowercaseFrom]
    obtain ⟨more, whole⟩ := ih (c :: before) _
    exact ⟨_, by rw [whole, List.reverse_append, List.reverse_reverse, List.append_assoc]⟩

theorem exists_lowerChar_eq {c : Char} (other : c ≠ '!') :
    ∃ x xs, lowerChar c = x :: xs ∧ x ≠ '!' := by
  rw [lowerChar]
  split
  · refine ⟨_, [], rfl, ?_⟩
    split
    · rename_i letter
      simp only [Bool.and_eq_true, decide_eq_true_eq] at letter
      exact ofNat_ne_of_lt (by decide) (by decide) (by omega)
    · exact other
  · split
    · exact ⟨_, _, rfl, by decide⟩
    · exact ⟨_, [], rfl, ofNat_ne_of_lt (by decide) (by decide) (le_apply_lowerShifts (by omega))⟩

/-- A name in lower case does not start with an exclamation mark. -/
theorem exists_lower_eq {w : Char} (ws : Text) (word : isWordChar w = true) :
    ∃ x xs, Text.lower (w :: ws) = x :: xs ∧ sameFold x '!' = false := by
  have other : w ≠ '!' := by
    rintro rfl
    revert word
    decide
  have first : ∃ x xs, (if w.toNat == 0x3A3 then
      [if leadsToCased [] && !leadsToCased ws then Char.ofNat 0x3C2 else Char.ofNat 0x3C3]
      else lowerChar w) = x :: xs ∧ x ≠ '!' := by
    split
    · refine ⟨_, [], rfl, ?_⟩
      split <;> decide
    · exact exists_lowerChar_eq other
  obtain ⟨x, xs, lowered, bang⟩ := first
  obtain ⟨more, whole⟩ := exists_lowercaseFrom_eq [w] ((x :: xs).reverse ++ []) ws
  rw [List.append_nil, List.reverse_reverse] at whole
  refine ⟨x, xs ++ more, ?_, ?_⟩
  · rw [Text.lower, lowercase, lowercaseFrom]
    simp only [lowered, List.append_nil]
    exact whole
  · by_contra same
    exact bang (eq_of_sameFold (by decide) (by decide) (by simpa using same))

/-! ### The characters of a text in lower case -/

theorem forall_mem_lowercaseFrom {P : Char → Prop} (sigma : P (Char.ofNat 0x3C3))
    (finalSigma : P (Char.ofNat 0x3C2)) {before done rest : List Char} (sofar : ∀ y ∈ done, P y)
    (each : ∀ c ∈ rest, ∀ y ∈ lowerChar c, P y) : ∀ y ∈ lowercaseFrom before done rest, P y := by
  induction rest generalizing before done with
  | nil => simpa [lowercaseFrom] using sofar
  | cons c rest ih =>
    obtain ⟨here, others⟩ := List.forall_mem_cons.1 each
    rw [lowercaseFrom]
    refine ih (List.forall_mem_append.2 ⟨?_, sofar⟩) others
    intro y mem
    rw [List.mem_reverse] at mem
    split at mem
    · obtain rfl := List.mem_singleton.1 mem
      split
      · exact finalSigma
      · exact sigma
    · exact here y mem

/-- What holds of the lower case of every character, and of both small sigmas, holds throughout a text in
    lower case. -/
theorem forall_mem_lower {P : Char → Prop} (sigma : P (Char.ofNat 0x3C3))
    (finalSigma : P (Char.ofNat 0x3C2)) {s : Text} (each : ∀ c ∈ s, ∀ y ∈ lowerChar c, P y) :
    ∀ y ∈ s.lower, P y :=
  forall_mem_lowercaseFrom sigma finalSigma (fun _ mem => absurd mem List.not_mem_nil) each

theorem mem_lowerChar_cases {c y : Char} (mem : y ∈ lowerChar c) :
    (y = c ∧ ¬ (65 ≤ c.toNat ∧ c.toNat ≤ 90) ∧ c.toNat < 128) ∨
      ∃ n, y = Char.ofNat n ∧ 97 ≤ n ∧ n ≠ 0x212A := by
  rw [lowerChar] at mem
  split at mem
  · rename_i ascii
    obtain rfl := List.mem_singleton.1 mem
    split
    · rename_i letter
      simp only [Bool.and_eq_true, decide_eq_true_eq] at letter
      exact .inr ⟨_, rfl, by omega, by omega⟩
    · rename_i other
      simp only [Bool.and_eq_true, decide_eq_true_eq] at other
      exact .inl ⟨rfl, other, ascii⟩
  · split at mem
    · rw [List.mem_cons, List.mem_singleton] at mem
      rcases mem with rfl | rfl
      · exact .inr ⟨105, rfl, by decide, by decide⟩
      · exact .inr ⟨0x307, rfl, by decide, by decide⟩
    · refine .inr ⟨_, List.mem_singleton.1 mem, le_apply_lowerShifts (by omega), fun kelvin => ?_⟩
      have never : lowerShifts.toList.all (fun s =>
          (s.last : Int) + s.distance < 0x212A || 0x212A < (s.first : Int) + s.distance) = true := by
        decide +kernel
      obtain stays | ⟨s, among, first, last, moved⟩ := lowerShifts.apply_cases c.toNat
      · rw [stays] at kelvin
        rw [kelvin] at stays
        revert stays
        decide +kernel
      · have here := List.all_eq_true.1 never s among
        simp only [Bool.or_eq_true, decide_eq_true_eq] at here
        omega

/-- A character below the small letters is one of the text that was put in lower case. -/
theorem mem_of_mem_lower {s : Text} {y : Char} (some : y ≠ '\x00') (low : y.toNat < 97)
    (mem : y ∈ s.lower) : y ∈ s := by
  refine forall_mem_lower (P := fun y => y ≠ '\x00' → y.toNat < 97 → y ∈ s) ?_ ?_ ?_ y mem some low
  · exact fun _ low => absurd low (by decide)
  · exact fun _ low => absurd low (by decide)
  · intro c among y lowered some low
    obtain ⟨rfl, -⟩ | ⟨n, rfl, high, -⟩ := mem_lowerChar_cases lowered
    · exact among
    · exact absurd rfl (ofNat_ne_of_lt some low high)

/-- The character is no capital letter of ASCII and not the Kelvin sign. -/
def IsLowered (y : Char) : Prop := ¬ (65 ≤ y.toNat ∧ y.toNat ≤ 90) ∧ y.toNat ≠ 0x212A

instance (y : Char) : Decidable (IsLowered y) := inferInstanceAs (Decidable (_ ∧ _))

theorem isLowered_of_mem_lower {s : Text} : ∀ y ∈ s.lower, IsLowered y := by
  refine forall_mem_lower (by decide) (by decide) fun c _ y lowered => ?_
  obtain ⟨rfl, other, ascii⟩ | ⟨n, rfl, high, other⟩ := mem_lowerChar_cases lowered
  · exact ⟨other, by omega⟩
  · rcases toNat_ofNat n with code | none
    · rw [IsLowered, code]
      omega
    · rw [none]
      decide

theorem foldCase_eq_of_sameFold {x y : Char} (like : sameFold x y = true) : foldCase x = foldCase y := by
  simp only [sameFold, Bool.or_eq_true, beq_iff_eq, Bool.and_eq_true] at like
  rcases like with rfl | ⟨-, same⟩
  · rfl
  · exact same

/-- In lower case, only a small letter itself folds to it. The long s is the exception for one letter. -/
theorem IsLowered.eq_of_foldCase {t x : Char} (lowered : IsLowered t) (letter : 97 ≤ x.toNat)
    (ascii : x.toNat < 128) (other : x ≠ 's') (same : foldCase t = x) : t = x := by
  have far : foldShifts.toList.all (fun s => 128 ≤ (s.first : Int) + s.distance ||
      s.first == s.last && (s.first == 0x17F && s.distance == -268 || s.first == 0x212A)) = true := by
    decide +kernel
  simp only [foldCase] at same
  split at same
  · split at same
    · rename_i capital
      simp only [Bool.and_eq_true, decide_eq_true_eq] at capital
      exact absurd capital lowered.1
    · exact same
  · have code : (Char.ofNat (foldShifts.apply t.toNat)).toNat = x.toNat := congrArg Char.toNat same
    rcases toNat_ofNat (foldShifts.apply t.toNat) with moved | none
    · obtain stays | ⟨s, among, first, last, shifted⟩ := foldShifts.apply_cases t.toNat
      · omega
      · have here := List.all_eq_true.1 far s among
        simp only [Bool.or_eq_true, Bool.and_eq_true, decide_eq_true_eq, beq_iff_eq] at here
        rcases here with high | ⟨single, ⟨longS, distance⟩ | kelvin⟩
        · omega
        · refine absurd (Char.ext (UInt32.toNat.inj ?_)) other
          change x.toNat = 115
          omega
        · exact absurd (by omega) lowered.2
    · rw [none] at same
      rw [← same] at letter
      exact absurd letter (by decide)

end SourceAudit

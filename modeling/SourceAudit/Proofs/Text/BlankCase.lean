/-
Module: SourceAudit.Proofs.Text.BlankCase
Layer: Proofs
Purpose: Blanks have no case. Up to case a blank is like itself only, lower case makes blanks of blanks
  only, and the lower case of a text up to a blank does not depend on what follows.
Main exports: forall_blank, eq_or_solid_of_sameFold, solid_of_sameFold, mem_of_blank_mem_lower,
  exists_lower_append_blank, startsWith_lower_append
-/
import SourceAudit.Proofs.Text.LineEnd
import SourceAudit.Proofs.Text.LowerCase

namespace SourceAudit

/-- What holds of the blanks in the list holds of every blank. -/
theorem forall_blank {P : Char → Bool} (all : blankChars.all P = true) {b : Char} (blank : isBlank b = true) :
    P b = true :=
  List.all_eq_true.1 all b (mem_blankChars blank)

/-- A blank is neither the first character of all nor a letter of ASCII. -/
theorem toNat_of_isBlank {b : Char} (blank : isBlank b = true) :
    0 < b.toNat ∧ (b.toNat < 65 ∨ 127 < b.toNat) := by
  simpa using forall_blank (P := fun b => 0 < b.toNat && (b.toNat < 65 || 127 < b.toNat)) (by decide) blank

/-- No run of the table moves anything onto a blank. -/
def ShiftTable.sparesBlanks (table : ShiftTable) : Bool :=
  table.toList.all fun s => blankChars.all fun b =>
    (b.toNat : Int) < s.first + s.distance || s.last + s.distance < (b.toNat : Int)

theorem ShiftTable.eq_of_apply {table : ShiftTable} (spares : table.sparesBlanks = true) {c b : Char}
    (blank : isBlank b = true) (moved : Char.ofNat (table.apply c.toNat) = b) : c = b := by
  have positive := (toNat_of_isBlank blank).1
  have code : table.apply c.toNat = b.toNat := by
    rw [← moved]
    refine ((toNat_ofNat _).resolve_right fun none => ?_).symm
    rw [← moved, none] at positive
    exact absurd positive (by decide)
  obtain stays | ⟨s, among, first, last, shifted⟩ := table.apply_cases c.toNat
  · rw [stays] at code
    exact Char.toNat_inj.1 code
  · have apart := List.all_eq_true.1 (List.all_eq_true.1 spares s among) b (mem_blankChars blank)
    rw [Bool.or_eq_true, decide_eq_true_eq, decide_eq_true_eq] at apart
    omega

theorem sparesBlanks_foldShifts : foldShifts.sparesBlanks = true := by decide +kernel

theorem sparesBlanks_lowerShifts : lowerShifts.sparesBlanks = true := by decide +kernel

/-- A letter of ASCII made small is no blank. -/
theorem ofNat_ne_blank {b : Char} (blank : isBlank b = true) {n : Nat} (letter : (65 ≤ n && n ≤ 90) = true) :
    Char.ofNat (n + 32) ≠ b := by
  rintro rfl
  obtain ⟨positive, outside⟩ := toNat_of_isBlank blank
  rw [Bool.and_eq_true, decide_eq_true_eq, decide_eq_true_eq] at letter
  rcases toNat_ofNat (n + 32) with code | none
  · omega
  · rw [none] at positive
    exact absurd positive (by decide)

theorem eq_of_foldCase_blank {x b : Char} (blank : isBlank b = true) (same : foldCase x = foldCase b) : x = b := by
  have fixed : foldCase b = b := by
    simpa using forall_blank (P := fun b => foldCase b == b) (by decide +kernel) blank
  have folded := same.trans fixed
  simp only [foldCase] at folded
  split at folded
  · split at folded
    · exact absurd folded (ofNat_ne_blank blank ‹_›)
    · exact folded
  · exact ShiftTable.eq_of_apply sparesBlanks_foldShifts blank folded

/-- Up to case, a blank is like itself only. -/
theorem eq_or_solid_of_sameFold {c d : Char} (like : sameFold c d = true) :
    c = d ∨ isBlank c = false ∧ isBlank d = false := by
  have same := foldCase_eq_of_sameFold like
  cases blank : isBlank c with
  | true => exact .inl (eq_of_foldCase_blank blank same.symm).symm
  | false =>
    cases blank' : isBlank d with
    | true => exact .inl (eq_of_foldCase_blank blank' same)
    | false => exact .inr ⟨rfl, rfl⟩

theorem isBlank_eq_of_sameFold {c d : Char} (like : sameFold c d = true) : isBlank c = isBlank d := by
  rcases eq_or_solid_of_sameFold like with rfl | ⟨solid, solid'⟩
  · rfl
  · rw [solid, solid']

theorem solid_of_sameFold {cs xs : Text} (like : List.Forall₂ (fun c x => sameFold c x = true) cs xs)
    (solid : ∀ c ∈ cs, isBlank c = false) : ∀ x ∈ xs, isBlank x = false := by
  induction like with
  | nil => exact fun x mem => nomatch mem
  | cons here _ ih =>
    obtain ⟨first, others⟩ := List.forall_mem_cons.1 solid
    exact List.forall_mem_cons.2 ⟨(isBlank_eq_of_sameFold here).symm.trans first, ih others⟩

theorem eq_of_mem_lowerChar {c b : Char} (blank : isBlank b = true) (mem : b ∈ lowerChar c) : c = b := by
  rw [lowerChar] at mem
  split at mem
  · obtain rfl := List.mem_singleton.1 mem
    split
    · rename_i letter
      rw [if_pos letter] at blank
      exact absurd rfl (ofNat_ne_blank blank letter)
    · rfl
  · split at mem
    · have hard : ∀ y ∈ ['i', Char.ofNat 0x307], isBlank y = false := List.forall_iff_forall_mem.1 (by decide)
      rw [hard b mem] at blank
      cases blank
    · exact ShiftTable.eq_of_apply sparesBlanks_lowerShifts blank (List.mem_singleton.1 mem).symm

/-- A blank of a text in lower case is one of the text. -/
theorem mem_of_blank_mem_lower {s : Text} {b : Char} (blank : isBlank b = true) (mem : b ∈ s.lower) : b ∈ s := by
  have all : ∀ y ∈ s.lower, isBlank y = true → y ∈ s := by
    refine forall_mem_lower (P := fun y => isBlank y = true → y ∈ s) ?_ ?_ fun c among y lowered blank => ?_
    · exact fun blank => absurd blank (by decide)
    · exact fun blank => absurd blank (by decide)
    · rwa [← eq_of_mem_lowerChar blank lowered]
  exact all b mem blank

/-- A blank is neither a letter nor skipped over, so nothing behind it counts. -/
theorem leadsToCased_append_blank (cs : List Char) {b : Char} (blank : isBlank b = true) (r : List Char) :
    leadsToCased (cs ++ b :: r) = leadsToCased cs := by
  have plain : isCaseIgnorable b = false ∧ isCased b = false := by
    simpa using forall_blank (P := fun b => !isCaseIgnorable b && !isCased b) (by decide +kernel) blank
  induction cs with
  | nil =>
    rw [leadsToCased, List.nil_append, List.dropWhile_cons_of_neg (by simp [plain.1])]
    exact plain.2
  | cons c cs ih =>
    rw [leadsToCased, leadsToCased] at ih ⊢
    rw [List.cons_append, List.dropWhile_cons, List.dropWhile_cons]
    cases isCaseIgnorable c with
    | true => exact ih
    | false => rfl

theorem exists_lowercaseFrom_append_blank (before done u : List Char) {b : Char} (blank : isBlank b = true)
    (r : List Char) :
    ∃ more, lowercaseFrom before done (u ++ b :: r) = lowercaseFrom before done u ++ b :: more := by
  have same : b.toNat ≠ 0x3A3 ∧ lowerChar b = [b] := by
    simpa using forall_blank (P := fun b => b.toNat != 0x3A3 && lowerChar b == [b]) (by decide +kernel) blank
  induction u generalizing before done with
  | nil =>
    obtain ⟨more, whole⟩ := exists_lowercaseFrom_eq (b :: before) (b :: done) r
    exact ⟨more, by simp [lowercaseFrom, same, whole]⟩
  | cons c u ih =>
    rw [List.cons_append, lowercaseFrom, lowercaseFrom, leadsToCased_append_blank u blank]
    exact ih _ _

/-- The lower case of a text up to a blank does not depend on what follows. -/
theorem exists_lower_append_blank (u : Text) {b : Char} (blank : isBlank b = true) (r : Text) :
    ∃ more, Text.lower (u ++ b :: r) = Text.lower u ++ b :: more :=
  exists_lowercaseFrom_append_blank [] [] u blank r

/-- Whether the lower case of a text starts with a word does not depend on what follows the text behind a
    blank. -/
theorem startsWith_lower_append (u : Text) {r word : Text} (next : ∀ x ∈ r.head?, isBlank x = true)
    (solid : ∀ c ∈ word, isBlank c = false) :
    (Text.lower (u ++ r)).startsWith word = (Text.lower u).startsWith word := by
  cases r with
  | nil => rw [List.append_nil]
  | cons b r =>
    have blank := next b rfl
    have absent : b ∉ word := by
      intro inside
      rw [solid b inside] at blank
      cases blank
    obtain ⟨more, lowered⟩ := exists_lower_append_blank u blank r
    rw [lowered, Text.startsWith, Text.startsWith, Bool.eq_iff_iff, List.isPrefixOf_iff_prefix,
      List.isPrefixOf_iff_prefix]
    exact Text.prefix_append_cons absent

end SourceAudit

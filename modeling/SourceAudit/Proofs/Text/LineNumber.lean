/-
Module: SourceAudit.Proofs.Text.LineNumber
Layer: Proofs
Purpose: Line numbers stay within the text, in whatever way the line is found: by a needle, by a
  position, by the index of the line starts, or by a needle in the lower case of the text. The scan for a
  needle finds the first line that includes it, and a look-up in the index counts the line feeds before
  the position. Lower case may make a text longer, but it neither makes nor takes a line feed.
Main exports: Text.HasLine, Text.length_lines, Text.lineIndex_lineAt, Text.lineHolding_eq,
  Text.eq_of_cut?, Text.count_lower, Text.hasLine_lineAt, Text.hasLine_lineHolding,
  Text.hasLine_lineIndex, Text.hasLine_findIdx?
-/
import SourceAudit.Proofs.Text.LowerCase
import SourceAudit.Proofs.Text.Needle
import SourceAudit.Proofs.Text.WordChar
import SourceAudit.Text.Line

namespace SourceAudit

namespace Text

/-- Every line feed ends a line, and there is a last line. -/
theorem length_lines (t : Text) : t.lines.length = t.count '\n' + 1 := by
  induction t with
  | nil => rfl
  | cons c t ih =>
    rw [lines] at ih ⊢
    obtain ⟨rest, pieced⟩ := exists_pieces_eq (· == '\n') t
    by_cases feed : c = '\n'
    · subst feed
      rw [pieces_cons_of_separates rfl, List.length_cons, ih, List.count_cons_self]
    · rw [pieces_cons (by simpa using feed) pieced, List.count_cons_of_ne feed, ← ih, pieced]
      rfl

/-- The number of one of the lines of a text. -/
def HasLine (t : Text) (n : Nat) : Prop := 1 ≤ n ∧ n ≤ t.lines.length

theorem hasLine_iff {t : Text} {n : Nat} : t.HasLine n ↔ 1 ≤ n ∧ n ≤ t.count '\n' + 1 := by
  rw [HasLine, length_lines]

theorem hasLine_one (t : Text) : t.HasLine 1 := hasLine_iff.2 ⟨Nat.le_refl 1, by omega⟩

/-! ### Positions -/

theorem hasLine_lineAt (t : Text) (n : Nat) : t.HasLine (t.lineAt n) := by
  have some : (t.take n).count '\n' ≤ t.count '\n' := (List.take_sublist n t).count_le _
  rw [hasLine_iff, lineAt]
  omega

/-- The positions behind the line feeds of a text that starts at position `offset`. -/
def feedEnds (offset : Nat) : (t : Text) → List Nat
  | [] => []
  | c :: cs => if c = '\n' then (offset + 1) :: feedEnds (offset + 1) cs else feedEnds (offset + 1) cs

theorem toList_lineStarts (offset : Nat) (found : Array Nat) (t : Text) :
    (lineStarts offset found t).toList = found.toList ++ feedEnds offset t := by
  induction t generalizing offset found with
  | nil => rw [lineStarts, feedEnds, List.append_nil]
  | cons c t ih =>
    rw [lineStarts, ih, feedEnds]
    split
    · rw [Array.toList_push, List.append_assoc, List.singleton_append]
    · rfl

theorem lt_of_mem_feedEnds {offset b : Nat} {t : Text} (mem : b ∈ feedEnds offset t) : offset < b := by
  induction t generalizing offset with
  | nil => cases mem
  | cons c t ih =>
    rw [feedEnds] at mem
    split at mem
    · rcases List.mem_cons.1 mem with rfl | later
      · exact Nat.lt_succ_self offset
      · exact Nat.lt_of_succ_lt (ih later)
    · exact Nat.lt_of_succ_lt (ih mem)

theorem pairwise_feedEnds (offset : Nat) (t : Text) : (feedEnds offset t).Pairwise (· < ·) := by
  induction t generalizing offset with
  | nil => exact List.Pairwise.nil
  | cons c t ih =>
    rw [feedEnds]
    split
    · exact List.pairwise_cons.2 ⟨fun b mem => lt_of_mem_feedEnds mem, ih (offset + 1)⟩
    · exact ih (offset + 1)

/-- The line feeds of the first `n` characters end at most `n` characters behind the start. -/
theorem countP_feedEnds (offset n : Nat) (t : Text) :
    (feedEnds offset t).countP (· ≤ offset + n) = (t.take n).count '\n' := by
  induction t generalizing offset n with
  | nil => simp [feedEnds]
  | cons c t ih =>
    cases n with
    | zero => exact countP_le_eq_zero fun b mem => lt_of_mem_feedEnds mem
    | succ n =>
      have rest := ih (offset + 1) n
      rw [Nat.add_right_comm, Nat.add_assoc] at rest
      rw [feedEnds, List.take_succ_cons]
      split
      · rename_i feed
        subst feed
        rw [List.countP_cons_of_pos (by simp), rest, List.count_cons_self]
      · rename_i other
        rw [rest, List.count_cons_of_ne other]

/-- A look-up in the index of the line starts counts the line feeds before the position. -/
theorem lineIndex_lineAt (t : Text) (n : Nat) : t.lineIndex.lineAt n = t.lineAt n := by
  have starts : t.lineIndex.starts.toList = feedEnds 0 t := toList_lineStarts 0 #[] t
  have sorted : t.lineIndex.starts.toList.Pairwise (· < ·) := starts ▸ pairwise_feedEnds 0 t
  have counted := countUpTo_eq_countP sorted n (Nat.zero_le _) List.countP_le_length (Nat.le_refl _)
    (Nat.lt_trans (Nat.lt_succ_self _) Nat.lt_two_pow_self)
  have feeds := countP_feedEnds 0 n t
  rw [Nat.zero_add] at feeds
  simp only [Array.getElem?_toList, Array.length_toList, Nat.sub_zero] at counted
  rw [LineIndex.lineAt, lineAt, counted, starts, feeds]

theorem hasLine_lineIndex (t : Text) (n : Nat) : t.HasLine (t.lineIndex.lineAt n) := by
  rw [lineIndex_lineAt]
  exact hasLine_lineAt t n

/-- The place of a line among the lines. -/
theorem hasLine_findIdx? {t : Text} {holds : Text → Bool} {i : Nat}
    (found : t.lines.findIdx? holds = some i) : t.HasLine (i + 1) := by
  obtain ⟨within, -⟩ := List.findIdx?_eq_some_iff_findIdx_eq.1 found
  exact ⟨by omega, within⟩

/-! ### Needles -/

/-- A needle without line feeds starts a text exactly if it starts the first line. -/
theorem isPrefixOf_eq_firstLine {needle line t : Text} {rest : List Text} (absent : '\n' ∉ needle)
    (lined : t.lines = line :: rest) : needle.isPrefixOf t = needle.isPrefixOf line := by
  have whole : ∀ c ∈ needle, (!(c == '\n')) = true := by
    intro c mem
    have other : c ≠ '\n' := fun feed => absent (feed ▸ mem)
    simpa using other
  obtain ⟨_, first⟩ := exists_pieces_eq (· == '\n') t
  obtain ⟨rfl, -⟩ := List.cons.inj (lined.symm.trans first)
  rw [Bool.eq_iff_iff, List.isPrefixOf_iff_prefix, List.isPrefixOf_iff_prefix,
    prefix_takeWhile_iff whole]

/-- The scan for a needle without line feeds stops on the first line that includes it. -/
theorem lineOfNeedle?_eq {needle : Text} (absent : '\n' ∉ needle) (line : Nat) (t : Text) :
    lineOfNeedle? needle line t = (t.lines.findIdx? (·.includes needle)).map (line + ·) := by
  induction t generalizing line with
  | nil => cases needle <;> rfl
  | cons c t ih =>
    by_cases feed : c = '\n'
    · subst feed
      have lined : lines ('\n' :: t) = [] :: lines t := pieces_cons_of_separates rfl t
      have next : (line + 1 + ·) = (line + ·) ∘ (· + 1) := by
        funext i
        exact Nat.add_right_comm line 1 i
      have empty : needle.isPrefixOf [] = includes [] needle := by cases needle <;> rfl
      rw [lineOfNeedle?, isPrefixOf_eq_firstLine absent lined, lined, List.findIdx?_cons, empty]
      split
      · rfl
      · rw [if_pos rfl, ih, Option.map_map, next]
    · obtain ⟨rest, first⟩ := exists_pieces_eq (· == '\n') t
      have lined : lines (c :: t) = (c :: t.takeWhile fun x => !(x == '\n')) :: rest :=
        pieces_cons (by simpa using feed) first
      rw [lineOfNeedle?, isPrefixOf_eq_firstLine absent lined, lined, List.findIdx?_cons, includes]
      split
      · rename_i here
        rw [here, Bool.true_or, if_pos rfl]
        rfl
      · rename_i elsewhere
        rw [Bool.not_eq_true] at elsewhere
        rw [ih, lines, first, List.findIdx?_cons, elsewhere, Bool.false_or]

/-- The first line that includes the needle, or the first of all. -/
theorem lineHolding_eq (t needle : Text) :
    t.lineHolding needle = ((t.lines.findIdx? (·.includes needle)).map (· + 1)).getD 1 := by
  rw [lineHolding]
  split
  · rename_i feed
    have nowhere : t.lines.findIdx? (·.includes needle) = none := by
      refine List.findIdx?_eq_none_iff.2 fun line mem => ?_
      rw [← Bool.not_eq_true, includes_iff]
      exact fun held => not_mem_of_mem_lines mem (held.subset (List.contains_iff_mem.1 feed))
    rw [nowhere]
    rfl
  · rename_i absent
    rw [lineOfNeedle?_eq (by simpa using absent)]
    simp only [Nat.add_comm]

/-- A needle that is nowhere counts as standing on the first line. -/
theorem hasLine_lineHolding (t needle : Text) : t.HasLine (t.lineHolding needle) := by
  rw [lineHolding_eq]
  cases found : t.lines.findIdx? (·.includes needle) with
  | none => exact hasLine_one t
  | some i => exact hasLine_findIdx? found

theorem eq_of_cutFrom {needle passed t before after : Text}
    (found : cutFrom needle passed t = some (before, after)) :
    passed.reverse ++ t = before ++ needle ++ after := by
  induction t generalizing passed with
  | nil =>
    rw [cutFrom] at found
    split at found
    · rename_i empty
      obtain ⟨rfl, rfl⟩ := Prod.mk.inj (Option.some.inj found)
      simp [List.isEmpty_iff.1 empty]
    · cases found
  | cons c t ih =>
    rw [cutFrom] at found
    split at found
    · rename_i here
      obtain ⟨rest, whole⟩ := List.isPrefixOf_iff_prefix.1 here
      obtain ⟨rfl, rfl⟩ := Prod.mk.inj (Option.some.inj found)
      rw [← whole, List.drop_left, List.append_assoc]
    · rw [← ih found, List.reverse_cons, List.append_assoc, List.singleton_append]

/-- A cut leaves out the needle and nothing else. -/
theorem eq_of_cut? {t needle before after : Text} (found : t.cut? needle = some (before, after)) :
    t = before ++ needle ++ after := eq_of_cutFrom found

/-! ### Lower case -/

theorem count_lowerChar (c : Char) : (lowerChar c).count '\n' = [c].count '\n' := by
  by_cases feed : c = '\n'
  · subst feed
    decide
  · rw [List.count_singleton, if_neg (by simpa using feed), List.count_eq_zero, lowerChar]
    split
    · split
      · rename_i letter
        simp only [Bool.and_eq_true, decide_eq_true_eq] at letter
        have other := ofNat_ne_of_lt (y := '\n') (by decide) (by decide) (n := c.toNat + 32) (by omega)
        simpa using other.symm
      · simpa using Ne.symm feed
    · split
      · decide
      · have other := ofNat_ne_of_lt (y := '\n') (by decide) (by decide)
          (n := lowerShifts.apply c.toNat) (le_apply (by decide +kernel) (by omega))
        simpa using other.symm

theorem count_lowercaseFrom (before done t : List Char) :
    (lowercaseFrom before done t).count '\n' = done.count '\n' + t.count '\n' := by
  induction t generalizing before done with
  | nil => rw [lowercaseFrom, List.count_reverse, List.count_nil, Nat.add_zero]
  | cons c t ih =>
    have here : (if c.toNat == 0x3A3 then
        [if leadsToCased before && !leadsToCased t then Char.ofNat 0x3C2 else Char.ofNat 0x3C3]
        else lowerChar c).count '\n' = [c].count '\n' := by
      split
      · rename_i sigma
        obtain rfl : c = Char.ofNat 0x3A3 := Char.ext (UInt32.toNat.inj (by simpa using sigma))
        split <;> decide
      · exact count_lowerChar c
    have parts : (c :: t).count '\n' = [c].count '\n' + t.count '\n' := by
      rw [← List.count_append]
      rfl
    rw [lowercaseFrom, ih, List.count_append, List.count_reverse, here, parts]
    omega

/-- Lower case neither makes nor takes a line feed. -/
theorem count_lower (t : Text) : t.lower.count '\n' = t.count '\n' :=
  (count_lowercaseFrom [] [] t).trans (by simp)

end Text

end SourceAudit

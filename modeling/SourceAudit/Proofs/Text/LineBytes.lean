/-
Module: SourceAudit.Proofs.Text.LineBytes
Layer: Proofs
Purpose: Where the lines of a text lie among its bytes. A line starts behind the lines before it and
  their line feeds. Every offset up to the end belongs to one line, the one that the line feeds before
  the offset count, and a line includes a needle exactly if the needle stands at one of its offsets. So
  a search through the lines and the offset of the first occurrence lead to the same line.
Main exports: Text.lineStart, Text.LineCovers, Text.StandsAt, Text.eq_append_line, Text.lineOfByte_eq,
  Text.lineCovers_iff, Text.includes_iff_standsAt, Text.lineHolding_of_isLeast, Text.locators_agree
-/
import SourceAudit.Proofs.Text.Bytes
import SourceAudit.Proofs.Text.LineNumber
import Mathlib.Data.Nat.Find
import Mathlib.Order.Bounds.Defs

namespace SourceAudit.Text

/-- What stands before the line with index `i`: the lines before it, each with its line feed. -/
def beforeLine (t : Text) (i : Nat) : Text := (t.lines.take i).flatMap (· ++ ['\n'])

/-- What stands behind it: the lines after it, each with the line feed before it. -/
def afterLine (t : Text) (i : Nat) : Text := (t.lines.drop (i + 1)).flatMap ('\n' :: ·)

/-- The offset of the first byte of the line with index `i`. -/
def lineStart (t : Text) (i : Nat) : Nat := (bytes (t.beforeLine i)).length

/-- Line `n` of a text, counted from 1, covers the byte offsets from its start to the place just after
    its last byte. -/
def LineCovers (t : Text) (n o : Nat) : Prop :=
  ∃ i line, n = i + 1 ∧ t.lines[i]? = some line ∧
    t.lineStart i ≤ o ∧ o ≤ t.lineStart i + (bytes line).length

/-- The bytes of `needle` stand at the byte offset `o` of the text. -/
def StandsAt (t needle : Text) (o : Nat) : Prop := bytes needle <+: (bytes t).drop o

instance (t needle : Text) (o : Nat) : Decidable (t.StandsAt needle o) :=
  inferInstanceAs (Decidable (_ <+: _))

section

variable {t line needle : Text} {i n o : Nat}

/-! ### The layout of the lines -/

/-- Each line of a text parts it in three. -/
theorem eq_append_line (here : t.lines[i]? = some line) :
    t = t.beforeLine i ++ line ++ t.afterLine i := by
  obtain ⟨inside, rfl⟩ := List.getElem?_eq_some_iff.1 here
  rw [beforeLine, afterLine, ← unlines_append_cons, ← List.drop_eq_getElem_cons inside,
    List.take_append_drop, unlines_lines]

theorem bytes_eq_append_line (here : t.lines[i]? = some line) :
    bytes t = bytes (t.beforeLine i) ++ (bytes line ++ bytes (t.afterLine i)) := by
  rw [← bytes_append, ← bytes_append, ← List.append_assoc, ← eq_append_line here]

theorem beforeLine_succ (here : t.lines[i]? = some line) :
    t.beforeLine (i + 1) = t.beforeLine i ++ (line ++ ['\n']) := by
  rw [beforeLine, List.take_add_one, here, List.flatMap_append, Option.toList_some,
    List.flatMap_singleton]
  rfl

/-- The next line starts behind the line feed that ends this one. -/
theorem lineStart_succ (here : t.lines[i]? = some line) :
    t.lineStart (i + 1) = t.lineStart i + (bytes line).length + 1 := by
  rw [lineStart, beforeLine_succ here, bytes_append, bytes_append, List.length_append,
    List.length_append, Nat.add_assoc]
  rfl

theorem count_beforeLine (within : i ≤ t.lines.length) : (t.beforeLine i).count '\n' = i := by
  induction i with
  | zero => rfl
  | succ i ih =>
    have here := List.getElem?_eq_getElem (Nat.lt_of_succ_le within)
    have whole := not_mem_of_mem_lines (List.mem_of_getElem? here)
    rw [beforeLine_succ here, List.count_append, ih (Nat.le_of_succ_le within), List.count_append,
      List.count_eq_zero.2 whole]
    rfl

/-- The last line ends where the text does. -/
theorem exists_last_line (t : Text) : ∃ i line, t.lines[i]? = some line ∧
    t.lineStart i + (bytes line).length = (bytes t).length := by
  have inside : t.count '\n' < t.lines.length := by
    rw [length_lines]
    exact Nat.lt_succ_self _
  have here := List.getElem?_eq_getElem inside
  refine ⟨_, _, here, ?_⟩
  have none : t.afterLine (t.count '\n') = [] := by
    rw [afterLine, List.drop_of_length_le (Nat.le_of_eq t.length_lines), List.flatMap_nil]
  rw [bytes_eq_append_line here, none, List.length_append, List.length_append]
  rfl

/-! ### Lines by offset -/

theorem feedsWithin_eq (t : Text) (o found : Nat) :
    t.feedsWithin o found = found + ((bytes t).take o).count '\n'.toUInt8 := by
  induction t generalizing o found with
  | nil => rw [feedsWithin, bytes_nil, List.take_nil, List.count_nil, Nat.add_zero]
  | cons c t ih =>
    cases o with
    | zero => rfl
    | succ o =>
      by_cases feed : c = '\n'
      · subst feed
        rw [feedsWithin, if_pos rfl, ih, bytes_cons_of_ascii (by decide), List.take_succ_cons,
          List.count_cons_self]
        change found + 1 + ((bytes t).take o).count _ = _
        omega
      · -- The other characters have no byte of a line feed, whether all of theirs are read or some.
        have none : '\n'.toUInt8 ∉ (String.utf8EncodeChar c).take (o + 1) := by
          intro mem
          exact feed ((toUInt8_mem_utf8EncodeChar_iff (by decide)).1 (List.mem_of_mem_take mem)).symm
        rw [feedsWithin, if_neg feed, ih, bytes_cons, List.take_append, List.count_append,
          List.count_eq_zero.2 none, String.length_utf8EncodeChar, Nat.zero_add]

/-- The line of an offset counts the bytes of line feeds before it. -/
theorem lineOfByte_eq (t : Text) (o : Nat) :
    t.lineOfByte o = ((bytes t).take o).count '\n'.toUInt8 + 1 := by
  rw [lineOfByte, feedsWithin_eq, Nat.zero_add]

/-- The line of a character is the line of its first byte. -/
theorem lineOfByte_length_take (t : Text) (k : Nat) :
    t.lineOfByte (bytes (t.take k)).length = t.lineAt k := by
  have parts : bytes t = bytes (t.take k) ++ bytes (t.drop k) := by
    rw [← bytes_append, List.take_append_drop]
  rw [lineOfByte_eq, parts, List.take_left, count_bytes (by decide), lineAt]

theorem lineOfByte_mono (t : Text) {o o' : Nat} (le : o ≤ o') : t.lineOfByte o ≤ t.lineOfByte o' := by
  have fewer := (List.take_prefix_take_left le (l := bytes t)).sublist.count_le '\n'.toUInt8
  rw [lineOfByte_eq, lineOfByte_eq]
  exact Nat.succ_le_succ fewer

theorem lineCovers_succ_iff (here : t.lines[i]? = some line) :
    t.LineCovers (i + 1) o ↔ t.lineStart i ≤ o ∧ o ≤ t.lineStart i + (bytes line).length := by
  constructor
  · rintro ⟨j, line', same, here', covers⟩
    obtain rfl := Nat.succ.inj same
    obtain rfl := Option.some.inj (here.symm.trans here')
    exact covers
  · exact fun covers => ⟨i, line, rfl, here, covers⟩

/-- From an offset of a line on, the rest of the line stands and then what is behind the line. -/
theorem drop_lineStart_add (here : t.lines[i]? = some line) {k : Nat} (inside : k ≤ (bytes line).length) :
    (bytes t).drop (t.lineStart i + k) = (bytes line).drop k ++ bytes (t.afterLine i) := by
  rw [bytes_eq_append_line here, lineStart, List.drop_length_add_append,
    List.drop_append_of_le_length inside]

/-- A line that covers an offset is the line of the offset. -/
theorem LineCovers.eq_lineOfByte (covers : t.LineCovers n o) : n = t.lineOfByte o := by
  obtain ⟨i, line, rfl, here, start, stop⟩ := covers
  obtain ⟨k, rfl⟩ := Nat.exists_eq_add_of_le start
  have inside : k ≤ (bytes line).length := Nat.add_le_add_iff_left.1 stop
  have within : i ≤ t.lines.length := Nat.le_of_lt (List.getElem?_eq_some_iff.1 here).1
  have whole : '\n'.toUInt8 ∉ (bytes line).take k := by
    intro mem
    exact not_mem_of_mem_lines (List.mem_of_getElem? here)
      ((toUInt8_mem_bytes_iff (by decide)).1 (List.mem_of_mem_take mem))
  rw [lineOfByte_eq, bytes_eq_append_line here, lineStart, List.take_length_add_append,
    List.take_append_of_le_length inside, List.count_append, count_bytes (by decide),
    count_beforeLine within, List.count_eq_zero.2 whole]

/-- Up to the end of a line, each offset is covered by it or by an earlier one. -/
theorem exists_lineCovers_of_le (here : t.lines[i]? = some line)
    (stop : o ≤ t.lineStart i + (bytes line).length) : ∃ n, t.LineCovers n o := by
  induction i generalizing line with
  | zero => exact ⟨1, (lineCovers_succ_iff here).2 ⟨Nat.zero_le o, stop⟩⟩
  | succ i ih =>
    rcases Nat.lt_or_ge o (t.lineStart (i + 1)) with earlier | start
    · have inside : i < t.lines.length := Nat.lt_of_succ_lt (List.getElem?_eq_some_iff.1 here).1
      have before := List.getElem?_eq_getElem inside
      rw [lineStart_succ before] at earlier
      exact ih before (Nat.le_of_lt_succ earlier)
    · exact ⟨i + 2, (lineCovers_succ_iff here).2 ⟨start, stop⟩⟩

/-- Up to the end of a text, an offset is covered by its own line and by no other. -/
theorem lineCovers_iff (within : o ≤ (bytes t).length) : t.LineCovers n o ↔ n = t.lineOfByte o := by
  constructor
  · exact LineCovers.eq_lineOfByte
  · rintro rfl
    obtain ⟨i, line, last, stop⟩ := exists_last_line t
    rw [← stop] at within
    obtain ⟨n, covers⟩ := exists_lineCovers_of_le last within
    exact covers.eq_lineOfByte ▸ covers

/-! ### Lines by needle -/

theorem standsAt_append (before needle after : Text) :
    (before ++ needle ++ after).StandsAt needle (bytes before).length := by
  rw [StandsAt, List.append_assoc, bytes_append, bytes_append, List.drop_left]
  exact List.prefix_append _ _

theorem StandsAt.isInfix (stands : t.StandsAt needle o) : needle <:+: t := by
  rcases eq_or_ne needle [] with rfl | nonempty
  · exact List.nil_infix
  · obtain ⟨before, after, rfl, -⟩ := exists_of_prefix_drop_bytes nonempty stands
    exact ⟨before, after, rfl⟩

theorem standsAt_lineStart (here : t.lines[i]? = some line) : t.StandsAt line (t.lineStart i) := by
  have stands := standsAt_append (t.beforeLine i) line (t.afterLine i)
  rwa [← eq_append_line here] at stands

/-- A line includes a needle without line feeds exactly if the needle stands at an offset of the line. -/
theorem includes_iff_standsAt (here : t.lines[i]? = some line) (absent : '\n' ∉ needle) :
    line.includes needle = true ↔ ∃ o, t.LineCovers (i + 1) o ∧ t.StandsAt needle o := by
  rw [includes_iff]
  constructor
  · rintro ⟨a, b, rfl⟩
    have stands := standsAt_append (t.beforeLine i ++ a) needle (b ++ t.afterLine i)
    have layout := eq_append_line here
    simp only [List.append_assoc] at stands layout
    rw [← layout] at stands
    refine ⟨_, (lineCovers_succ_iff here).2 ⟨?_, ?_⟩, stands⟩
    · rw [bytes_append, List.length_append, lineStart]
      omega
    · simp only [bytes_append, List.length_append, lineStart]
      omega
  · rintro ⟨o, covers, stands⟩
    obtain ⟨start, stop⟩ := (lineCovers_succ_iff here).1 covers
    obtain ⟨k, rfl⟩ := Nat.exists_eq_add_of_le start
    have inside : k ≤ (bytes line).length := Nat.add_le_add_iff_left.1 stop
    rw [StandsAt, drop_lineStart_add here inside] at stands
    -- The needle has no line feed, so its bytes end before the next line or with the text.
    have own : line.StandsAt needle k := by
      cases later : t.lines.drop (i + 1) with
      | nil =>
        rwa [afterLine, later, List.flatMap_nil, bytes_nil, List.append_nil] at stands
      | cons l ls =>
        rw [afterLine, later, List.flatMap_cons, List.cons_append, bytes_cons_of_ascii (by decide)] at stands
        exact (prefix_append_cons fun mem => absent ((toUInt8_mem_bytes_iff (by decide)).1 mem)).1 stands
    exact own.isInfix

/-- A needle that occurs has a first occurrence. -/
theorem exists_isLeast_standsAt (occurs : needle <:+: t) :
    ∃ o ≤ (bytes t).length, IsLeast {o | t.StandsAt needle o} o := by
  obtain ⟨before, after, whole⟩ := occurs
  have stands := standsAt_append before needle after
  rw [whole] at stands
  have somewhere : ∃ o, t.StandsAt needle o := ⟨_, stands⟩
  refine ⟨Nat.find somewhere, ?_, Nat.find_spec somewhere, fun o other => Nat.find_min' somewhere other⟩
  have within : (bytes before).length ≤ (bytes t).length := by
    rw [← whole, List.append_assoc, bytes_append, List.length_append]
    exact Nat.le_add_right _ _
  exact Nat.le_trans (Nat.find_min' somewhere stands) within

/-- The first line that includes a needle is the line of its first occurrence. -/
theorem lineHolding_of_isLeast (absent : '\n' ∉ needle) (within : o ≤ (bytes t).length)
    (least : IsLeast {o | t.StandsAt needle o} o) : t.lineHolding needle = t.lineOfByte o := by
  have covers : t.LineCovers (t.lineOfByte o) o := (lineCovers_iff within).2 rfl
  have ⟨i, line, number, here, _⟩ := covers
  rw [number] at covers
  have found : t.lines.findIdx? (·.includes needle) = some i := by
    obtain ⟨inside, rfl⟩ := List.getElem?_eq_some_iff.1 here
    refine List.findIdx?_eq_some_iff_getElem.2 ⟨inside, ?_, ?_⟩
    · exact (includes_iff_standsAt here absent).2 ⟨o, covers, least.1⟩
    · intro j earlier held
      have before := List.getElem?_eq_getElem (Nat.lt_trans earlier inside)
      obtain ⟨o', covers', stands⟩ := (includes_iff_standsAt before absent).1 held
      have later := t.lineOfByte_mono (least.2 stands)
      rw [number, ← covers'.eq_lineOfByte] at later
      omega
  rw [lineHolding_eq, found, number]
  rfl

end

/-- A needle, an offset and a position lead to the same line. A needle without line feeds that occurs
    stands first at some byte offset, and the first line that includes it is the line of that offset. Each
    line stands where its byte range starts, and the line of an offset up to the end of the text is the
    one line whose range covers it. The index of the line starts gives a character the line of its first
    byte. -/
theorem locators_agree (t : Text) :
    (∀ needle : Text, '\n' ∉ needle → needle <:+: t →
      ∃ o, IsLeast {o | t.StandsAt needle o} o ∧ t.lineHolding needle = t.lineOfByte o) ∧
    (∀ i line, t.lines[i]? = some line → t.StandsAt line (t.lineStart i)) ∧
    (∀ o ≤ (bytes t).length, ∀ n, t.LineCovers n o ↔ n = t.lineOfByte o) ∧
    ∀ k, t.lineIndex.lineAt k = t.lineOfByte (bytes (t.take k)).length := by
  refine ⟨?_, fun i line here => standsAt_lineStart here, fun o within n => lineCovers_iff within, ?_⟩
  · intro needle absent occurs
    obtain ⟨o, within, least⟩ := exists_isLeast_standsAt occurs
    exact ⟨o, least, lineHolding_of_isLeast absent within least⟩
  · intro k
    rw [lineIndex_lineAt, lineOfByte_length_take]

/-- The letter stands first at byte 5, on the second line. That line covers the offset inside the letter
    before it, and the third covers the end of the text. -/
theorem locators_agree_on_greek :
    ('\n' ∉ "β".toList ∧ "β".toList <:+: "é\nπβ\nβ".toList ∧
      IsLeast {o | StandsAt "é\nπβ\nβ".toList "β".toList o} 5 ∧
      lineHolding "é\nπβ\nβ".toList "β".toList = lineOfByte "é\nπβ\nβ".toList 5) ∧
    LineCovers "é\nπβ\nβ".toList 2 4 ∧ LineCovers "é\nπβ\nβ".toList 3 10 := by
  obtain ⟨byNeedle, -, byOffset, -⟩ := locators_agree "é\nπβ\nβ".toList
  have here : StandsAt "é\nπβ\nβ".toList "β".toList 5 := by decide +kernel
  have later : ∀ o < 5, ¬ StandsAt "é\nπβ\nβ".toList "β".toList o := by decide +kernel
  obtain ⟨o, least, same⟩ := byNeedle "β".toList (by decide) (by decide)
  obtain rfl : o = 5 := Nat.le_antisymm (least.2 here)
    (Nat.le_of_not_lt fun below => later o below least.1)
  exact ⟨⟨by decide, by decide, least, same⟩,
    (byOffset 4 (by decide +kernel) 2).2 (by decide +kernel),
    (byOffset 10 (by decide +kernel) 3).2 (by decide +kernel)⟩

end SourceAudit.Text

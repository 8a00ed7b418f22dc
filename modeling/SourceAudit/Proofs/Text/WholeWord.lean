/-
Module: SourceAudit.Proofs.Text.WholeWord
Layer: Proofs
Purpose: Words that stand whole in a text, with a word edge on both sides. Counting finds exactly these,
  whether it goes through the text or through the runs of its word characters.
Main exports: StandsWhole, Text.mem_pieces_iff, countFrom_pos_iff, Text.countWord_pos_iff
-/
import SourceAudit.Text.WholeWord
import SourceAudit.Proofs.Text.Needle
import SourceAudit.Proofs.Text.Words

namespace SourceAudit

/-- The word stands somewhere in the text with a word edge on both sides. -/
def StandsWhole (word t : Text) : Prop :=
  word ≠ [] ∧ ∃ u v, t = u ++ (word ++ v) ∧ isWordEdge u.getLast? (word ++ v) = true ∧
    isWordEdge word.getLast? v = true

/-! ### Runs of word characters -/

theorem Text.takeWhile_ends (separates : Char → Bool) (t : Text) :
    ∃ v, t = t.takeWhile (fun c => !separates c) ++ v ∧ ∀ x ∈ v.head?, separates x = true := by
  refine ⟨_, List.takeWhile_append_dropWhile.symm, fun x first => ?_⟩
  rw [← List.find?_not_eq_head?_dropWhile] at first
  simpa using List.find?_some first

/-- Every piece but the first one stands behind a separator. -/
theorem Text.exists_of_mem_tail_pieces {separates : Char → Bool} {p t : Text}
    (mem : p ∈ (pieces separates t).tail) : ∃ u x v, t = u ++ x :: (p ++ v) ∧ separates x = true ∧
      ∀ y ∈ v.head?, separates y = true := by
  induction t with
  | nil => cases mem
  | cons x t ih =>
    obtain ⟨rest, pieced⟩ := exists_pieces_eq separates t
    cases h : separates x with
    | true =>
      rw [pieces_cons_of_separates h, List.tail_cons, pieced] at mem
      rcases List.mem_cons.1 mem with rfl | mem
      · obtain ⟨v, split, behind⟩ := takeWhile_ends separates t
        exact ⟨[], x, v, congrArg _ split, h, behind⟩
      · obtain ⟨u, y, v, split, rest⟩ := ih (pieced ▸ mem)
        exact ⟨x :: u, y, v, congrArg _ split, rest⟩
    | false =>
      rw [pieces_cons h pieced, List.tail_cons] at mem
      obtain ⟨u, y, v, split, rest⟩ := ih (pieced ▸ mem)
      exact ⟨x :: u, y, v, congrArg _ split, rest⟩

/-- A text without separators that stands between two of them, or at an end of the text, is a piece. -/
theorem Text.mem_pieces_iff {separates : Char → Bool} {p t : Text} : p ∈ pieces separates t ↔
    (∀ x ∈ p, separates x = false) ∧ ∃ u v, t = u ++ (p ++ v) ∧ (∀ x ∈ u.getLast?, separates x = true) ∧
      ∀ x ∈ v.head?, separates x = true := by
  constructor
  · intro mem
    refine ⟨fun x => separates_eq_false_of_mem_pieces mem, ?_⟩
    obtain ⟨rest, pieced⟩ := exists_pieces_eq separates t
    rw [pieced] at mem
    rcases List.mem_cons.1 mem with rfl | mem
    · obtain ⟨v, split, behind⟩ := takeWhile_ends separates t
      exact ⟨[], v, split, nofun, behind⟩
    · obtain ⟨u, x, v, split, separator, behind⟩ := exists_of_mem_tail_pieces (by rw [pieced]; exact mem)
      exact ⟨u ++ [x], v, by simp [split], by simp [separator], behind⟩
  · rintro ⟨free, u, v, rfl, before, behind⟩
    have single := pieces_eq_singleton free
    have back : ∃ rest, pieces separates (p ++ v) = p :: rest := by
      cases v with
      | nil => exact ⟨[], by rw [List.append_nil, single]⟩
      | cons y v => exact ⟨_, by rw [pieces_append (behind y rfl), single]; rfl⟩
    obtain ⟨rest, pieced⟩ := back
    rcases u.eq_nil_or_concat with rfl | ⟨u, x, rfl⟩
    · rw [List.nil_append, pieced]
      exact List.mem_cons_self
    · rw [List.concat_eq_append, List.append_assoc, List.singleton_append,
        pieces_append (before x (by simp)), pieced]
      simp

/-- Before a word character there is a word edge exactly if no other one stands there. -/
theorem isWordEdge_head_iff {before : Option Char} {t : Text} {x : Char} (first : t.head? = some x)
    (word : isWordChar x = true) : isWordEdge before t = true ↔ ∀ y ∈ before, isWordChar y = false := by
  cases before <;> simp [isWordEdge, first, word]

theorem isWordEdge_last_iff {t : Text} {x : Char} (word : isWordChar x = true) :
    isWordEdge (some x) t = true ↔ ∀ y ∈ t.head?, isWordChar y = false := by
  cases first : t.head? <;> simp [isWordEdge, first, word]

/-- A word with word characters at its ends stands whole where none stands beside it. -/
theorem standsWhole_iff {word t : Text} {x y : Char} (first : word.head? = some x)
    (last : word.getLast? = some y) (letter : isWordChar x = true) (letter' : isWordChar y = true) :
    StandsWhole word t ↔ ∃ u v, t = u ++ (word ++ v) ∧ (∀ c ∈ u.getLast?, isWordChar c = false) ∧
      ∀ c ∈ v.head?, isWordChar c = false := by
  have some : word ≠ [] := by
    rintro rfl
    cases first
  have front (v : Text) : (word ++ v).head? = Option.some x := by
    rw [List.head?_append, first]
    rfl
  simp only [StandsWhole, last, isWordEdge_head_iff (front _) letter, isWordEdge_last_iff letter',
    ne_eq, some, not_false_iff, true_and]

/-- The runs of word characters are the words of word characters that stand whole. -/
theorem mem_wordRuns_iff {word t : Text} (some : word ≠ []) (letters : ∀ x ∈ word, isWordChar x = true) :
    word ∈ t.wordRuns ↔ StandsWhole word t := by
  have first := List.head?_eq_some_head some
  have last := List.getLast?_eq_some_getLast some
  rw [Text.wordRuns, List.mem_filter, Text.mem_pieces_iff, standsWhole_iff first last
    (letters _ (List.head_mem some)) (letters _ (List.getLast_mem some))]
  simpa [some] using fun _ _ _ _ _ => letters

/-! ### Counting through a text -/

theorem le_countFrom (word : Text) (before : Option Char) (skip found : Nat) (rest : Text) :
    found ≤ countFrom word before skip found rest := by
  induction rest generalizing before skip found with
  | nil => exact Nat.le_refl _
  | cons c cs ih =>
    cases skip with
    | succ skip => exact ih _ _ _
    | zero =>
      rw [countFrom]
      split
      · exact (Nat.le_succ _).trans (ih _ _ _)
      · exact ih _ _ _

/-- Something is counted exactly if the word stands somewhere. -/
theorem countFrom_pos_iff {word rest : Text} {before : Option Char} : 0 < countFrom word before 0 0 rest ↔
    ∃ u c v, rest = u ++ c :: v ∧ standsAt word (u.getLast?.or before) (c :: v) = true := by
  induction rest generalizing before with
  | nil => simp [countFrom]
  | cons c cs ih =>
    rw [countFrom]
    split
    · rename_i here
      have counted := le_countFrom word (some c) (word.length - 1) 1 cs
      exact ⟨fun _ => ⟨[], c, cs, rfl, here⟩, fun _ => counted⟩
    · rename_i absent
      have behind (u : Text) : (c :: u).getLast?.or before = u.getLast?.or (some c) := by
        cases last : u.getLast? <;> simp [List.getLast?_cons, last]
      rw [ih]
      constructor
      · rintro ⟨u, d, v, rfl, there⟩
        exact ⟨c :: u, d, v, rfl, by rwa [behind]⟩
      · rintro ⟨u, d, v, split, there⟩
        cases u with
        | nil =>
          obtain ⟨rfl, rfl⟩ := List.cons.inj split
          exact absurd there absent
        | cons x u =>
          obtain ⟨rfl, rfl⟩ := List.cons.inj split
          exact ⟨u, d, v, rfl, by rwa [← behind]⟩

theorem countFrom_pos_iff_standsWhole {word t : Text} (some : word ≠ []) :
    0 < countFrom word none 0 0 t ↔ StandsWhole word t := by
  rw [countFrom_pos_iff, StandsWhole, and_iff_right some]
  simp only [Option.or_none, standsAt, Bool.and_eq_true, List.isPrefixOf_iff_prefix]
  constructor
  · rintro ⟨u, c, v, rfl, ⟨before, v', split⟩, behind⟩
    rw [← split, List.drop_left] at behind
    exact ⟨u, v', by rw [split], by rwa [split], behind⟩
  · rintro ⟨u, v, rfl, before, behind⟩
    obtain ⟨c, rest, split⟩ := List.exists_cons_of_ne_nil (show word ++ v ≠ [] by simp [some])
    refine ⟨u, c, rest, by rw [split], ⟨split ▸ before, v, split⟩, ?_⟩
    rwa [← split, List.drop_left]

/-- The count of a word is positive exactly if the word stands whole in the text. -/
theorem Text.countWord_pos_iff [Engine] {t word : Text} {n : Nat}
    (counted : t.wordIndex.countWord word = .ok n) :
    0 < n ↔ StandsWhole word t := by
  rw [WordIndex.countWord] at counted
  split at counted
  · rename_i short
    simp only [Bool.and_eq_true, List.all_eq_true, Bool.not_eq_true', List.isEmpty_eq_false_iff] at short
    obtain ⟨⟨letters, some⟩, -⟩ := short
    obtain rfl := Except.ok.inj counted
    rw [← mem_wordRuns_iff some letters, Text.wordIndex, Frequencies.count_of, List.count_pos_iff]
  · rw [Text.wordIndex, Text.countWord] at counted
    split at counted
    · rename_i none
      obtain rfl := Except.ok.inj counted
      simp [StandsWhole, List.isEmpty_iff.1 none]
    · rename_i some
      split at counted
      · obtain rfl := Except.ok.inj counted
        exact countFrom_pos_iff_standsWhole (by simpa using some)
      · cases counted

end SourceAudit

/-
Module: SourceAudit.Proofs.Text.Tokens
Layer: Proofs
Purpose: The tokens of a text are its longest runs of word characters. Between two word characters there
  is no word edge, so a word of word characters stands whole only where it is a token, and counting it
  from left to right counts the tokens that are equal to it. Tokens do not reach over a separator, so
  their numbers add up there.
Main exports: IsWord, CountableWord, Text.isTokenAt, Text.tokenCount, Text.word_induction,
  Text.wordRuns_append_cons, Text.tokenCount_eq, countFrom_eq, CountableWord.countWord_eq,
  Text.tokenCount_append_cons, WordIndex.countWord_eq
-/
import SourceAudit.Proofs.Text.WholeWord

namespace SourceAudit

/-- A text of word characters that is not empty. -/
def IsWord (w : Text) : Prop := w ≠ [] ∧ ∀ c ∈ w, isWordChar c = true

/-- A word of word characters that the engine counts. -/
structure CountableWord [Engine] where
  chars : Text
  isWord : IsWord chars
  accepted : Engine.accepts (.word chars) = true

namespace Text

/-- Whether a word stands at a position of the text with no word character beside it. For a word of word
    characters this says that it is one of the longest runs of them. -/
def isTokenAt (t word : Text) (i : Nat) : Bool :=
  word.isPrefixOf (t.drop i) && (t.take i).getLast?.all (fun c => !isWordChar c) &&
    (t.drop (i + word.length)).head?.all fun c => !isWordChar c

/-- The number of positions at which a word is a token of the text. -/
def tokenCount (t word : Text) : Nat := (List.range t.length).countP fun i => t.isTokenAt word i

end Text

section

variable {w word r : Text} {x : Char}

/-! ### Words one after the other -/

/-- A text is a word, or a word and a text behind a separator. -/
theorem Text.word_induction {P : Text → Prop} (last : ∀ w : Text, (∀ y ∈ w, isWordChar y = true) → P w)
    (next : ∀ (w : Text) (x : Char) (r : Text), (∀ y ∈ w, isWordChar y = true) → isWordChar x = false →
      P r → P (w ++ x :: r)) (t : Text) : P t := by
  have extended (t : Text) : ∀ w : Text, (∀ y ∈ w, isWordChar y = true) → P (w ++ t) := by
    induction t with
    | nil =>
      intro w letters
      rw [List.append_nil]
      exact last w letters
    | cons x t ih =>
      intro w letters
      cases letter : isWordChar x with
      | false => exact next w x t letters letter (ih [] nofun)
      | true =>
        have longer := ih (w ++ [x]) (List.forall_mem_append.2 ⟨letters, by simpa using letter⟩)
        rwa [List.append_assoc] at longer
  exact extended t [] nofun

theorem Text.wordRuns_append_cons (separator : isWordChar x = false) (t t' : Text) :
    wordRuns (t ++ x :: t') = wordRuns t ++ wordRuns t' := by
  rw [wordRuns, pieces_append (by rw [separator]; rfl), List.filter_append]
  rfl

theorem Text.filter_wordRuns_of_letters (letters : ∀ y ∈ w, isWordChar y = true) {holds : Text → Bool}
    (empty : holds [] = false) : (wordRuns w).filter holds = [w].filter holds := by
  rw [wordRuns, pieces_eq_singleton fun y mem => by rw [letters y mem]; rfl]
  cases w with
  | nil => simp [empty]
  | cons y w => rfl

theorem Text.count_wordRuns_of_letters (isWord : IsWord word) (letters : ∀ y ∈ w, isWordChar y = true) :
    (wordRuns w).count word = if word = w then 1 else 0 := by
  have empty : ([] == word) = false := beq_eq_false_iff_ne.2 isWord.1.symm
  rw [List.count_eq_countP, List.countP_eq_length_filter, filter_wordRuns_of_letters letters empty]
  by_cases same : word = w
  · simp [same]
  · simp [same, Ne.symm same]

/-! ### Tokens by their positions -/

theorem IsWord.not_mem (isWord : IsWord word) (separator : isWordChar x = false) : x ∉ word := by
  intro mem
  rw [isWord.2 x mem] at separator
  cases separator

/-- A text that begins with a word is this word, if both go on as long as there are word characters. -/
theorem IsWord.eq_of_prefix (isWord : IsWord word) (letters : ∀ y ∈ w, isWordChar y = true)
    (start : word <+: w ++ r) (ending : ∀ c ∈ ((w ++ r).drop word.length).head?, isWordChar c = false)
    (apart : ∀ c ∈ r.head?, isWordChar c = false) : word = w := by
  obtain ⟨rest, split⟩ := start
  rw [← split, List.drop_left] at ending
  have longest {u v : Text} (letters : ∀ y ∈ u, isWordChar y = true)
      (apart : ∀ c ∈ v.head?, isWordChar c = false) : (u ++ v).takeWhile isWordChar = u := by
    rw [List.takeWhile_append_of_pos letters]
    cases v with
    | nil => simp
    | cons c v => simp [apart c rfl]
  rw [← longest isWord.2 ending, split, longest letters apart]

namespace Text

variable {i : Nat}

theorem isTokenAt_iff {t : Text} : t.isTokenAt word i = true ↔ word <+: t.drop i ∧
    (∀ c ∈ (t.take i).getLast?, isWordChar c = false) ∧
      ∀ c ∈ (t.drop (i + word.length)).head?, isWordChar c = false := by
  simp only [isTokenAt, Bool.and_eq_true, List.isPrefixOf_iff_prefix, Option.all_eq_true,
    Bool.not_eq_true', Option.mem_def, and_assoc]

section

variable (isWord : IsWord word) (separator : isWordChar x = false) (a b : Text)
include isWord separator

/-- Up to a separator, the tokens are those of the text before it. -/
theorem isTokenAt_append_cons_left (within : i ≤ a.length) :
    (a ++ x :: b).isTokenAt word i = a.isTokenAt word i := by
  rw [Bool.eq_iff_iff, isTokenAt_iff, isTokenAt_iff, List.drop_append_of_le_length within,
    List.take_append_of_le_length within, prefix_append_cons (isWord.not_mem separator)]
  refine and_congr_right fun start => and_congr_right fun _ => ?_
  have inside : i + word.length ≤ a.length := by
    have := start.length_le
    rw [List.length_drop] at this
    omega
  rw [List.drop_append_of_le_length inside]
  cases a.drop (i + word.length) with
  | nil => simp [separator]
  | cons c rest => rfl

omit isWord in
/-- Behind a separator, the tokens are those of the text there. -/
theorem isTokenAt_append_cons_right :
    (a ++ x :: b).isTokenAt word (a.length + 1 + i) = b.isTokenAt word i := by
  have front : a ++ x :: b = (a ++ [x]) ++ b := by simp
  have length : a.length + 1 = (a ++ [x]).length := by simp
  have before : (∀ c ∈ ((a ++ [x]) ++ b.take i).getLast?, isWordChar c = false) ↔
      ∀ c ∈ (b.take i).getLast?, isWordChar c = false := by
    rw [List.getLast?_append]
    cases (b.take i).getLast? with
    | none => simp [separator]
    | some c => simp
  rw [Bool.eq_iff_iff, isTokenAt_iff, isTokenAt_iff, front, length, Nat.add_assoc,
    List.drop_length_add_append, List.drop_length_add_append, List.take_length_add_append, before]

theorem tokenCount_append_cons :
    (a ++ x :: b).tokenCount word = a.tokenCount word + b.tokenCount word := by
  have here : (a ++ x :: b).isTokenAt word a.length = false := by
    rw [isTokenAt_append_cons_left isWord separator a b (Nat.le_refl _), ← Bool.not_eq_true,
      isTokenAt_iff, List.drop_length, List.prefix_nil]
    exact fun h => isWord.1 h.1
  have left : (List.range a.length).countP (fun i => (a ++ x :: b).isTokenAt word i) =
      a.tokenCount word :=
    List.countP_congr fun i mem => by
      rw [isTokenAt_append_cons_left isWord separator a b (Nat.le_of_lt (List.mem_range.1 mem))]
  have right : (List.range b.length).countP
      ((fun i => (a ++ x :: b).isTokenAt word i) ∘ fun i => a.length + 1 + i) = b.tokenCount word :=
    List.countP_congr fun i _ => by rw [Function.comp_apply, isTokenAt_append_cons_right separator]
  have length : (a ++ x :: b).length = a.length + 1 + b.length := by
    rw [List.length_append, List.length_cons]
    omega
  rw [tokenCount, length, List.range_add, List.countP_append, List.range_succ, List.countP_append,
    List.countP_singleton, here, left, List.countP_map, right]
  simp

end

/-- A text of word characters is a token of itself and has no other one. -/
theorem tokenCount_of_letters (isWord : IsWord word) (letters : ∀ y ∈ w, isWordChar y = true) :
    w.tokenCount word = if word = w then 1 else 0 := by
  cases w with
  | nil => simp [tokenCount, isWord.1]
  | cons c w =>
    have first : isTokenAt (c :: w) word 0 = true ↔ word = c :: w := by
      rw [isTokenAt_iff, List.drop_zero, Nat.zero_add]
      constructor
      · rintro ⟨start, -, ending⟩
        exact isWord.eq_of_prefix (r := []) letters (by simpa using start) (by simpa using ending) nofun
      · rintro rfl
        simp
    have later : (List.range w.length).countP ((fun i => isTokenAt (c :: w) word i) ∘ Nat.succ) = 0 := by
      rw [List.countP_eq_zero]
      rintro i - token
      obtain ⟨-, before, -⟩ := isTokenAt_iff.1 token
      obtain ⟨y, last⟩ := Option.ne_none_iff_exists'.1
        (show ((c :: w).take (i + 1)).getLast? ≠ none by simp)
      have letter := letters y (List.mem_of_mem_take (List.mem_of_getLast? last))
      rw [before y last] at letter
      cases letter
    rw [tokenCount, List.length_cons, List.range_succ_eq_map, List.countP_cons, List.countP_map, later,
      Nat.zero_add]
    simp only [first]

/-- The tokens that are equal to a word are counted among the runs of word characters. -/
theorem tokenCount_eq (isWord : IsWord word) (t : Text) : t.tokenCount word = t.wordRuns.count word := by
  induction t using word_induction with
  | last w letters => rw [tokenCount_of_letters isWord letters, count_wordRuns_of_letters isWord letters]
  | next w x r letters separator ih =>
    rw [tokenCount_append_cons isWord separator, wordRuns_append_cons separator, List.count_append, ih,
      tokenCount_of_letters isWord letters, count_wordRuns_of_letters isWord letters]

end Text

/-! ### Counting through a text -/

variable {v : Text} {k : Nat}

/-- Behind a separator, a text is counted like from its start. -/
theorem countFrom_of_separator (separator : isWordChar x = false) :
    countFrom word (some x) 0 k r = countFrom word none 0 k r := by
  cases r with
  | nil => rfl
  | cons c r =>
    have same : standsAt word (some x) (c :: r) = standsAt word none (c :: r) := by
      simp [standsAt, isWordEdge, separator]
    rw [countFrom, countFrom, same]

/-- At a separator no word is counted. -/
theorem countFrom_separator_cons (isWord : IsWord word) (separator : isWordChar x = false)
    (before : Option Char) : countFrom word before 0 k (x :: r) = countFrom word none 0 k r := by
  have absent : standsAt word before (x :: r) = false := by
    obtain ⟨c, rest, rfl⟩ := List.exists_cons_of_ne_nil isWord.1
    have other : c ≠ x := fun same => isWord.not_mem separator (same ▸ List.mem_cons_self)
    simp [standsAt, List.isPrefixOf, other]
  rw [countFrom, absent]
  exact countFrom_of_separator separator

/-- Where the word characters end, it does not matter what stands before. -/
theorem countFrom_of_apart (isWord : IsWord word) (apart : ∀ c ∈ v.head?, isWordChar c = false)
    (before : Option Char) : countFrom word before 0 k v = countFrom word none 0 k v := by
  cases v with
  | nil => rfl
  | cons x v =>
    rw [countFrom_separator_cons isWord (apart x rfl), countFrom_separator_cons isWord (apart x rfl)]

/-- From inside a run of word characters, nothing is counted up to its end. -/
theorem countFrom_letters (isWord : IsWord word) (letters : ∀ y ∈ w, isWordChar y = true)
    (apart : ∀ c ∈ v.head?, isWordChar c = false) {b : Char} (letter : isWordChar b = true) {skip : Nat}
    (inside : skip ≤ w.length) : countFrom word (some b) skip k (w ++ v) = countFrom word none 0 k v := by
  induction w generalizing b skip with
  | nil =>
    obtain rfl := Nat.le_zero.1 inside
    exact countFrom_of_apart isWord apart _
  | cons c w ih =>
    obtain ⟨first, others⟩ := List.forall_mem_cons.1 letters
    cases skip with
    | succ skip =>
      rw [List.cons_append, countFrom]
      exact ih others first (Nat.le_of_succ_le_succ inside)
    | zero =>
      have absent : standsAt word (some b) (c :: (w ++ v)) = false := by
        simp [standsAt, isWordEdge, letter, first]
      rw [List.cons_append, countFrom, absent]
      exact ih others first (Nat.zero_le _)

/-- At the first letter of a run, the word stands if it is the whole run. -/
theorem standsAt_run_iff (isWord : IsWord word) {c : Char} (letters : ∀ y ∈ c :: w, isWordChar y = true)
    (apart : ∀ x ∈ v.head?, isWordChar x = false) :
    standsAt word none (c :: (w ++ v)) = true ↔ word = c :: w := by
  obtain ⟨y, last⟩ := Option.ne_none_iff_exists'.1 (mt List.getLast?_eq_none_iff.1 isWord.1)
  have letter := isWord.2 y (List.mem_of_getLast? last)
  have first := letters c List.mem_cons_self
  simp only [standsAt, Bool.and_eq_true, List.isPrefixOf_iff_prefix, last, isWordEdge_last_iff letter,
    isWordEdge_head_iff (List.head?_cons) first]
  constructor
  · rintro ⟨⟨-, start⟩, ending⟩
    exact isWord.eq_of_prefix letters start ending apart
  · rintro rfl
    exact ⟨⟨by simp, List.prefix_append (c :: w) v⟩, by simpa using apart⟩

/-- A run of word characters is counted if it is the word. -/
theorem countFrom_run (isWord : IsWord word) (letters : ∀ y ∈ w, isWordChar y = true)
    (apart : ∀ c ∈ v.head?, isWordChar c = false) :
    countFrom word none 0 k (w ++ v) = countFrom word none 0 (k + if word = w then 1 else 0) v := by
  cases w with
  | nil => simp [isWord.1]
  | cons c w =>
    obtain ⟨first, others⟩ := List.forall_mem_cons.1 letters
    have stands := standsAt_run_iff isWord letters apart
    rw [List.cons_append, countFrom]
    by_cases same : word = c :: w
    · rw [if_pos (stands.2 same), if_pos same]
      exact countFrom_letters isWord others apart first (by simp [same])
    · rw [if_neg (mt stands.1 same), if_neg same]
      exact countFrom_letters isWord others apart first (Nat.zero_le _)

/-- Counting a word from left to right finds all tokens that are equal to it. -/
theorem countFrom_eq (isWord : IsWord word) (t : Text) (k : Nat) :
    countFrom word none 0 k t = k + t.tokenCount word := by
  induction t using Text.word_induction generalizing k with
  | last w letters =>
    have counted := countFrom_run (v := []) (k := k) isWord letters nofun
    rw [List.append_nil] at counted
    rw [counted, Text.tokenCount_of_letters isWord letters]
    rfl
  | next w x r letters separator ih =>
    rw [countFrom_run isWord letters (by simpa using separator), countFrom_separator_cons isWord separator,
      ih, Text.tokenCount_append_cons isWord separator, Text.tokenCount_of_letters isWord letters,
      Nat.add_assoc]

theorem CountableWord.countWord_eq [Engine] (word : CountableWord) (t : Text) :
    t.countWord word.chars = .ok (t.tokenCount word.chars) := by
  rw [Text.countWord, if_neg (by simpa using word.isWord.1), if_pos word.accepted,
    countFrom_eq word.isWord, Nat.zero_add]

/-- The runs of word characters and the whole text give the same count. -/
theorem WordIndex.countWord_eq [Engine] (t word : Text) : t.wordIndex.countWord word = t.countWord word := by
  rw [WordIndex.countWord]
  split
  · rename_i plain
    simp only [Bool.and_eq_true, List.all_eq_true, Bool.not_eq_true', List.isEmpty_eq_false_iff] at plain
    obtain ⟨⟨letters, some⟩, accepted⟩ := plain
    have counted := CountableWord.countWord_eq ⟨word, ⟨some, letters⟩, accepted⟩ t
    rw [counted, Text.tokenCount_eq ⟨some, letters⟩, Text.wordIndex, Frequencies.count_of]
  · rfl

end

/-- A word that overlaps itself is a token only where it stands alone. -/
example : Text.tokenCount "aa aaa b_aa (aa)" "aa" = 2 := by decide +kernel

end SourceAudit

/-
Module: SourceAudit.Proofs.Text.Words
Layer: Proofs
Purpose: The words of a text, set apart by blanks. They tell where a text can be cut at a word that
  stands between spaces, and what trimming leaves.
Main exports: blankWords, blankWords_append_cons, blankWords_word_append, isPadded_of_blankWords,
  trim_of_solid_ends, gap_unique_back, gap_unique_front, Text.seam_or_later, Text.seam_unique,
  suffix_behind, Text.not_infix_of_cut?, blankWords_of_cut?
-/
import SourceAudit.Proofs.Text.LineEnd
import SourceAudit.Proofs.Text.LineNumber

namespace SourceAudit

/-- The words of a text, set apart by blanks. -/
def blankWords (t : Text) : List Text := (t.pieces isBlank).filter fun word => !word.isEmpty

theorem blankWords_cons {b : Char} (blank : isBlank b = true) (t : Text) :
    blankWords (b :: t) = blankWords t := by
  rw [blankWords, Text.pieces_cons_of_separates blank]
  rfl

theorem blankWords_append_cons {b : Char} (blank : isBlank b = true) (t t' : Text) :
    blankWords (t ++ b :: t') = blankWords t ++ blankWords t' := by
  rw [blankWords, Text.pieces_append blank, List.filter_append]
  rfl

theorem blankWords_blanks_append {bs : Text} (blank : ∀ c ∈ bs, isBlank c = true) (t : Text) :
    blankWords (bs ++ t) = blankWords t := by
  induction bs with
  | nil => rfl
  | cons b bs ih =>
    obtain ⟨first, others⟩ := List.forall_mem_cons.1 blank
    rw [List.cons_append, blankWords_cons first, ih others]

/-- A text without separators is one piece. -/
theorem Text.pieces_eq_singleton {separates : Char → Bool} {t : Text}
    (whole : ∀ c ∈ t, separates c = false) : Text.pieces separates t = [t] := by
  induction t with
  | nil => rfl
  | cons c t ih =>
    obtain ⟨first, others⟩ := List.forall_mem_cons.1 whole
    exact Text.pieces_cons first (ih others)

theorem blankWords_solid {w : Text} (some : w ≠ []) (solid : ∀ c ∈ w, isBlank c = false) :
    blankWords w = [w] := by
  rw [blankWords, Text.pieces_eq_singleton solid]
  simp [some]

/-- A word before blanks. -/
theorem blankWords_word_append {w bs t : Text} (some : w ≠ []) (solid : ∀ c ∈ w, isBlank c = false)
    (gap : bs ≠ []) (blank : ∀ c ∈ bs, isBlank c = true) :
    blankWords (w ++ (bs ++ t)) = w :: blankWords t := by
  obtain ⟨b, bs, rfl⟩ := List.exists_cons_of_ne_nil gap
  obtain ⟨first, others⟩ := List.forall_mem_cons.1 blank
  rw [List.cons_append, blankWords_append_cons first, blankWords_solid some solid,
    blankWords_blanks_append others]
  rfl

theorem blankWords_eq_nil_iff {t : Text} : blankWords t = [] ↔ ∀ c ∈ t, isBlank c = true := by
  constructor
  · intro none
    induction t with
    | nil => exact fun _ mem => by cases mem
    | cons c t ih =>
      cases blank : isBlank c with
      | true =>
        rw [blankWords_cons blank] at none
        exact List.forall_mem_cons.2 ⟨blank, ih none⟩
      | false =>
        obtain ⟨rest, pieced⟩ := Text.exists_pieces_eq isBlank t
        rw [blankWords, Text.pieces_cons blank pieced] at none
        cases none
  · intro blank
    have whole := blankWords_blanks_append blank []
    rwa [List.append_nil] at whole

/-- A text with one word is that word between blanks. -/
theorem isPadded_of_blankWords {t w : Text} (one : blankWords t = [w]) : IsPadded t w := by
  induction t with
  | nil => cases one
  | cons c t ih =>
    cases blank : isBlank c with
    | true =>
      rw [blankWords_cons blank] at one
      obtain ⟨a, z, rfl, before, after⟩ := ih one
      exact ⟨c :: a, z, rfl, List.forall_mem_cons.2 ⟨blank, before⟩, after⟩
    | false =>
      have solid : ∀ x ∈ c :: t.takeWhile (fun x => !isBlank x), isBlank x = false :=
        List.forall_mem_cons.2 ⟨blank, fun x mem => by simpa using List.mem_takeWhile_imp mem⟩
      have parts : c :: t = (c :: t.takeWhile fun x => !isBlank x) ++
          t.dropWhile fun x => !isBlank x := by
        rw [List.cons_append, List.takeWhile_append_dropWhile]
      rw [parts] at one ⊢
      cases back : t.dropWhile fun x => !isBlank x with
      | nil =>
        rw [back, List.append_nil, blankWords_solid (by simp) solid] at one
        obtain rfl := List.singleton_inj.1 one
        exact ⟨[], [], by simp, by simp, by simp⟩
      | cons b z =>
        have next : isBlank b = true := by
          have stopped := List.head?_dropWhile_not (fun x => !isBlank x) t
          rw [back] at stopped
          simpa using stopped
        rw [back, blankWords_append_cons next, blankWords_solid (by simp) solid,
          List.singleton_append] at one
        obtain ⟨rfl, none⟩ := List.cons.inj one
        exact ⟨[], b :: z, rfl, by simp,
          List.forall_mem_cons.2 ⟨next, blankWords_eq_nil_iff.1 none⟩⟩

theorem Text.trimEnd_of_solid_end {u g : Text} (blank : ∀ c ∈ g, isBlank c = true)
    (last : ∀ c ∈ u.getLast?, isBlank c = false) : Text.trimEnd (u ++ g) = u := by
  rw [Text.trimEnd, List.reverse_append, List.dropWhile_append_of_pos (by simpa using blank)]
  cases reversed : u.reverse with
  | nil => simpa using reversed
  | cons x xs =>
    have solid : isBlank x = false := last x (by rw [← List.head?_reverse, reversed]; rfl)
    rw [List.dropWhile_cons_of_neg (by simp [solid]), ← reversed, List.reverse_reverse]

theorem trim_of_solid_ends {a core z : Text} (before : ∀ c ∈ a, isBlank c = true)
    (after : ∀ c ∈ z, isBlank c = true) (first : ∀ c ∈ core.head?, isBlank c = false)
    (last : ∀ c ∈ core.getLast?, isBlank c = false) : Text.trim (a ++ (core ++ z)) = core := by
  rw [Text.trim, Text.trimStart, List.dropWhile_append_of_pos before]
  cases core with
  | nil =>
    rw [List.nil_append, List.dropWhile_eq_nil_iff.2 (by simpa using after)]
    rfl
  | cons x xs =>
    have solid : isBlank x = false := first x rfl
    rw [List.cons_append, List.dropWhile_cons_of_neg (by simp [solid]), ← List.cons_append]
    exact Text.trimEnd_of_solid_end after last

theorem solid_first_append {u : Text} (v : Text) (some : u ≠ [])
    (first : ∀ c ∈ u.head?, isBlank c = false) : ∀ c ∈ (u ++ v).head?, isBlank c = false := by
  rwa [List.head?_append_of_ne_nil _ some]

theorem solid_last_append (u : Text) {v : Text} (some : v ≠ [])
    (last : ∀ c ∈ v.getLast?, isBlank c = false) : ∀ c ∈ (u ++ v).getLast?, isBlank c = false := by
  rwa [List.getLast?_append_of_ne_nil _ some]

theorem solid_last_concat (u : Text) {x : Char} (solid : isBlank x = false) :
    ∀ c ∈ (u ++ [x]).getLast?, isBlank c = false := by
  simpa using solid

theorem isWordChar_of_mem {w : Text} (letters : w.all isWordChar = true) {c : Char} (mem : c ∈ w) :
    isWordChar c = true :=
  List.all_eq_true.1 letters c mem

theorem solid_of_letters {w : Text} (letters : w.all isWordChar = true) :
    ∀ c ∈ w, isBlank c = false :=
  fun _ mem => isBlank_of_isWordChar (isWordChar_of_mem letters mem)

theorem letters_first_append {w : Text} (v : Text) (some : w ≠ []) (letters : w.all isWordChar = true) :
    ∀ c ∈ (w ++ v).head?, isBlank c = false :=
  solid_first_append v some fun c mem => solid_of_letters letters c (List.mem_of_mem_head? mem)

theorem letters_last_append (u : Text) {w : Text} (some : w ≠ []) (letters : w.all isWordChar = true) :
    ∀ c ∈ (u ++ w).getLast?, isBlank c = false :=
  solid_last_append u some fun c mem => solid_of_letters letters c (List.mem_of_mem_getLast? mem)

/-! ### Seams -/

/-- Blanks behind something that does not end in one are known from the whole. -/
theorem gap_unique_back {u u' g g' : Text} (same : u ++ g = u' ++ g')
    (blank : ∀ c ∈ g, isBlank c = true) (blank' : ∀ c ∈ g', isBlank c = true)
    (last : ∀ c ∈ u.getLast?, isBlank c = false) (last' : ∀ c ∈ u'.getLast?, isBlank c = false) :
    u = u' ∧ g = g' := by
  have front : u = u' := by
    rw [← Text.trimEnd_of_solid_end blank last, same, Text.trimEnd_of_solid_end blank' last']
  subst front
  exact ⟨rfl, List.append_cancel_left same⟩

/-- Blanks before something that does not begin with one are known from the whole. -/
theorem gap_unique_front {u u' g g' : Text} (same : g ++ u = g' ++ u')
    (blank : ∀ c ∈ g, isBlank c = true) (blank' : ∀ c ∈ g', isBlank c = true)
    (first : ∀ c ∈ u.head?, isBlank c = false) (first' : ∀ c ∈ u'.head?, isBlank c = false) :
    g = g' ∧ u = u' := by
  have reversed : u.reverse ++ g.reverse = u'.reverse ++ g'.reverse := by
    rw [← List.reverse_append, same, List.reverse_append]
  obtain ⟨back, front⟩ := gap_unique_back reversed (by simpa using blank) (by simpa using blank')
    (by simpa using first) (by simpa using first')
  exact ⟨List.reverse_inj.1 front, List.reverse_inj.1 back⟩

theorem Text.beq_eq_false_of_not_mem {t : Text} {x : Char} (absent : x ∉ t) :
    ∀ c ∈ t, (c == x) = false := by
  intro c mem
  rw [beq_eq_false_iff_ne]
  rintro rfl
  exact absent mem

/-- A seam lies at the first seam of another reading of the text, or behind it. -/
theorem Text.seam_or_later (set : Char → Bool) {u r w s : Text} {x y : Char}
    (same : u ++ x :: r = w ++ y :: s) (here : set x = true) (before : ∀ c ∈ w, set c = false) :
    (u = w ∧ x = y ∧ r = s) ∨ ∃ v, u = w ++ y :: v ∧ s = v ++ x :: r := by
  obtain ⟨as, rfl, rest⟩ | ⟨bs, rfl, rest⟩ := List.append_eq_append_iff.1 same
  · cases as with
    | nil =>
      obtain ⟨rfl, rfl⟩ := List.cons.inj rest
      exact .inl ⟨by simp, rfl, rfl⟩
    | cons a as =>
      obtain ⟨rfl, -⟩ := List.cons.inj rest
      rw [before x (by simp)] at here
      cases here
  · cases bs with
    | nil =>
      obtain ⟨rfl, rfl⟩ := List.cons.inj rest
      exact .inl ⟨by simp, rfl, rfl⟩
    | cons b bs =>
      obtain ⟨rfl, rfl⟩ := List.cons.inj rest
      exact .inr ⟨bs, rfl, rfl⟩

/-- What stands between blanks, where a text with solid ends does, is that text between blanks. -/
theorem isPadded_of_gaps {g g' a z body core : Text} (same : g ++ (body ++ g') = a ++ (core ++ z))
    (blank : ∀ c ∈ g, isBlank c = true) (blank' : ∀ c ∈ g', isBlank c = true)
    (before : ∀ c ∈ a, isBlank c = true) (after : ∀ c ∈ z, isBlank c = true) (some : core ≠ [])
    (first : ∀ c ∈ core.head?, isBlank c = false) (last : ∀ c ∈ core.getLast?, isBlank c = false) :
    IsPadded body core := by
  obtain ⟨as, blankFront, front⟩ : ∃ as, (∀ c ∈ as, isBlank c = true) ∧
      body ++ g' = (as ++ core) ++ z := by
    obtain ⟨as, rfl, rest⟩ | ⟨bs, rfl, rest⟩ := List.append_eq_append_iff.1 same
    · exact ⟨as, (List.forall_mem_append.1 before).2, by rw [rest, List.append_assoc]⟩
    · cases bs with
      | nil => exact ⟨[], by simp, rest.symm⟩
      | cons b bs =>
        have solid := solid_first_append z some first b (by rw [rest]; rfl)
        rw [blank b (by simp)] at solid
        cases solid
  obtain ⟨cs, whole, rfl⟩ | ⟨ds, rfl, rfl⟩ := List.append_eq_append_iff.1 front
  · have last' := solid_last_append as some last
    cases ending : cs.getLast? with
    | none =>
      obtain rfl := List.getLast?_eq_none_iff.1 ending
      exact ⟨as, [], by simpa using whole.symm, blankFront, by simp⟩
    | some c =>
      have mem : c ∈ cs := List.mem_of_getLast? ending
      have solid := last' c (by
        rw [whole, List.getLast?_append_of_ne_nil _ (List.ne_nil_of_mem mem), ending]
        rfl)
      rw [blank' c (List.mem_append_left z mem)] at solid
      cases solid
  · exact ⟨as, ds, by simp, blankFront, (List.forall_mem_append.1 after).1⟩

/-- A text with one character of a set splits there in one way only. -/
theorem Text.seam_unique (set : Char → Bool) {u r w s : Text} {x y : Char}
    (same : u ++ x :: r = w ++ y :: s) (here : set x = true) (before : ∀ c ∈ w, set c = false)
    (after : ∀ c ∈ s, set c = false) : u = w ∧ x = y ∧ r = s := by
  obtain only | ⟨v, -, rfl⟩ := Text.seam_or_later set same here before
  · exact only
  · rw [after x (by simp)] at here
    cases here

/-- An ending without the character of a seam lies behind the seam. -/
theorem suffix_behind {u v w s : Text} {x : Char} (same : u ++ v = w ++ x :: s) (absent : x ∉ v) :
    v <:+ s := by
  obtain ⟨as, rfl, rfl⟩ | ⟨bs, rfl, rest⟩ := List.append_eq_append_iff.1 same
  · simp at absent
  · cases bs with
    | nil =>
      rw [List.nil_append] at rest
      exact absurd (rest ▸ List.mem_cons_self) absent
    | cons b bs =>
      obtain ⟨rfl, rfl⟩ := List.cons.inj rest
      exact List.suffix_append bs v

/-! ### Cuts -/

theorem Text.not_includes_of_cutFrom {needle passed t : Text} (none : cutFrom needle passed t = none) :
    t.includes needle = false := by
  induction t generalizing passed with
  | nil =>
    rw [cutFrom] at none
    split at none
    · cases none
    · rename_i some
      rw [includes]
      simpa using some
  | cons c t ih =>
    rw [cutFrom] at none
    split at none
    · cases none
    · rename_i elsewhere
      rw [includes, ih none, Bool.or_false]
      exact Bool.eq_false_iff.2 elsewhere

/-- A text that cannot be cut at a needle does not hold it. -/
theorem Text.not_infix_of_cut? {t needle : Text} (none : t.cut? needle = none) : ¬ needle <:+: t := by
  rw [← includes_iff, not_includes_of_cutFrom none]
  exact Bool.false_ne_true

/-- A cut at a word between spaces divides the words of the text. -/
theorem blankWords_of_cut? {t w before after : Text} (some : w ≠ [])
    (solid : ∀ c ∈ w, isBlank c = false)
    (cut : t.cut? (' ' :: (w ++ [' '])) = Option.some (before, after)) :
    blankWords t = blankWords before ++ w :: blankWords after := by
  have space : isBlank ' ' = true := by decide
  have parts : t = before ++ ' ' :: (w ++ ' ' :: after) := by
    rw [Text.eq_of_cut? cut]
    simp
  rw [parts, blankWords_append_cons space, blankWords_append_cons space, blankWords_solid some solid]
  rfl

end SourceAudit

/-
Module: SourceAudit.Proofs.Improve.Renewal
Layer: Proofs
Purpose: Which declarations keep the dated keyword. It is replaced in one line at a time, and the search
  goes on behind the first character of the declared name. So a declaration stays if a line break stands
  between the keyword and the name, or if the keyword is itself taken for the name of another one; from
  every other declaration the keyword is gone.
Main exports: brokenVar, doubledVar, Renewed, Renewed.somewhere_declared_iff, renewed_replaceVar,
  occurs_varDeclaration_replaceVar
-/
import SourceAudit.Proofs.Improve.Declarations
import SourceAudit.Proofs.Pattern.Edits
import SourceAudit.Proofs.Pattern.Stretch
import SourceAudit.Proofs.Text.Trim

namespace SourceAudit

open Pattern

/-- A declaration with a line break between the dated keyword and the name. -/
def brokenVar : Pattern :=
  wordEdge ++ text "var" ++ blanks ++ text "\n" ++ blanks ++ .one isNameStart

/-- The dated keyword where a declaration with it should give a name, and again a declaration. -/
def doubledVar : Pattern :=
  wordEdge ++ text "var" ++ gap ++ text "var" ++ gap ++ .one isNameStart

/-! ### Declarations at the start of a text -/

/-- The text starts with the dated keyword, these blanks and the start of a name. -/
def DeclaredWith (gap a : Text) : Prop :=
  gap ≠ [] ∧ (∀ y ∈ gap, isBlank y = true) ∧
    ∃ x r, a = "var".toList ++ (gap ++ x :: r) ∧ isNameStart x = true

/-- The text starts with a declaration. -/
def Declared (a : Text) : Prop := ∃ gap, DeclaredWith gap a

/-- The text starts with a declaration that has keyword and name in one line. -/
def DeclaredInline (a : Text) : Prop := ∃ gap, DeclaredWith gap a ∧ '\n' ∉ gap

/-- The text starts with a declaration that has a line break before the name. -/
def DeclaredBroken (a : Text) : Prop := ∃ gap, DeclaredWith gap a ∧ '\n' ∈ gap

/-- The text starts with the dated keyword and then blanks and a declaration. -/
def DeclaredTwice (a : Text) : Prop :=
  ∃ gap r, a = "var".toList ++ (gap ++ r) ∧ gap ≠ [] ∧ (∀ y ∈ gap, isBlank y = true) ∧ Declared r

theorem isBlank_of_isNameStart {x : Char} (start : isNameStart x = true) : isBlank x = false := by
  cases blank : isBlank x with
  | false => rfl
  | true =>
    have all : blankChars.all fun c => !isNameStart c := by decide
    have other := List.all_eq_true.1 all x (mem_blankChars blank)
    rw [start] at other
    cases other

theorem DeclaredWith.unique {gap gap' a : Text} (h : DeclaredWith gap a) (h' : DeclaredWith gap' a) :
    gap = gap' := by
  obtain ⟨-, blank, x, r, rfl, start⟩ := h
  obtain ⟨-, blank', x', r', same, start'⟩ := h'
  exact (gap_unique (List.append_cancel_left same) blank blank' (isBlank_of_isNameStart start)
    (isBlank_of_isNameStart start')).1

theorem declared_iff {a : Text} : Declared a ↔ DeclaredInline a ∨ DeclaredBroken a := by
  constructor
  · rintro ⟨gap, given⟩
    by_cases feed : '\n' ∈ gap
    · exact .inr ⟨gap, given, feed⟩
    · exact .inl ⟨gap, given, feed⟩
  · rintro (⟨gap, given, -⟩ | ⟨gap, given, -⟩)
    · exact ⟨gap, given⟩
    · exact ⟨gap, given⟩

theorem DeclaredTwice.declared {a : Text} (h : DeclaredTwice a) : Declared a := by
  obtain ⟨gap, r, rfl, some, blank, inner, -, -, x, rest, rfl, -⟩ := h
  exact ⟨gap, some, blank, 'v', _, rfl, rfl⟩

/-- Behind the keyword and its blanks, a declaration makes it the second one. -/
theorem declaredTwice_append_iff {gap r : Text} {x : Char} (some : gap ≠ [])
    (blank : ∀ y ∈ gap, isBlank y = true) (solid : isBlank x = false) :
    DeclaredTwice ("var".toList ++ (gap ++ x :: r)) ↔ Declared (x :: r) := by
  constructor
  · rintro ⟨gap', r', same, -, blank', inner, some', blankInner, y, rest, rfl, start⟩
    obtain ⟨-, rfl, rfl⟩ := gap_unique (List.append_cancel_left same) blank blank' solid (by decide)
    exact ⟨inner, some', blankInner, y, rest, rfl, start⟩
  · exact fun inner => ⟨gap, x :: r, rfl, some, blank, inner⟩

/-! ### Somewhere in a text -/

/-- Somewhere in the text, behind no word character, a part starts that has the property. The text
    stands itself behind a word character or not. -/
def Somewhere (P : Text → Prop) : (word : Bool) → Text → Prop
  | _, [] => False
  | word, x :: a => (word = false ∧ P (x :: a)) ∨ Somewhere P (isWordChar x) a

/-- Nothing starts among characters other than its first one. -/
theorem somewhere_append {P : Text → Prop} (starts : ∀ {a}, P a → a.head? = some 'v') {u : Text}
    (other : 'v' ∉ u) (ends : u.getLast?.map isWordChar = some false) (word : Bool) (a : Text) :
    Somewhere P word (u ++ a) ↔ Somewhere P false a := by
  induction u generalizing word with
  | nil => cases ends
  | cons y u ih =>
    obtain ⟨here, others⟩ := not_or.1 (mt List.mem_cons.2 other)
    have nothing : ¬ (word = false ∧ P (y :: (u ++ a))) := by
      rintro ⟨-, begun⟩
      exact here (Option.some.inj (starts begun)).symm
    rw [List.cons_append, Somewhere, or_iff_right nothing]
    cases u with
    | nil =>
      have outside : isWordChar y = false := by simpa using ends
      rw [List.nil_append, outside]
    | cons z u => exact ih others ends (isWordChar y)

/-- A pattern that starts where no word character stands before, and then depends on what follows only,
    occurs exactly if it does so somewhere. -/
theorem occurs_iff_somewhere {p : Pattern} {P : Text → Prop} (moves : p.isSkippable = false)
    (here : ∀ c, (∃ d, p.Passes c d) ↔ c.behind.head?.any isWordChar = false ∧ P c.ahead)
    (some : ¬ P []) (t : Text) : p.occurs t = true ↔ Somewhere P false t := by
  have from_place : ∀ b o a, (∃ c ∈ Cursor.run anyChar b o a, ∃ d, p.Passes c d) ↔
      Somewhere P (b.head?.any isWordChar) a := by
    intro b o a
    induction a generalizing b o with
    | nil => simp [Cursor.run, Somewhere, here, some]
    | cons x a ih =>
      rw [Cursor.run, if_pos (show anyChar x = true from rfl), Somewhere]
      have next := ih (x :: b) (o + 1)
      simp only [List.head?_cons, Option.any_some] at next
      rw [← next]
      simp [here]
  have start := Cursor.isIn_start t
  rw [occurs_iff moves]
  refine Iff.trans ?_ (from_place [] 0 t)
  constructor
  · rintro ⟨c, d, place, way⟩
    exact ⟨c, start.mem_run place (Nat.zero_le _), d, way⟩
  · rintro ⟨c, mem, d, way⟩
    exact ⟨c, d, (start.of_mem_run mem).1, way⟩

/-! ### The patterns of declarations -/

theorem exists_passes_varDeclaration (c : Cursor) :
    (∃ d, Universal.varDeclaration.Passes c d) ↔
      c.behind.head?.any isWordChar = false ∧ Declared c.ahead := by
  simp only [Universal.varDeclaration, Pattern.gap, passes_append, passes_wordEdge, passes_text,
    passes_most, passes_one]
  constructor
  · rintro ⟨d, _, ⟨_, ⟨_, ⟨edge, rfl⟩, word⟩, gap, long, blank, behind⟩, x, start, last⟩
    refine ⟨(wordEdge_holds_iff word.1 (by decide)).1 edge, gap, List.length_pos_iff.1 long, blank, x,
      d.ahead, ?_, start⟩
    rw [word.1, behind.1, last.1]
    rfl
  · rintro ⟨outside, gap, some, blank, x, r, ahead, start⟩
    obtain ⟨m, word, ahead'⟩ := Cursor.exists_moves ahead
    obtain ⟨n, behind, ahead''⟩ := Cursor.exists_moves ahead'
    obtain ⟨d, last, -⟩ := @Cursor.exists_moves _ [x] _ ahead''
    have edge := (wordEdge_holds_iff ahead (by decide)).2 outside
    exact ⟨d, n, ⟨m, ⟨c, ⟨edge, rfl⟩, word⟩, gap, List.length_pos_iff.2 some, blank, behind⟩, x, start,
      last⟩

/-- The fix looks for what the rule looks for. -/
theorem exists_passes_varKeyword (c : Cursor) : (∃ d, Fix.varKeyword.Passes c d) ↔
    c.behind.head?.any isWordChar = false ∧ Declared c.ahead := by
  rw [← exists_passes_varDeclaration]
  simp only [Fix.varKeyword, Universal.varDeclaration, passes_append, passes_group]
  constructor
  · rintro ⟨d, m, word, n, blanks, start⟩
    exact ⟨d, n, ⟨m, word, blanks⟩, start⟩
  · rintro ⟨d, n, ⟨m, word, blanks⟩, start⟩
    exact ⟨d, m, word, n, blanks, start⟩

theorem exists_passes_brokenVar (c : Cursor) : (∃ d, brokenVar.Passes c d) ↔
    c.behind.head?.any isWordChar = false ∧ DeclaredBroken c.ahead := by
  simp only [brokenVar, Pattern.blanks, passes_append, passes_wordEdge, passes_text, passes_most,
    passes_one]
  constructor
  · rintro ⟨d, _, ⟨_, ⟨_, ⟨_, ⟨_, ⟨edge, rfl⟩, word⟩, u, -, blank, before⟩, feed⟩, v, -, blank', after⟩,
      x, start, last⟩
    refine ⟨(wordEdge_holds_iff word.1 (by decide)).1 edge, u ++ '\n' :: v, ⟨by simp, ?_, x, d.ahead,
      ?_, start⟩, by simp⟩
    · intro y mem
      rcases List.mem_append.1 mem with mem | mem
      · exact blank y mem
      · rcases List.mem_cons.1 mem with rfl | mem
        · decide
        · exact blank' y mem
    · rw [word.1, before.1, feed.1, after.1, last.1]
      simp
  · rintro ⟨outside, gap, ⟨-, blank, x, r, ahead, start⟩, feed⟩
    obtain ⟨u, v, rfl⟩ := List.append_of_mem feed
    have edge := (wordEdge_holds_iff ahead (by decide)).2 outside
    obtain ⟨m, word, ahead⟩ := Cursor.exists_moves ahead
    rw [List.append_assoc] at ahead
    obtain ⟨n, before, ahead⟩ := Cursor.exists_moves ahead
    obtain ⟨k, feed, ahead⟩ := @Cursor.exists_moves _ ['\n'] _ ahead
    obtain ⟨l, after, ahead⟩ := Cursor.exists_moves ahead
    obtain ⟨d, last, -⟩ := @Cursor.exists_moves _ [x] _ ahead
    have left : ∀ y ∈ u, isBlank y = true := fun y mem => blank y (by simp [mem])
    have right : ∀ y ∈ v, isBlank y = true := fun y mem => blank y (by simp [mem])
    exact ⟨d, l, ⟨k, ⟨n, ⟨m, ⟨c, ⟨edge, rfl⟩, word⟩, u, Nat.zero_le _, left, before⟩, feed⟩, v,
      Nat.zero_le _, right, after⟩, x, start, last⟩

theorem exists_passes_doubledVar (c : Cursor) : (∃ d, doubledVar.Passes c d) ↔
    c.behind.head?.any isWordChar = false ∧ DeclaredTwice c.ahead := by
  simp only [doubledVar, Pattern.gap, passes_append, passes_wordEdge, passes_text, passes_most,
    passes_one]
  constructor
  · rintro ⟨d, _, ⟨_, ⟨_, ⟨_, ⟨_, ⟨edge, rfl⟩, word⟩, u, long, blank, before⟩, word'⟩, v, long', blank',
      after⟩, x, start, last⟩
    refine ⟨(wordEdge_holds_iff word.1 (by decide)).1 edge, u, _, ?_, List.length_pos_iff.1 long, blank,
      v, List.length_pos_iff.1 long', blank', x, d.ahead, rfl, start⟩
    rw [word.1, before.1, word'.1, after.1, last.1]
    rfl
  · rintro ⟨outside, u, _, ahead, some, blank, v, some', blank', x, r, rfl, start⟩
    have edge := (wordEdge_holds_iff ahead (by decide)).2 outside
    obtain ⟨m, word, ahead⟩ := Cursor.exists_moves ahead
    obtain ⟨n, before, ahead⟩ := Cursor.exists_moves ahead
    obtain ⟨k, word', ahead⟩ := Cursor.exists_moves ahead
    obtain ⟨l, after, ahead⟩ := Cursor.exists_moves ahead
    obtain ⟨d, last, -⟩ := @Cursor.exists_moves _ [x] _ ahead
    exact ⟨d, l, ⟨k, ⟨n, ⟨m, ⟨c, ⟨edge, rfl⟩, word⟩, u, List.length_pos_iff.2 some, blank, before⟩,
      word'⟩, v, List.length_pos_iff.2 some', blank', after⟩, x, start, last⟩

/-! ### Renewed texts -/

/-- The keywords that take the place of the dated one. -/
def newerKeywords : List Text := ["let", "const"].map String.toList

/-- Whether blanks, if any, and then the start of a name stand ahead. -/
def isNameAhead : Text → Bool
  | [] => false
  | x :: a => isNameStart x || (isBlank x && isNameAhead a)

/-- The second text is the first one with a newer keyword in its declarations. They are taken from left
    to right; one that lies in one line is replaced unless the one before reaches into it. -/
inductive Renewed : (word : Bool) → (t t' : Text) → Prop where
  | done {word : Bool} : Renewed word [] []
  /-- A character stays where no declaration starts that lies in one line. -/
  | keep {word : Bool} {x : Char} {t t' : Text} (none : word = false → ¬ DeclaredInline (x :: t))
      (rest : Renewed (isWordChar x) t t') : Renewed word (x :: t) (x :: t')
  /-- A declaration is passed up to the first character of the name. -/
  | swap {gap keyword t t' : Text} {x : Char} (new : keyword ∈ newerKeywords) (some : gap ≠ [])
      (blank : ∀ y ∈ gap, isBlank y = true) (inline : '\n' ∉ gap) (start : isNameStart x = true)
      (rest : Renewed (isWordChar x) t t') :
      Renewed false ("var".toList ++ (gap ++ x :: t)) (keyword ++ (gap ++ x :: t'))

theorem isNameAhead_iff {a : Text} : isNameAhead a = true ↔
    ∃ gap x r, a = gap ++ x :: r ∧ (∀ y ∈ gap, isBlank y = true) ∧ isNameStart x = true := by
  induction a with
  | nil => simp [isNameAhead]
  | cons z a ih =>
    rw [isNameAhead, Bool.or_eq_true, Bool.and_eq_true, ih]
    constructor
    · rintro (start | ⟨here, gap, x, r, rfl, blank, start⟩)
      · exact ⟨[], z, a, rfl, by simp, start⟩
      · exact ⟨z :: gap, x, r, rfl, List.forall_mem_cons.2 ⟨here, blank⟩, start⟩
    · rintro ⟨gap, x, r, same, blank, start⟩
      cases gap with
      | nil =>
        obtain ⟨rfl, -⟩ := List.cons.inj same
        exact .inl start
      | cons y gap =>
        obtain ⟨rfl, rfl⟩ := List.cons.inj same
        obtain ⟨here, others⟩ := List.forall_mem_cons.1 blank
        exact .inr ⟨here, gap, x, r, rfl, others, start⟩

theorem declared_iff_isNameAhead {a : Text} : Declared a ↔
    ∃ b r, a = "var".toList ++ b :: r ∧ isBlank b = true ∧ isNameAhead r = true := by
  constructor
  · rintro ⟨gap, some, blank, x, r, rfl, start⟩
    cases gap with
    | nil => exact absurd rfl some
    | cons b gap =>
      obtain ⟨here, others⟩ := List.forall_mem_cons.1 blank
      exact ⟨b, _, rfl, here, isNameAhead_iff.2 ⟨gap, x, r, rfl, others, start⟩⟩
  · rintro ⟨b, r, rfl, here, ahead⟩
    obtain ⟨gap, x, r, rfl, blank, start⟩ := isNameAhead_iff.1 ahead
    exact ⟨b :: gap, List.cons_ne_nil _ _, List.forall_mem_cons.2 ⟨here, blank⟩, x, r, rfl, start⟩

/-- Newer keywords are names as well. -/
theorem Renewed.isNameAhead_eq {word : Bool} {t t' : Text} (h : Renewed word t t') :
    isNameAhead t = isNameAhead t' := by
  induction h with
  | done => rfl
  | keep _ _ ih => rw [isNameAhead, isNameAhead, ih]
  | @swap gap keyword t t' x new =>
    have names : ∀ keyword ∈ newerKeywords, keyword.head?.any isNameStart = true := by decide
    have first := names keyword new
    cases keyword with
    | nil => cases first
    | cons y ys =>
      have start : isNameStart y = true := first
      rw [List.cons_append, isNameAhead, start]
      rfl

/-- Behind a word character nothing is replaced. -/
theorem Renewed.cons_of_word {t t' : Text} (h : Renewed true t t') :
    (t = [] ∧ t' = []) ∨ ∃ y s s', t = y :: s ∧ t' = y :: s' ∧ Renewed (isWordChar y) s s' := by
  cases h with
  | done => exact .inl ⟨rfl, rfl⟩
  | keep _ rest => exact .inr ⟨_, _, _, rfl, rfl, rest⟩

/-- Letters behind a word character are the same in both texts. -/
theorem Renewed.append_of_word {t t' cs : Text} (h : Renewed true t t')
    (letters : ∀ c ∈ cs, isWordChar c = true) :
    (∀ r, t = cs ++ r → ∃ r', t' = cs ++ r' ∧ Renewed true r r') ∧
      ∀ r', t' = cs ++ r' → ∃ r, t = cs ++ r ∧ Renewed true r r' := by
  induction cs generalizing t t' with
  | nil =>
    constructor
    · rintro r rfl
      exact ⟨t', rfl, h⟩
    · rintro r' rfl
      exact ⟨t, rfl, h⟩
  | cons c cs ih =>
    obtain ⟨here, others⟩ := List.forall_mem_cons.1 letters
    rcases h.cons_of_word with ⟨rfl, rfl⟩ | ⟨y, s, s', rfl, rfl, rest⟩
    · exact ⟨fun r same => (by cases same), fun r' same => (by cases same)⟩
    · constructor
      · intro r same
        obtain ⟨rfl, further⟩ := List.cons.inj same
        rw [here] at rest
        obtain ⟨r', same', onward⟩ := (ih rest others).1 r further
        exact ⟨r', by rw [same']; rfl, onward⟩
      · intro r' same
        obtain ⟨rfl, further⟩ := List.cons.inj same
        rw [here] at rest
        obtain ⟨r, same', onward⟩ := (ih rest others).2 r' further
        exact ⟨r, by rw [same']; rfl, onward⟩

/-- A declaration starts at a character that stays exactly if one started there before. -/
theorem Renewed.declared_cons_iff {x : Char} {t t' : Text} (h : Renewed (isWordChar x) t t') :
    Declared (x :: t) ↔ Declared (x :: t') := by
  rw [declared_iff_isNameAhead, declared_iff_isNameAhead]
  have letters : ['a', 'r'].all isWordChar = true := by decide
  rw [List.all_eq_true] at letters
  constructor
  · rintro ⟨b, r, same, blank, name⟩
    obtain ⟨rfl, further⟩ := List.cons.inj same
    obtain ⟨r', same', onward⟩ := (Renewed.append_of_word h letters).1 _ further
    rcases onward.cons_of_word with ⟨none, -⟩ | ⟨y, s, s', here, rfl, rest⟩
    · cases none
    · obtain ⟨rfl, rfl⟩ := List.cons.inj here
      exact ⟨b, s', by rw [same']; rfl, blank, rest.isNameAhead_eq ▸ name⟩
  · rintro ⟨b, r', same, blank, name⟩
    obtain ⟨rfl, further⟩ := List.cons.inj same
    obtain ⟨r, same', onward⟩ := (Renewed.append_of_word h letters).2 _ further
    rcases onward.cons_of_word with ⟨-, none⟩ | ⟨y, s, s', rfl, here, rest⟩
    · cases none
    · obtain ⟨rfl, rfl⟩ := List.cons.inj here
      exact ⟨b, s, by rw [same']; rfl, blank, rest.isNameAhead_eq.symm ▸ name⟩

theorem Declared.head? {a : Text} (h : Declared a) : a.head? = some 'v' := by
  obtain ⟨gap, -, -, x, r, rfl, -⟩ := h
  rfl

theorem DeclaredBroken.declared {a : Text} (h : DeclaredBroken a) : Declared a :=
  declared_iff.2 (.inr h)

/-- The text behind the keyword, up to the name, starts nothing. -/
theorem somewhere_gap {P : Text → Prop} (starts : ∀ {a}, P a → a.head? = some 'v') {u gap : Text}
    (other : 'v' ∉ u) (some : gap ≠ []) (blank : ∀ y ∈ gap, isBlank y = true) (word : Bool)
    (a : Text) : Somewhere P word (u ++ (gap ++ a)) ↔ Somewhere P false a := by
  rw [← List.append_assoc]
  apply somewhere_append starts
  · intro mem
    rcases List.mem_append.1 mem with mem | mem
    · exact other mem
    · cases blank 'v' mem
  · rw [List.getLast?_append, List.getLast?_eq_some_getLast some]
    exact congrArg Option.some (isWordChar_of_isBlank (blank _ (List.getLast_mem some)))

/-- A renewed text has a declaration with the dated keyword exactly if the text had one with a line
    break, or one where a name should be given. -/
theorem Renewed.somewhere_declared_iff {word : Bool} {t t' : Text} (h : Renewed word t t') :
    Somewhere Declared word t' ↔ Somewhere DeclaredBroken word t ∨ Somewhere DeclaredTwice word t := by
  induction h with
  | done => simp [Somewhere]
  | @keep word x t t' none rest ih =>
    have here : word = false →
        (Declared (x :: t') ↔ DeclaredBroken (x :: t) ∨ DeclaredTwice (x :: t)) := by
      intro outside
      rw [← rest.declared_cons_iff]
      constructor
      · intro declared
        exact .inl ((declared_iff.1 declared).resolve_left (none outside))
      · rintro (broken | twice)
        · exact broken.declared
        · exact twice.declared
    rw [Somewhere, Somewhere, Somewhere, ih, and_congr_right here, and_or_left, or_or_or_comm]
  | @swap gap keyword t t' x new some blank inline start rest ih =>
    have solid := isBlank_of_isNameStart start
    have plain : ∀ keyword ∈ newerKeywords, 'v' ∉ keyword := by decide
    have tail : 'v' ∉ ['a', 'r'] := by decide
    have whole : ¬ DeclaredBroken ("var".toList ++ (gap ++ x :: t)) := by
      rintro ⟨gap', other, feed⟩
      have same : gap = gap' := DeclaredWith.unique ⟨some, blank, x, t, rfl, start⟩ other
      exact inline (same ▸ feed)
    have split {P : Text → Prop} (starts : ∀ {a}, P a → a.head? = .some 'v') :
        Somewhere P false ("var".toList ++ (gap ++ x :: t)) ↔
          P ("var".toList ++ (gap ++ x :: t)) ∨ Somewhere P false (x :: t) := by
      change (false = false ∧ _) ∨ Somewhere P _ (['a', 'r'] ++ (gap ++ x :: t)) ↔ _
      rw [somewhere_gap starts tail some blank, and_iff_right rfl]
      rfl
    rw [somewhere_gap Declared.head? (plain keyword new) some blank,
      split fun broken => broken.declared.head?, split fun twice => twice.declared.head?,
      declaredTwice_append_iff some blank solid, or_iff_right whole, Somewhere, Somewhere, Somewhere, ih,
      ← rest.declared_cons_iff]
    constructor
    · rintro (⟨-, declared⟩ | broken | twice)
      · exact .inr (.inl declared)
      · exact .inl (.inr broken)
      · exact .inr (.inr (.inr twice))
    · rintro ((⟨-, broken⟩ | broken) | declared | ⟨-, twice⟩ | twice)
      · exact .inl ⟨rfl, broken.declared⟩
      · exact .inr (.inl broken)
      · exact .inl ⟨rfl, declared⟩
      · exact .inl ⟨rfl, twice.declared⟩
      · exact .inr (.inr twice)

/-! ### What the fix does -/

/-- A declaration in one line does not reach over the end of the line. -/
theorem declared_of_append {a ret rest : Text} (returns : ∀ y ∈ ret, y = '\r')
    (feed : ∀ y ∈ rest.head?, y = '\n') (h : DeclaredInline (a ++ (ret ++ rest))) : Declared a := by
  obtain ⟨gap, ⟨some, blank, x, r, same, start⟩, inline⟩ := h
  have solid : '\n' ∉ "var".toList ++ (gap ++ [x]) := by
    simp only [List.mem_append, List.mem_singleton, not_or]
    refine ⟨by decide, inline, ?_⟩
    rintro rfl
    cases start
  have whole : a ++ (ret ++ rest) = ("var".toList ++ (gap ++ [x])) ++ r := by
    rw [same]
    simp
  rcases List.append_eq_append_iff.1 whole with ⟨excess, declaration, beyond⟩ | ⟨a', rfl, -⟩
  · -- nothing but carriage returns can lie over the end, since a line feed comes behind them
    have returnsOnly : ∀ y ∈ excess, y = '\r' := by
      rcases List.append_eq_append_iff.1 beyond with ⟨excess', rfl, further⟩ | ⟨r', rfl, -⟩
      · cases excess' with
        | nil => simpa using returns
        | cons y excess' =>
          obtain rfl := feed y (by rw [further]; rfl)
          exact absurd (by rw [declaration]; simp) solid
      · exact fun y mem => returns y (List.mem_append_left _ mem)
    rcases List.eq_nil_or_concat excess with rfl | ⟨front, y, rfl⟩
    · rw [List.append_nil] at declaration
      exact ⟨gap, some, blank, x, [], declaration.symm, start⟩
    · have last := congrArg List.getLast? declaration
      simp only [← List.append_assoc, List.concat_eq_append, List.getLast?_concat,
        Option.some.injEq] at last
      obtain rfl := returnsOnly y (by simp)
      rw [last] at start
      cases start
  · exact ⟨gap, some, blank, x, a', by simp, start⟩

/-- Behind the end of a line it does not matter what stood before. -/
theorem Renewed.line_end {ret rest rest' : Text} (returns : ∀ y ∈ ret, y = '\r')
    (later : ∀ word, Renewed word rest rest') (word : Bool) :
    Renewed word (ret ++ rest) (ret ++ rest') := by
  induction ret generalizing word with
  | nil => exact later word
  | cons y ret ih =>
    obtain ⟨rfl, others⟩ := List.forall_mem_cons.1 returns
    apply Renewed.keep
    · rintro - inline
      cases (declared_iff.2 (.inl inline)).head?
    · exact ih others _

/-- The reading of one line renews it. -/
theorem renewed_of_edits {keyword : Text} (new : keyword ∈ newerKeywords) {c : Cursor}
    {hits : List Hit} {after : Text}
    (edits : Fix.varKeyword.Edits (fun hit => keyword ++ hit.groupChars 1) c hits after)
    {ret rest rest' : Text} (returns : ∀ y ∈ ret, y = '\r') (feed : ∀ y ∈ rest.head?, y = '\n')
    (later : ∀ word, Renewed word (ret ++ rest) rest') (line : '\n' ∉ c.ahead) :
    Renewed (c.behind.head?.any isWordChar) (c.ahead ++ (ret ++ rest)) (after ++ rest') := by
  induction edits with
  | done => exact later _
  | @pass b a o x hits after none edits ih =>
    simp only [List.mem_cons, not_or] at line
    apply Renewed.keep
    · intro outside inline
      have declared : Declared (x :: a) := declared_of_append returns feed inline
      obtain ⟨d, way⟩ := (exists_passes_varKeyword ⟨b, x :: a, o⟩).2 ⟨outside, declared⟩
      exact (matchAt_eq_none_iff _ _).1 none d way
    · exact ih line.2
  | @swap c hit hits after found edits ih =>
    obtain ⟨begun, way⟩ := keeps_of_matchAt found
    obtain ⟨gap, x, m, edge, word, name, some, blank, start, written⟩ := exists_of_keeps_varKeyword way
    have shape : hit = ⟨⟨c, hit.whole.stop⟩, hit.groups⟩ := by rw [← begun]
    have ahead : c.ahead = "var".toList ++ (gap ++ x :: hit.whole.stop.ahead) := by
      rw [word.1, name.1]
      simp
    have outside : c.behind.head?.any isWordChar = false :=
      (wordEdge_holds_iff ahead (by decide)).1 edge
    have onward : hit.whole.stop.behind.head?.any isWordChar = isWordChar x := by
      rw [name.2.1]
      simp
    rw [← shape] at written
    rw [ahead] at line
    simp only [List.mem_append, List.mem_cons, not_or] at line
    have next := ih line.2.2.2
    rw [onward] at next
    rw [outside, ahead, written]
    simp only [List.append_assoc, List.cons_append, List.nil_append]
    exact .swap new some blank line.2.1 start next

/-- The edit of one line renews it. -/
theorem renewed_editLine {line rest rest' : Text} (whole : '\n' ∉ line)
    (feed : ∀ y ∈ rest.head?, y = '\n') (later : ∀ word, Renewed word rest rest') :
    Renewed false (line ++ rest) (Fix.editLine Fix.replaceVarInLine line ++ rest') := by
  obtain ⟨parts, returns⟩ := splitReturn_append line
  have new : (if line.splitReturn.1.contains '=' then "let".toList else "const".toList) ∈
      newerKeywords := by
    split <;> decide
  have edits := edits_replaceAll (p := Fix.varKeyword) rfl (fun hit =>
    (if line.splitReturn.1.contains '=' then "let".toList else "const".toList) ++ hit.groupChars 1)
    line.splitReturn.1
  have renewed := renewed_of_edits new edits returns feed (Renewed.line_end returns later) (by
    rw [parts] at whole
    exact fun feed => whole (List.mem_append_left _ feed))
  rw [Fix.editLine, List.append_assoc]
  conv => arg 2; rw [parts, List.append_assoc]
  exact renewed

/-- The fix renews a text. -/
theorem renewed_replaceVar (t : Text) : Renewed false t (Fix.replaceVar t) := by
  have all : ∀ ls : List Text, (∀ line ∈ ls, '\n' ∉ line) → Renewed false (Text.unlines ls)
      (Text.unlines (ls.map (Fix.editLine Fix.replaceVarInLine))) := by
    intro ls whole
    induction ls with
    | nil => exact .done
    | cons line ls ih =>
      obtain ⟨here, others⟩ := List.forall_mem_cons.1 whole
      cases ls with
      | nil =>
        have renewed := @renewed_editLine line [] [] here (by simp) (fun _ => .done)
        simpa [Text.unlines_singleton] using renewed
      | cons line' ls =>
        rw [List.map_cons, List.map_cons, Text.unlines_cons_cons, Text.unlines_cons_cons]
        apply renewed_editLine here
        · simp
        · intro word
          apply Renewed.keep
          · rintro - inline
            cases (declared_iff.2 (.inl inline)).head?
          · exact ih others
  have renewed := all t.lines fun line => Text.not_mem_of_mem_lines
  rwa [Text.unlines_lines] at renewed

/-- After the fix a declaration with the dated keyword is left exactly if the text had one with a line
    break before the name, or one where a name should be given. -/
theorem occurs_varDeclaration_replaceVar (t : Text) :
    Universal.varDeclaration.occurs (Fix.replaceVar t) = true ↔
      brokenVar.occurs t = true ∨ doubledVar.occurs t = true := by
  have none {P : Text → Prop} (starts : ∀ {a}, P a → a.head? = some 'v') : ¬ P [] :=
    fun empty => by cases starts empty
  rw [occurs_iff_somewhere rfl exists_passes_varDeclaration (none Declared.head?),
    occurs_iff_somewhere rfl exists_passes_brokenVar (none fun broken => broken.declared.head?),
    occurs_iff_somewhere rfl exists_passes_doubledVar (none fun twice => twice.declared.head?)]
  exact (renewed_replaceVar t).somewhere_declared_iff

end SourceAudit

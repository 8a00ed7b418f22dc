/-
Module: SourceAudit.Proofs.Text.LineEnd
Layer: Proofs
Purpose: Blanks dropped at the ends of lines, one at a time. Such a step does not change which needles a
  text includes, its runs of word characters, or which of its pieces is a given name between blanks;
  trimming the ends of all lines takes a number of such steps.
Main exports: DropsBlank, DropsBlank.infix_iff, DropsBlank.wordRuns_eq, DropsBlank.trim_eq_iff,
  trimTrailingBlanks_induction
-/
import SourceAudit.Fix.Lines
import SourceAudit.Proofs.Text.Needle
import SourceAudit.Text.WholeWord
import Mathlib.Data.List.Forall2
import Mathlib.Data.List.TakeWhile
import Mathlib.Logic.Relation

namespace SourceAudit

/-- The blank characters, one by one. -/
def blankChars : List Char :=
  [9, 10, 11, 12, 13, 32, 0x85, 0xA0, 0x1680, 0x2000, 0x2001, 0x2002, 0x2003, 0x2004, 0x2005, 0x2006,
    0x2007, 0x2008, 0x2009, 0x200A, 0x2028, 0x2029, 0x202F, 0x205F, 0x3000].map Char.ofNat

theorem mem_blankChars {c : Char} (h : isBlank c = true) : c ∈ blankChars := by
  rw [← Char.ofNat_toNat c]
  refine List.mem_map_of_mem ?_
  simp only [isBlank] at h
  generalize c.toNat = n at h
  simp only [List.mem_cons, List.not_mem_nil, or_false]
  split at h
  · simp only [Bool.or_eq_true, beq_iff_eq, Bool.and_eq_true, decide_eq_true_eq] at h
    omega
  · simp only [Bool.or_eq_true, beq_iff_eq, Bool.and_eq_true, decide_eq_true_eq] at h
    omega

theorem isWordChar_of_isBlank {c : Char} (blank : isBlank c = true) : isWordChar c = false := by
  have all : blankChars.all fun c => !isWordChar c := by decide +kernel
  simpa using List.all_eq_true.1 all c (mem_blankChars blank)

theorem isBlank_of_isWordChar {c : Char} (word : isWordChar c = true) : isBlank c = false := by
  cases blank : isBlank c with
  | false => rfl
  | true =>
    rw [isWordChar_of_isBlank blank] at word
    cases word

/-- Blanks before something that is none are known from what they begin. -/
theorem gap_unique {gap gap' r r' : Text} {x x' : Char} (same : gap ++ x :: r = gap' ++ x' :: r')
    (blank : ∀ y ∈ gap, isBlank y = true) (blank' : ∀ y ∈ gap', isBlank y = true)
    (solid : isBlank x = false) (solid' : isBlank x' = false) : gap = gap' ∧ x = x' ∧ r = r' := by
  apply Text.split_unique (fun c => !isBlank c) same
  · exact fun y mem => by rw [blank y mem]; rfl
  · exact fun y mem => by rw [blank' y mem]; rfl
  · rw [solid]
    rfl
  · rw [solid']
    rfl

/-- The letters at the start of a text are known from the whole. -/
theorem letters_unique {n n' rest rest' : Text} (same : n ++ rest = n' ++ rest')
    (letters : ∀ y ∈ n, isWordChar y = true) (letters' : ∀ y ∈ n', isWordChar y = true)
    (apart : ∀ y ∈ rest.head?, isWordChar y = false) (apart' : ∀ y ∈ rest'.head?, isWordChar y = false) :
    n = n' ∧ rest = rest' := by
  have first {n rest : Text} (letters : ∀ y ∈ n, isWordChar y = true)
      (apart : ∀ y ∈ rest.head?, isWordChar y = false) : (n ++ rest).takeWhile isWordChar = n := by
    rw [List.takeWhile_append_of_pos letters]
    cases rest with
    | nil => simp
    | cons x rest => rw [List.takeWhile_cons_of_neg (by simpa using apart x rfl), List.append_nil]
  obtain rfl : n = n' := by rw [← first letters apart, same, first letters' apart']
  exact ⟨rfl, List.append_cancel_left same⟩

/-- The second text is the first one without a blank that stands before a line break or at the end. -/
inductive DropsBlank : (t t' : Text) → Prop where
  | intro (u v : Text) {b : Char} (blank : isBlank b = true)
      (next : ∀ x ∈ v.head?, x = '\n' ∨ x = '\r') : DropsBlank (u ++ b :: v) (u ++ v)

theorem isBlank_of_next {v : Text} (next : ∀ x ∈ v.head?, x = '\n' ∨ x = '\r') :
    ∀ x ∈ v.head?, isBlank x = true := by
  intro x first
  rcases next x first with rfl | rfl <;> decide

namespace DropsBlank

theorem cons (x : Char) {t t' : Text} (h : DropsBlank t t') : DropsBlank (x :: t) (x :: t') := by
  obtain ⟨u, v, blank, next⟩ := h
  exact .intro (x :: u) v blank next

theorem exists_mem {t t' : Text} (h : DropsBlank t t') : ∃ b ∈ t, isBlank b = true := by
  obtain ⟨u, v, blank, -⟩ := h
  exact ⟨_, by simp, blank⟩

/-- A needle that cannot lie across the end of a line: it has no line breaks and no blank at its end. -/
def isInline (needle : Text) : Bool :=
  !needle.contains '\n' && !needle.contains '\r' && needle.getLast?.any fun c => !isBlank c

theorem infix_iff {t t' needle : Text} (h : DropsBlank t t') (inline : isInline needle = true) :
    needle <:+: t ↔ needle <:+: t' := by
  obtain ⟨u, v, blank, next⟩ := h
  rename_i b
  simp only [isInline, Bool.and_eq_true, Bool.not_eq_true', List.contains_eq_mem,
    decide_eq_false_iff_not] at inline
  obtain ⟨⟨noFeed, noReturn⟩, ending⟩ := inline
  -- no stretch of the needle starts at the line break, and none ends in the blank
  have apart : ∀ l r : Text, r ≠ [] → needle = l ++ r → ¬ r <+: v := by
    rintro l (_ | ⟨x, r⟩) some rfl initial
    · exact some rfl
    · cases v with
      | nil => cases List.prefix_nil.1 initial
      | cons y v =>
        obtain ⟨rfl, -⟩ := List.cons_prefix_cons.1 initial
        rcases next x rfl with rfl | rfl
        · simp at noFeed
        · simp at noReturn
  have apart' : ∀ l r : Text, r ≠ [] → needle = l ++ r → ¬ r <+: b :: v := by
    rintro l (_ | ⟨x, r⟩) some rfl initial
    · exact some rfl
    · obtain ⟨rfl, onward⟩ := List.cons_prefix_cons.1 initial
      cases r with
      | nil => simp [blank] at ending
      | cons y r => exact apart (l ++ [x]) (y :: r) (List.cons_ne_nil _ _) (by simp) onward
  constructor
  · intro h
    rcases List.infix_append_iff_ne_nil.1 h with h | h | ⟨l, r, -, some, rfl, -, right⟩
    · exact List.infix_append_of_infix_left h
    · rcases List.infix_cons_iff.1 h with h | h
      · cases needle with
        | nil => exact List.nil_infix
        | cons x xs => exact absurd h (apart' [] (x :: xs) (List.cons_ne_nil _ _) rfl)
      · exact List.infix_append_of_infix_right h
    · exact absurd right (apart' l r some rfl)
  · intro h
    rcases List.infix_append_iff_ne_nil.1 h with h | h | ⟨l, r, -, some, rfl, -, right⟩
    · exact List.infix_append_of_infix_left h
    · exact List.infix_append_of_infix_right (List.infix_cons h)
    · exact absurd right (apart l r some rfl)

theorem includes_eq {t t' needle : Text} (h : DropsBlank t t') (inline : isInline needle = true) :
    t.includes needle = t'.includes needle :=
  Text.includes_congr (h.infix_iff inline)

/-- One separator more beside another one, or at the end, makes no difference to the pieces that are
    not empty. -/
theorem filter_pieces_eq {separates : Char → Bool} (all : ∀ c, isBlank c = true → separates c = true)
    {t t' : Text} (h : DropsBlank t t') :
    (t.pieces separates).filter (fun p => !p.isEmpty) =
      (t'.pieces separates).filter (fun p => !p.isEmpty) := by
  obtain ⟨u, v, blank, next⟩ := h
  rw [Text.pieces_append (all _ blank)]
  cases v with
  | nil => simp [Text.pieces]
  | cons x v =>
    have separated : separates x = true := all x (isBlank_of_next next x rfl)
    rw [Text.pieces_append separated, Text.pieces_cons_of_separates separated]
    simp

theorem wordRuns_eq {t t' : Text} (h : DropsBlank t t') : t.wordRuns = t'.wordRuns :=
  h.filter_pieces_eq fun c blank => by simp [isWordChar_of_isBlank blank]

/-- A name of word characters is mentioned as often. -/
theorem countWord_eq [Engine] {t t' word : Text} (h : DropsBlank t t')
    (plain : word.all isWordChar = true) :
    t.wordIndex.countWord word = t'.wordIndex.countWord word := by
  rw [WordIndex.countWord, WordIndex.countWord, plain]
  cases empty : word.isEmpty with
  | true => simp [Text.countWord, empty]
  | false =>
    cases accepted : Engine.accepts (.word word) with
    | true => simp [Text.wordIndex, h.wordRuns_eq]
    | false => simp [Text.countWord, empty, accepted]

/-- The pieces between separators that are no blanks lose the blank as well. -/
theorem forall₂_pieces {separates : Char → Bool} (none : ∀ c, isBlank c = true → separates c = false)
    {t t' : Text} (h : DropsBlank t t') :
    List.Forall₂ (fun p p' => p = p' ∨ DropsBlank p p') (t.pieces separates) (t'.pieces separates) := by
  obtain ⟨u, v, blank, next⟩ := h
  rename_i b
  have same (ps : List Text) : List.Forall₂ (fun p p' => p = p' ∨ DropsBlank p p') ps ps :=
    List.forall₂_same.2 fun _ _ => .inl rfl
  induction u with
  | nil =>
    obtain ⟨rest, pieced⟩ := Text.exists_pieces_eq separates v
    rw [List.nil_append, List.nil_append, Text.pieces_cons (none b blank) pieced, pieced]
    refine .cons (.inr (.intro [] _ blank ?_)) (same rest)
    intro x first
    cases v with
    | nil => cases first
    | cons y v =>
      rw [List.takeWhile_cons] at first
      split at first
      · exact next x first
      · cases first
  | cons x u ih =>
    obtain ⟨rest, pieced⟩ := Text.exists_pieces_eq separates (u ++ b :: v)
    obtain ⟨rest', pieced'⟩ := Text.exists_pieces_eq separates (u ++ v)
    rw [List.cons_append, List.cons_append]
    cases hx : separates x with
    | true =>
      rw [Text.pieces_cons_of_separates hx, Text.pieces_cons_of_separates hx]
      exact .cons (.inl rfl) ih
    | false =>
      rw [pieced, pieced'] at ih
      rw [Text.pieces_cons hx pieced, Text.pieces_cons hx pieced']
      obtain ⟨here, later⟩ := List.forall₂_cons.1 ih
      refine .cons ?_ later
      exact here.imp (congrArg (x :: ·)) (DropsBlank.cons x)

end DropsBlank

/-- A text is a name between blanks. -/
def IsPadded (t name : Text) : Prop :=
  ∃ a z, t = a ++ (name ++ z) ∧ (∀ c ∈ a, isBlank c = true) ∧ ∀ c ∈ z, isBlank c = true

section

variable {name : Text} (some : name ≠ []) (solid : ∀ c ∈ name, isBlank c = false)
include some solid

/-- Trimming a text leaves a name without blanks exactly if the text is the name between blanks. -/
theorem trim_eq_iff_isPadded {t : Text} : t.trim = name ↔ IsPadded t name := by
  constructor
  · intro h
    have back : t = t.takeWhile isBlank ++ t.trimStart := (List.takeWhile_append_dropWhile).symm
    have front : t.trimStart =
        t.trim ++ (t.trimStart.reverse.takeWhile isBlank).reverse := by
      rw [Text.trim, Text.trimEnd, ← List.reverse_append, List.takeWhile_append_dropWhile,
        List.reverse_reverse]
    refine ⟨t.takeWhile isBlank, (t.trimStart.reverse.takeWhile isBlank).reverse, ?_, ?_, ?_⟩
    · rw [← h, ← front]
      exact back
    · exact fun c mem => List.mem_takeWhile_imp mem
    · exact fun c mem => List.mem_takeWhile_imp (List.mem_reverse.1 mem)
  · rintro ⟨a, z, rfl, before, after⟩
    have start : Text.trimStart (a ++ (name ++ z)) = name ++ z := by
      rw [Text.trimStart, List.dropWhile_append_of_pos before]
      cases name with
      | nil => exact absurd rfl some
      | cons x xs => simp [solid x List.mem_cons_self]
    have stop : (name ++ z).reverse.dropWhile isBlank = name.reverse := by
      rw [List.reverse_append, List.dropWhile_append_of_pos (by simpa using after)]
      cases reversed : name.reverse with
      | nil => exact absurd (List.reverse_eq_nil_iff.1 reversed) some
      | cons x xs =>
        have mem : x ∈ name := List.mem_reverse.1 (reversed ▸ List.mem_cons_self)
        simp [solid x mem]
    rw [Text.trim, start, Text.trimEnd, stop, List.reverse_reverse]

theorem DropsBlank.isPadded_iff {t t' : Text} (h : DropsBlank t t') :
    IsPadded t name ↔ IsPadded t' name := by
  obtain ⟨u, v, blank, next⟩ := h
  rename_i b
  have hard : ∀ x ∈ name, isBlank x = true → False := by
    intro x mem blank
    rw [solid x mem] at blank
    cases blank
  constructor
  · rintro ⟨a, z, whole, before, after⟩
    rcases List.append_eq_append_iff.1 whole with ⟨as, rfl, here⟩ | ⟨bs, rfl, here⟩
    · cases as with
      | nil =>
        cases name with
        | nil => exact absurd rfl some
        | cons x xs =>
          obtain ⟨rfl, -⟩ := List.cons.inj here
          exact (hard b List.mem_cons_self blank).elim
      | cons y as =>
        obtain ⟨rfl, rfl⟩ := List.cons.inj here
        obtain ⟨left, right⟩ := List.forall_mem_append.1 before
        refine ⟨u ++ as, z, by simp, List.forall_mem_append.2 ⟨left, ?_⟩, after⟩
        exact (List.forall_mem_cons.1 right).2
    · rcases List.append_eq_append_iff.1 here with ⟨cs, rfl, rfl⟩ | ⟨cs, parts, there⟩
      · obtain ⟨left, right⟩ := List.forall_mem_append.1 after
        refine ⟨a, cs ++ v, by simp, before, List.forall_mem_append.2 ⟨left, ?_⟩⟩
        exact (List.forall_mem_cons.1 right).2
      · cases cs with
        | nil =>
          subst there
          refine ⟨a, v, by simp [parts], before, (List.forall_mem_cons.1 after).2⟩
        | cons y cs =>
          obtain ⟨rfl, -⟩ := List.cons.inj there
          exact (hard b (by simp [parts]) blank).elim
  · rintro ⟨a, z, whole, before, after⟩
    rcases List.append_eq_append_iff.1 whole with ⟨as, rfl, rfl⟩ | ⟨bs, rfl, here⟩
    · obtain ⟨left, right⟩ := List.forall_mem_append.1 before
      refine ⟨u ++ b :: as, z, by simp, ?_, after⟩
      exact List.forall_mem_append.2 ⟨left, List.forall_mem_cons.2 ⟨blank, right⟩⟩
    · rcases List.append_eq_append_iff.1 here with ⟨cs, rfl, rfl⟩ | ⟨cs, parts, there⟩
      · obtain ⟨left, right⟩ := List.forall_mem_append.1 after
        refine ⟨a, cs ++ b :: v, by simp, before, ?_⟩
        exact List.forall_mem_append.2 ⟨left, List.forall_mem_cons.2 ⟨blank, right⟩⟩
      · cases cs with
        | nil =>
          subst there
          exact ⟨a, b :: v, by simp [parts], before, List.forall_mem_cons.2 ⟨blank, after⟩⟩
        | cons y cs =>
          have first : isBlank y = true := isBlank_of_next next y (by rw [there]; rfl)
          exact (hard y (by simp [parts]) first).elim

end

theorem trim_eq_nil_iff {t : Text} : t.trim = [] ↔ ∀ c ∈ t, isBlank c = true := by
  rw [Text.trim, Text.trimEnd, List.reverse_eq_nil_iff, List.dropWhile_eq_nil_iff]
  simp only [List.mem_reverse, Text.trimStart]
  constructor
  · intro all
    cases rest : t.dropWhile isBlank with
    | nil => exact List.dropWhile_eq_nil_iff.1 rest
    | cons x xs =>
      have first := List.head?_dropWhile_not isBlank t
      rw [rest] at all first
      have blank := all x List.mem_cons_self
      simp [blank] at first
  · intro all c mem
    exact all c ((List.dropWhile_sublist isBlank).subset mem)

/-- A piece is a name between blanks with the dropped blank as well as without it. -/
theorem DropsBlank.trim_eq_iff {t t' name : Text} (h : DropsBlank t t')
    (solid : ∀ c ∈ name, isBlank c = false) : t.trim = name ↔ t'.trim = name := by
  cases name with
  | nil =>
    obtain ⟨u, v, blank, -⟩ := h
    simp only [trim_eq_nil_iff, List.forall_mem_append, List.forall_mem_cons, blank, true_and]
  | cons x xs =>
    have some := List.cons_ne_nil x xs
    rw [trim_eq_iff_isPadded some solid, trim_eq_iff_isPadded some solid, h.isPadded_iff some solid]

/-- Blanks at the end of a line are dropped from the last one on. -/
theorem reflTransGen_dropsBlank (u bs v : Text) (blank : ∀ c ∈ bs, isBlank c = true)
    (next : ∀ x ∈ v.head?, x = '\n' ∨ x = '\r') :
    Relation.ReflTransGen DropsBlank (u ++ (bs ++ v)) (u ++ v) := by
  induction bs generalizing u with
  | nil => exact .refl
  | cons b bs ih =>
    have later := ih (u ++ [b]) (fun c mem => blank c (List.mem_cons_of_mem _ mem))
    simp only [List.append_assoc, List.singleton_append] at later
    exact later.tail (.intro u v (blank b List.mem_cons_self) next)

theorem reflTransGen_trimEnd (u body v : Text) (next : ∀ x ∈ v.head?, x = '\n' ∨ x = '\r') :
    Relation.ReflTransGen DropsBlank (u ++ (body ++ v)) (u ++ (body.trimEnd ++ v)) := by
  have parts : body = body.trimEnd ++ (body.reverse.takeWhile isBlank).reverse := by
    rw [Text.trimEnd, ← List.reverse_append, List.takeWhile_append_dropWhile, List.reverse_reverse]
  have steps := reflTransGen_dropsBlank (u ++ body.trimEnd) (body.reverse.takeWhile isBlank).reverse v
    (fun c mem => List.mem_takeWhile_imp (List.mem_reverse.1 mem)) next
  rwa [← List.append_assoc, List.append_assoc u, ← parts, List.append_assoc, List.append_assoc] at steps

section

variable {R : Text → Text → Prop} {edit : Text → Text}
  (body : ∀ u line v : Text, (∀ x ∈ u.getLast?, x = '\n') → (∀ x ∈ v.head?, x = '\n' ∨ x = '\r') →
    Relation.ReflTransGen R (u ++ (line ++ v)) (u ++ (edit line ++ v)))
include body

theorem reflTransGen_editLine (u line v : Text) (start : ∀ x ∈ u.getLast?, x = '\n')
    (next : ∀ x ∈ v.head?, x = '\n' ∨ x = '\r') :
    Relation.ReflTransGen R (u ++ (line ++ v)) (u ++ (Fix.editLine edit line ++ v)) := by
  rw [Fix.editLine, Text.splitReturn]
  split
  · rename_i last
    obtain ⟨cs, rfl⟩ := List.getLast?_eq_some_iff.1 last
    have steps := body u cs ('\r' :: v) start (by simp)
    simpa using steps
  · simpa using body u line v start next

/-- An edit of all lines takes the steps that it takes on each of them. -/
theorem reflTransGen_mapLines (t : Text) : Relation.ReflTransGen R t (Fix.mapLines edit t) := by
  have all : ∀ (u : Text) (ls : List Text), (∀ x ∈ u.getLast?, x = '\n') → Relation.ReflTransGen R
      (u ++ Text.unlines ls) (u ++ Text.unlines (ls.map (Fix.editLine edit))) := by
    intro u ls
    induction ls generalizing u with
    | nil => exact fun _ => .refl
    | cons l ls ih =>
      intro start
      cases ls with
      | nil =>
        have steps := reflTransGen_editLine body u l [] start (by simp)
        simpa [Text.unlines_singleton] using steps
      | cons l' ls =>
        rw [List.map_cons, List.map_cons, Text.unlines_cons_cons, Text.unlines_cons_cons]
        have here := reflTransGen_editLine body u l ('\n' :: Text.unlines (l' :: ls)) start (by simp)
        have later := ih (u ++ (Fix.editLine edit l ++ ['\n'])) (by simp [← List.append_assoc])
        simp only [List.append_assoc, List.singleton_append, List.map_cons] at later
        exact here.trans later
  have lines := all [] t.lines (by simp)
  rwa [List.nil_append, List.nil_append, Text.unlines_lines] at lines

end

/-- Trimming the ends of all lines drops one blank after the other. -/
theorem reflTransGen_trimTrailingBlanks (t : Text) :
    Relation.ReflTransGen DropsBlank t (Fix.trimTrailingBlanks t) :=
  reflTransGen_mapLines (fun u line v _ => reflTransGen_trimEnd u line v) t

/-- What stays true of a text when one blank is dropped is true of the trimmed text. -/
theorem trimTrailingBlanks_induction {motive : Text → Prop} {t : Text} (start : motive t)
    (drop : ∀ {u v : Text}, DropsBlank u v → motive u → motive v) : motive (Fix.trimTrailingBlanks t) := by
  have steps := reflTransGen_trimTrailingBlanks t
  generalize Fix.trimTrailingBlanks t = t' at steps
  induction steps with
  | refl => exact start
  | tail _ step ih => exact drop step ih

end SourceAudit

/-
Module: SourceAudit.Proofs.Pattern.LineEnd
Layer: Proofs
Purpose: A blank that is dropped before a line break or at the end of the text. A pattern does not
  notice when its literals hold no blanks and each of its sets holds all blanks or none: a run that
  passed the blank passes the place where it was, and nothing else can start or end beside it.
Main exports: lineEndSight, Likeness.lineEnd, Grade.Holds.one_most, Span.chars_lineEnd,
  Pattern.OverlooksLineEnds, DropsBlank.findAll_edited, DropsBlank.occurs_eq, DropsBlank.occurs_one_seq
-/
import SourceAudit.Proofs.Pattern.Likeness
import SourceAudit.Proofs.Text.LineEnd

namespace SourceAudit

/-- Literals without blanks, and sets of all blanks or none. -/
def lineEndSight : Sight where
  Avoids same cs := ∀ x ∈ cs, ∀ y ∈ blankChars, same x y = false
  covers set := blankChars.all set
  misses set := blankChars.all fun c => !set c
  covers_any := rfl

theorem lineEndSight.of_covers {set : Char → Bool} (h : lineEndSight.covers set = true) {b : Char}
    (blank : isBlank b = true) : set b = true :=
  List.all_eq_true.1 h b (mem_blankChars blank)

theorem lineEndSight.of_misses {set : Char → Bool} (h : lineEndSight.misses set = true) {b : Char}
    (blank : isBlank b = true) : set b = false := by
  simpa using List.all_eq_true.1 h b (mem_blankChars blank)

section

variable (u v : Text) (b : Char)

/-- Places before the dropped blank, and places behind at least one character that follows it. -/
inductive LineEndMatched : Cursor → Cursor → Prop where
  | before {p q : Text} (h : p ++ q = u) :
      LineEndMatched (.between p (q ++ b :: v)) (.between p (q ++ v))
  | after {p q : Text} {x : Char} (h : x :: p ++ q = v) :
      LineEndMatched (.between (u ++ b :: x :: p) q) (.between (u ++ x :: p) q)

/-- The place right behind the dropped blank. -/
def LineEndAmid (c c' : Cursor) : Prop := c = .between (u ++ [b]) v ∧ c' = .between u v

variable {u v : Text} {b : Char}

theorem LineEndMatched.of_ne_nil {p q : Text} (some : p ≠ []) (h : p ++ q = v) :
    LineEndMatched u v b (.between (u ++ b :: p) q) (.between (u ++ p) q) := by
  cases p with
  | nil => exact absurd rfl some
  | cons x p => exact .after h

theorem LineEndMatched.run_after {set : Char → Bool} {p q : Text} {x : Char} (h : x :: p ++ q = v) :
    List.Forall₂ (LineEndMatched u v b)
      ((Cursor.between (u ++ b :: x :: p) q).choices set 0)
      ((Cursor.between (u ++ x :: p) q).choices set 0) := by
  induction q generalizing p with
  | nil => exact .cons (.after h) .nil
  | cons y q ih =>
    have next := ih (p := p ++ [y]) (by simpa using h)
    rw [Cursor.choices_between, Cursor.choices_between]
    refine .cons (.after h) ?_
    split
    · simpa using next
    · exact .nil

/-- One character is passed at matched places alike, unless it is the dropped blank. -/
theorem LineEndMatched.pass {c c' : Cursor} (h : LineEndMatched u v b c c') (set : Char → Bool) :
    (c = .between u (b :: v) ∧ c' = .between u v) ∨
      Option.Rel (LineEndMatched u v b) (c.pass set 1) (c'.pass set 1) := by
  cases h with
  | @before p q whole =>
    cases q with
    | nil =>
      obtain rfl : p = u := by simpa using whole
      exact .inl ⟨rfl, rfl⟩
    | cons x q =>
      right
      rw [List.cons_append, List.cons_append, Cursor.pass_between, Cursor.pass_between]
      split
      · exact .some (.before (by simpa using whole))
      · exact .none
  | @after p q x whole =>
    right
    cases q with
    | nil => exact .none
    | cons z q =>
      rw [Cursor.pass_between, Cursor.pass_between]
      split
      · have onward : LineEndMatched u v b (.between (u ++ b :: x :: (p ++ [z])) q)
            (.between (u ++ x :: (p ++ [z])) q) := .after (by simpa using whole)
        simpa using Option.Rel.some onward
      · exact .none

/-- Matched places, or the places right behind the dropped blank. -/
abbrev LineEndPartners (u v : Text) (b : Char) (c c' : Cursor) : Prop :=
  LineEndMatched u v b c c' ∨ LineEndAmid u v b c c'

/-- How two runs over all blanks go on: with the same choices but for the dropped blank. -/
abbrev LineEndRuns (u v : Text) (b : Char) : List Cursor → List Cursor → Prop :=
  RunsAlike (LineEndMatched u v b) (LineEndAmid u v b) (LineEndPartners u v b)

/-- The place behind the dropped blank is no choice of its own. -/
theorem LineEndRuns.amid {c c' : Cursor} {l l' : List Cursor} (here : LineEndAmid u v b c c')
    (h : List.Forall₂ (LineEndMatched u v b) l l') : LineEndRuns u v b (c :: l) (c' :: l') := by
  refine ⟨.both (.inr here) (.of_forall₂ (h.imp fun _ _ => .inl)),
    .dropLeft ⟨c', here⟩ (.dropRight ⟨c, here⟩ (.of_forall₂ h)), ?_⟩
  cases l with
  | nil =>
    cases h
    exact ⟨c, c', rfl, rfl, .inr here⟩
  | cons d l =>
    have rest : LineEndRuns u v b (d :: l) l' := .of_forall₂ .inl h (List.cons_ne_nil _ _)
    obtain ⟨e, e', last, last', k⟩ := rest.last
    refine ⟨e, e', ?_, ?_, k⟩
    · rw [List.getLast?_cons, last]
      rfl
    · rw [List.getLast?_cons, last']
      rfl

/-- A place before the dropped blank has the place behind it as one more choice. -/
theorem LineEndRuns.moreLeft {c d c' : Cursor} {l l' : List Cursor} (here : LineEndMatched u v b c c')
    (amid : LineEndAmid u v b d c') (h : List.Forall₂ (LineEndMatched u v b) l l') :
    LineEndRuns u v b (c :: d :: l) (c' :: l') := by
  have rest := LineEndRuns.amid amid h
  obtain ⟨e, e', last, last', k⟩ := rest.last
  refine ⟨.moreLeft (.inl here) rest.partners,
    .both here (.dropLeft ⟨c', amid⟩ (.of_forall₂ h)), e, e', ?_, last', k⟩
  rw [List.getLast?_cons, last]
  rfl

section

variable (blank : isBlank b = true) (next : ∀ x ∈ v.head?, isBlank x = true) {set : Char → Bool}
  (full : lineEndSight.covers set = true)
include next full

/-- The choices right behind the dropped blank. -/
theorem exists_choices_amid : ∃ l l', List.Forall₂ (LineEndMatched u v b) l l' ∧
    (Cursor.between (u ++ [b]) v).choices set 0 = .between (u ++ [b]) v :: l ∧
    (Cursor.between u v).choices set 0 = .between u v :: l' ∧
    (Cursor.between (u ++ [b]) v).choices set 1 = l ∧ (Cursor.between u v).choices set 1 = l' := by
  cases v with
  | nil => exact ⟨[], [], .nil, rfl, rfl, rfl, rfl⟩
  | cons x v =>
    have inside : set x = true := lineEndSight.of_covers full (next x rfl)
    have tails : List.Forall₂ (LineEndMatched u (x :: v) b)
        ((Cursor.between (u ++ b :: [x]) v).choices set 0)
        ((Cursor.between (u ++ [x]) v).choices set 0) := LineEndMatched.run_after (p := []) rfl
    refine ⟨_, _, tails, ?_, ?_, ?_, ?_⟩
    · simp [Cursor.choices_between, inside]
    · simp [Cursor.choices_between, inside]
    · simp [Cursor.choices_succ, Cursor.pass_between, inside]
    · simp [Cursor.choices_succ, Cursor.pass_between, inside]

include blank in
/-- The choices from a place before the dropped blank. -/
theorem runsAlike_before {p q : Text} (h : p ++ q = u) :
    LineEndRuns u v b ((Cursor.between p (q ++ b :: v)).choices set 0)
      ((Cursor.between p (q ++ v)).choices set 0) := by
  induction q generalizing p with
  | nil =>
    obtain rfl : p = u := by simpa using h
    obtain ⟨l, l', tails, left, right, -, -⟩ :=
      exists_choices_amid (u := p) (v := v) (b := b) next full
    have inside : set b = true := lineEndSight.of_covers full blank
    have here : LineEndMatched p v b (.between p (b :: v)) (.between p v) := .before (q := []) h
    rw [List.nil_append, List.nil_append, Cursor.choices_between, if_pos inside, left, right]
    exact LineEndRuns.moreLeft here ⟨rfl, rfl⟩ tails
  | cons x q ih =>
    have here : LineEndMatched u v b (.between p (x :: (q ++ b :: v))) (.between p (x :: (q ++ v))) :=
      .before h
    rw [List.cons_append, List.cons_append, Cursor.choices_between, Cursor.choices_between]
    split
    · exact .cons here (ih (p := p ++ [x]) (by simpa using h))
    · exact .single .inl here

omit full in
include blank in
theorem skip_lineEndMatched {same : Char → Char → Bool} {cs : List Char}
    (free : lineEndSight.Avoids same cs) {c c' : Cursor} (h : LineEndMatched u v b c c') :
    Option.Rel (LineEndMatched u v b) (c.skip same cs) (c'.skip same cs) := by
  induction cs generalizing c c' with
  | nil => exact .some h
  | cons y ys ih =>
    have later {d d' : Cursor} (h : LineEndMatched u v b d d') :=
      ih (fun x mem => free x (List.mem_cons_of_mem _ mem)) h
    have unlike (x : Char) (h : isBlank x = true) : same y x = false :=
      free y List.mem_cons_self x (mem_blankChars h)
    cases h with
    | @before p q h =>
      cases q with
      | nil =>
        -- the literal would have to pass the blank, or the one behind it
        rw [List.nil_append, List.nil_append, Cursor.skip_between, unlike b blank]
        cases v with
        | nil => exact .none
        | cons x v =>
          rw [Cursor.skip_between, unlike x (next x rfl)]
          exact .none
      | cons x q =>
        rw [List.cons_append, List.cons_append, Cursor.skip_between, Cursor.skip_between]
        split
        · exact later (.before (by simpa using h))
        · exact .none
    | @after p q x h =>
      cases q with
      | nil => exact .none
      | cons z q =>
        rw [Cursor.skip_between, Cursor.skip_between]
        split
        · have onward : LineEndMatched u v b (.between (u ++ b :: x :: (p ++ [z])) q)
              (.between (u ++ x :: (p ++ [z])) q) := .after (by simpa using h)
          simpa using later onward
        · exact .none

omit full in
include blank in
theorem pass_lineEndMatched (free : lineEndSight.misses set = true) {c c' : Cursor}
    (h : LineEndMatched u v b c c') :
    Option.Rel (LineEndMatched u v b) (c.pass set 1) (c'.pass set 1) := by
  rcases h.pass set with ⟨rfl, rfl⟩ | onward
  · rw [Cursor.pass_between, lineEndSight.of_misses free blank]
    cases v with
    | nil => exact .none
    | cons x v =>
      rw [Cursor.pass_between, lineEndSight.of_misses free (next x rfl)]
      exact .none
  · exact onward

end

/-- The places of a text and of the same text without a blank at the end of a line. -/
def Likeness.lineEnd (u v : Text) {b : Char} (blank : isBlank b = true)
    (next : ∀ x ∈ v.head?, isBlank x = true) :
    Likeness lineEndSight (u ++ b :: v) (u ++ v) where
  matched := LineEndMatched u v b
  amid := LineEndAmid u v b
  kept := LineEndPartners u v b
  kept_of_matched := .inl
  partners_of_kept := id
  isIn_matched := by
    rintro c c' (@⟨p, q, rfl⟩ | @⟨p, q, x, rfl⟩)
    · exact ⟨by simpa using Cursor.isIn_between p (q ++ b :: v),
        by simpa using Cursor.isIn_between p (q ++ v)⟩
    · exact ⟨by simpa using Cursor.isIn_between (u ++ b :: x :: p) q,
        by simpa using Cursor.isIn_between (u ++ x :: p) q⟩
  isIn_amid := by
    rintro c c' ⟨rfl, rfl⟩
    exact ⟨by simpa using Cursor.isIn_between (u ++ [b]) v, Cursor.isIn_between u v⟩
  skip_matched := skip_lineEndMatched blank next
  skip_amid := by
    rintro same y ys free c c' ⟨rfl, rfl⟩
    cases v with
    | nil => exact ⟨rfl, rfl⟩
    | cons x v =>
      have unlike := free y List.mem_cons_self x (mem_blankChars (next x rfl))
      simp [Cursor.skip_between, unlike]
  pass_matched := pass_lineEndMatched blank next
  pass_amid := by
    rintro set free c c' ⟨rfl, rfl⟩
    cases v with
    | nil => exact ⟨rfl, rfl⟩
    | cons x v => simp [Cursor.pass_between, lineEndSight.of_misses free (next x rfl)]
  choices := by
    intro set full c c' partners
    have alike : LineEndRuns u v b (c.choices set 0) (c'.choices set 0) := by
      rcases partners with (@⟨p, q, h⟩ | @⟨p, q, x, h⟩) | ⟨rfl, rfl⟩
      · exact runsAlike_before blank next full h
      · refine .of_forall₂ .inl (LineEndMatched.run_after h) ?_
        rw [Cursor.choices_zero, Cursor.run_eq]
        exact List.cons_ne_nil _ _
      · obtain ⟨l, l', tails, left, right, -, -⟩ := exists_choices_amid next full
        rw [left, right]
        exact LineEndRuns.amid ⟨rfl, rfl⟩ tails
    exact ⟨alike.partners, alike.last⟩
  choices_one := by
    intro set full c c' partners
    rcases partners with (@⟨p, q, h⟩ | @⟨p, q, x, h⟩) | ⟨rfl, rfl⟩
    · cases q with
      | nil =>
        obtain rfl : p = u := by simpa using h
        obtain ⟨l, l', tails, left, -, -, right⟩ :=
          exists_choices_amid (u := p) (v := v) (b := b) next full
        rw [List.nil_append, List.nil_append, Cursor.choices_succ, Cursor.pass_between,
          if_pos (lineEndSight.of_covers full blank), Option.map_some, Option.getD_some, left, right]
        exact .dropLeft ⟨_, rfl, rfl⟩ (.of_forall₂ tails)
      | cons x q =>
        rw [List.cons_append, List.cons_append, Cursor.choices_succ, Cursor.choices_succ,
          Cursor.pass_between, Cursor.pass_between]
        split
        · exact (runsAlike_before blank next full (p := p ++ [x]) (by simpa using h)).matched
        · exact .nil
    · cases q with
      | nil => exact .nil
      | cons z q =>
        have tails := @LineEndMatched.run_after u v b set (p ++ [z]) q x (by simpa using h)
        rw [Cursor.choices_succ, Cursor.choices_succ, Cursor.pass_between, Cursor.pass_between]
        split
        · exact .of_forall₂ (by simpa using tails)
        · exact .nil
    · obtain ⟨l, l', tails, -, -, left, right⟩ := exists_choices_amid next full
      rw [left, right]
      exact .of_forall₂ tails
  word_matched := by
    rintro c c' (@⟨p, q, h⟩ | @⟨p, q, x, h⟩)
    · cases q with
      | cons x q => rfl
      | nil =>
        have behind : v.head?.any isWordChar = false := by
          cases first : v.head? with
          | none => rfl
          | some x => exact isWordChar_of_isBlank (next x first)
        simp [Edge.holds, Cursor.between, isWordChar_of_isBlank blank, behind]
    · cases p <;> simp [Edge.holds, Cursor.between]

section

variable {u v : Text} {b : Char} {blank : isBlank b = true} {next : ∀ x ∈ v.head?, isBlank x = true}

theorem Likeness.start_lineEnd :
    (lineEnd u v blank next).matched (.start (u ++ b :: v)) (.start (u ++ v)) :=
  .before (p := []) rfl

/-- A character of a set and a run behind it, where only characters of both sets can follow. -/
theorem Pattern.reach_one_most {set set' : Char → Bool} (f : Cursor → Option Trace) (p : Text) {q : Text}
    (next : ∀ x ∈ q.head?, set x = true ∧ set' x = true) :
    (Pattern.one set ++ .most set' 0).reach f (.between p q) =
      ((Cursor.between p q).choices set' 1).reverse.findSome? f := by
  change ((Cursor.between p q).pass set 1).bind ((Pattern.most set' 0).reach f) = _
  cases q with
  | nil => rfl
  | cons x q =>
    obtain ⟨first, first'⟩ := next x rfl
    rw [Cursor.choices_succ, Cursor.pass_between, Cursor.pass_between, if_pos first, if_pos first',
      Option.bind_some, Option.map_some, Option.getD_some, Pattern.reach_most]

/-- A blank and a run over all blanks behind it: where the blank is dropped, the run goes on without it
    as from the blank that follows. -/
theorem Grade.Holds.one_most (set set' : Char → Bool) {f f' : Cursor → Option Trace}
    (full : lineEndSight.covers set = true) (full' : lineEndSight.covers set' = true)
    (h : Grade.shut.Holds (Likeness.lineEnd u v blank next) f f') :
    Grade.even.Holds (Likeness.lineEnd u v blank next) ((Pattern.one set ++ .most set' 0).reach f)
      ((Pattern.one set ++ .most set' 0).reach f') := by
  have inside {x : Char} (blank : isBlank x = true) : set x = true ∧ set' x = true :=
    ⟨lineEndSight.of_covers full blank, lineEndSight.of_covers full' blank⟩
  have behind (k : Cursor → Option Trace) (p : Text) :=
    Pattern.reach_one_most k p fun x first => inside (next x first)
  have runs := h.covered_one full' true
  have onward := (h.even.covered full' true).1
  refine ⟨fun c c' m => ?_, ?_⟩
  · rcases LineEndMatched.pass m set with ⟨rfl, rfl⟩ | step
    · rw [behind, Pattern.reach_one_most f u (q := b :: v) (by rintro x ⟨⟩; exact inside blank)]
      exact runs.1 _ _ m
    · change Option.Rel _ ((c.pass set 1).bind ((Pattern.most set' 0).reach f))
        ((c'.pass set 1).bind ((Pattern.most set' 0).reach f'))
      revert step
      cases c.pass set 1 <;> cases c'.pass set 1 <;> rintro ⟨⟩
      · exact .none
      · rw [Option.bind_some, Option.bind_some, Pattern.reach_most, Pattern.reach_most]
        exact onward _ _ ‹_›
  · rintro c c' ⟨rfl, rfl⟩
    rw [behind, behind]
    exact runs.2 _ _ ⟨rfl, rfl⟩

end

end

/-- The characters of corresponding stretches are the same, but for the dropped blank. -/
theorem Span.chars_lineEnd {u v : Text} {b : Char} (blank : isBlank b = true)
    (next : ∀ x ∈ v.head?, x = '\n' ∨ x = '\r') {s s' : Span} (h : s.Alike (LineEndPartners u v b) s') :
    s.chars = s'.chars ∨ DropsBlank s.chars s'.chars := by
  obtain ⟨start, stop⟩ := s
  obtain ⟨start', stop'⟩ := s'
  obtain ⟨(@⟨p, q, h⟩ | @⟨p, q, x, h⟩) | ⟨rfl, rfl⟩, (@⟨p', q', h'⟩ | @⟨p', q', x', h'⟩) | ⟨rfl, rfl⟩⟩ := h
  all_goals simp only [chars, length, Cursor.between]
  case inl.before.inl.before =>
    left
    have inside : p'.length - p.length ≤ q.length := by
      have := congrArg List.length (h.trans h'.symm)
      simp only [List.length_append] at this
      omega
    rw [List.take_append_of_le_length inside, List.take_append_of_le_length inside]
  case inl.before.inl.after =>
    right
    subst h h'
    have old : (p ++ q ++ b :: x' :: p').length - p.length = (q ++ b :: x' :: p').length := by
      simp
    have new : (p ++ q ++ x' :: p').length - p.length = (q ++ x' :: p').length := by
      simp
    have split : q ++ b :: (x' :: p' ++ q') = q ++ b :: x' :: p' ++ q' := by simp
    rw [old, new, split, ← List.append_assoc, List.take_left, List.take_left]
    exact .intro q (x' :: p') blank (by simpa using next)
  case inl.before.inr =>
    right
    subst h
    have old : (p ++ q ++ [b]).length - p.length = (q ++ [b]).length := by simp
    have new : (p ++ q).length - p.length = q.length := by simp
    have split : q ++ b :: v = q ++ [b] ++ v := by simp
    rw [old, new, split, List.take_left, List.take_left]
    have drop := DropsBlank.intro q [] blank (by simp)
    rwa [List.append_nil] at drop
  case inl.after.inl.before =>
    left
    have short : p'.length ≤ u.length := by
      rw [← h', List.length_append]
      omega
    have old : p'.length - (u ++ b :: x :: p).length = 0 := by
      rw [List.length_append]
      omega
    have new : p'.length - (u ++ x :: p).length = 0 := by
      rw [List.length_append]
      omega
    rw [old, new, List.take_zero]
  case inr.inl.before =>
    left
    have short : p'.length ≤ u.length := by
      rw [← h', List.length_append]
      omega
    have old : p'.length - (u ++ [b]).length = 0 := by
      rw [List.length_append]
      omega
    rw [old, Nat.sub_eq_zero_of_le short]
  all_goals
    left
    congr 1
    simp only [List.length_append, List.length_cons, List.length_nil]
    omega

/-- Where word characters are kept, nothing is dropped. -/
theorem Hit.Edited.groupChars_eq {hit hit' : Hit} (edited : hit.Edited DropsBlank hit') {index : Nat}
    (word : ∀ c ∈ hit.groupChars index, isWordChar c = true) :
    hit.groupChars index = hit'.groupChars index := by
  rcases edited.groupChars index with same | dropped
  · exact same
  · obtain ⟨b, inside, blank⟩ := dropped.exists_mem
    rw [isBlank_of_isWordChar (word b inside)] at blank
    cases blank

/-- The pattern does not notice a blank that is dropped at the end of a line. -/
def Pattern.OverlooksLineEnds (p : Pattern) : Prop :=
  ∀ (u v : Text) {b : Char} (blank : isBlank b = true) (next : ∀ x ∈ v.head?, isBlank x = true),
    (Likeness.lineEnd u v blank next).Shuts p

theorem Pattern.Unmoved.overlooksLineEnds {p : Pattern} (unmoved : p.Unmoved lineEndSight) :
    p.OverlooksLineEnds := fun _ _ _ _ _ => Likeness.shuts _ unmoved

namespace DropsBlank

variable {t t' : Text} (h : DropsBlank t t') {p : Pattern} (overlooks : p.OverlooksLineEnds)
include h overlooks

theorem findAll_edited : List.Forall₂ (Hit.Edited DropsBlank) (p.findAll t) (p.findAll t') := by
  obtain ⟨u, v, blank, next⟩ := h
  have hits := (overlooks u v blank (isBlank_of_next next)).findAll_alike Likeness.start_lineEnd
  exact hits.imp fun hit hit' alike => alike.edited (Span.chars_lineEnd blank next)

theorem occurs_eq : p.occurs t = p.occurs t' := by
  obtain ⟨u, v, blank, next⟩ := h
  exact (overlooks u v blank (isBlank_of_next next)).occurs_eq Likeness.start_lineEnd

/-- The character before a match stays where it is. -/
theorem occurs_one_seq (set : Char → Bool) (found : (Pattern.one set ++ p).occurs t = true) :
    (Pattern.one set ++ p).occurs t' = true := by
  have moves : (Pattern.one set ++ p).isSkippable = false := rfl
  rw [Pattern.occurs_iff moves] at found ⊢
  obtain ⟨c, d, place, m, first, second⟩ := found
  obtain ⟨w, a, parts, rfl⟩ := place.exists_between
  obtain ⟨y, q, rfl, inside, rfl⟩ : ∃ y q, a = y :: q ∧ set y = true ∧ m = .between (w ++ [y]) q := by
    cases a with
    | nil => cases first
    | cons y q =>
      have step : (Cursor.between w (y :: q)).pass set 1 = some m := first
      rw [Cursor.pass_between] at step
      split at step
      · rename_i inside
        exact ⟨y, q, rfl, inside, (Option.some.inj step).symm⟩
      · cases step
  obtain ⟨u, v, blank, next⟩ := h
  rename_i b
  let like := Likeness.lineEnd u v blank (isBlank_of_next next)
  have shut := (overlooks u v blank (isBlank_of_next next)).shut
  have there : (p.reach (fun d => some (.done d)) (.between (w ++ [y]) q)).isSome = true :=
    p.isSome_reach second rfl
  -- where the match goes on from in the new text, the same character stands before it
  have onward : ∀ w' q', like.matched (.between (w ++ [y]) q) (.between (w' ++ [y]) q') →
      w' ++ y :: q' = u ++ v → ∃ c d, c.IsIn (u ++ v) ∧ (Pattern.one set ++ p).Passes c d := by
    intro w' q' m parts'
    have rel := shut.1 _ _ m
    obtain ⟨r, found⟩ : ∃ r, p.reach (fun d => some (.done d)) (.between (w' ++ [y]) q') = some r := by
      cases new : p.reach (fun d => some (.done d)) (.between (w' ++ [y]) q') with
      | some r => exact ⟨r, rfl⟩
      | none =>
        rw [new] at rel
        revert there rel
        cases p.reach (fun d => some (.done d)) (.between (w ++ [y]) q) with
        | none => exact fun there _ => absurd there (by simp)
        | some r => exact fun _ rel => nomatch rel
    obtain ⟨d', _, _, way, -⟩ := p.exists_keeps_of_reach found
    refine ⟨.between w' (y :: q'), d', parts' ▸ Cursor.isIn_between w' (y :: q'), _, ?_, way.passes⟩
    change (Cursor.between w' (y :: q')).pass set 1 = _
    rw [Cursor.pass_between, if_pos inside]
  have parts : (w ++ [y]) ++ q = u ++ b :: v := by simpa using parts
  rcases List.append_eq_append_iff.1 parts with ⟨q₁, whole, rest⟩ | ⟨v₁, whole, rest⟩
  · subst rest
    exact onward w (q₁ ++ v) (.before whole.symm) (by simp [whole])
  · cases v₁ with
    | nil =>
      obtain rfl : b :: v = q := rest
      obtain rfl : w ++ [y] = u := by simpa using whole
      exact onward w v (.before (q := []) (by simp)) (by simp)
    | cons x v₂ =>
      obtain ⟨rfl, rfl⟩ := List.cons.inj rest
      rcases List.eq_nil_or_concat v₂ with rfl | ⟨v₃, z, rfl⟩
      · -- right behind the dropped blank there is no match
        have amid : like.amid (.between (w ++ [y]) q) (.between u q) := ⟨by rw [whole]; rfl, rfl⟩
        rw [(shut.2 _ _ amid).1] at there
        cases there
      · obtain ⟨rfl, rfl⟩ : w = u ++ b :: v₃ ∧ y = z := by
          have ends : w ++ [y] = (u ++ b :: v₃) ++ [z] := by simpa using whole
          simpa using List.append_inj' ends rfl
        have behind : LineEndMatched u (v₃ ++ [y] ++ q) b (.between (u ++ b :: (v₃ ++ [y])) q)
            (.between (u ++ (v₃ ++ [y])) q) := .of_ne_nil (by simp) rfl
        exact onward (u ++ v₃) q (by simpa [like, Likeness.lineEnd] using behind) (by simp)

end DropsBlank

instance (same : Char → Char → Bool) (cs : List Char) : Decidable (lineEndSight.Avoids same cs) :=
  decidable_of_iff ((cs.all fun x => blankChars.all fun y => !same x y) = true)
    (by simp [lineEndSight])

end SourceAudit

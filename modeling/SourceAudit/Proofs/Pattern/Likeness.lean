/-
Module: SourceAudit.Proofs.Pattern.Likeness
Layer: Proofs
Purpose: When a pattern finds the same in two texts that differ in one stretch. Places outside the
  stretch are matched with each other, places amid it are paired as well, and what follows a part of a
  pattern is graded by how far it agrees on such places. The grade of a whole pattern is computed from
  its end to its start; a pattern that is shut amid the stretch has the same matches in both texts.
Main exports: Aligned, Trace.Alike, Hit.Alike, Sight, Likeness, Grade, Pattern.grade,
  Pattern.holds_of_grade, Likeness.Shuts, Likeness.shuts, Likeness.Shuts.hitAt_alike,
  Likeness.Shuts.findAll_alike, Likeness.Shuts.occurs_eq
-/
import SourceAudit.Proofs.Pattern.Places
import Mathlib.Data.List.Forall2

namespace SourceAudit

section Aligned

variable {α β γ δ : Type} {R : α → β → Prop} {X : α → Prop} {Y : β → Prop}

/-- Two lists whose members are partners in order. A member may have several partners in a row, and
    those of `X` and `Y` may have none. -/
inductive Aligned (R : α → β → Prop) (X : α → Prop) (Y : β → Prop) : List α → List β → Prop where
  | nil : Aligned R X Y [] []
  | both {a : α} {b : β} {as : List α} {bs : List β} (here : R a b) (rest : Aligned R X Y as bs) :
      Aligned R X Y (a :: as) (b :: bs)
  | moreRight {a : α} {b : β} {as : List α} {bs : List β} (here : R a b)
      (rest : Aligned R X Y (a :: as) bs) : Aligned R X Y (a :: as) (b :: bs)
  | moreLeft {a : α} {b : β} {as : List α} {bs : List β} (here : R a b)
      (rest : Aligned R X Y as (b :: bs)) : Aligned R X Y (a :: as) (b :: bs)
  | dropLeft {a : α} {as : List α} {bs : List β} (lone : X a) (rest : Aligned R X Y as bs) :
      Aligned R X Y (a :: as) bs
  | dropRight {b : β} {as : List α} {bs : List β} (lone : Y b) (rest : Aligned R X Y as bs) :
      Aligned R X Y as (b :: bs)

theorem Aligned.of_forall₂ {as : List α} {bs : List β} (h : List.Forall₂ R as bs) :
    Aligned R X Y as bs := by
  induction h with
  | nil => exact .nil
  | cons here _ ih => exact .both here ih

theorem Aligned.append {as cs : List α} {bs ds : List β} (h : Aligned R X Y as bs)
    (h' : Aligned R X Y cs ds) : Aligned R X Y (as ++ cs) (bs ++ ds) := by
  induction h with
  | nil => exact h'
  | both here _ ih => exact .both here ih
  | moreRight here _ ih => exact .moreRight here ih
  | moreLeft here _ ih => exact .moreLeft here ih
  | dropLeft lone _ ih => exact .dropLeft lone ih
  | dropRight lone _ ih => exact .dropRight lone ih

/-- Lists that are not empty and all of whose members are partners are aligned. -/
theorem Aligned.of_forall {as : List α} {bs : List β} (left : as ≠ []) (right : bs ≠ [])
    (h : ∀ a ∈ as, ∀ b ∈ bs, R a b) : Aligned R X Y as bs := by
  induction as with
  | nil => exact absurd rfl left
  | cons a as ih =>
    cases as with
    | cons a' as =>
      have rest := ih (List.cons_ne_nil _ _) fun x mem => h x (List.mem_cons_of_mem _ mem)
      cases bs with
      | nil => exact absurd rfl right
      | cons b bs => exact .moreLeft (h a List.mem_cons_self b List.mem_cons_self) rest
    | nil =>
      have alone := h a List.mem_cons_self
      clear h ih
      induction bs with
      | nil => exact absurd rfl right
      | cons b bs ih =>
        cases bs with
        | nil => exact .both (alone b List.mem_cons_self) .nil
        | cons b' bs =>
          exact .moreRight (alone b List.mem_cons_self)
            (ih (List.cons_ne_nil _ _) fun x mem => alone x (List.mem_cons_of_mem _ mem))

theorem Aligned.of_lone {as : List α} {bs : List β} (left : ∀ a ∈ as, X a) (right : ∀ b ∈ bs, Y b) :
    Aligned R X Y as bs := by
  induction as with
  | cons a as ih =>
    exact .dropLeft (left a List.mem_cons_self) (ih fun x mem => left x (List.mem_cons_of_mem _ mem))
  | nil =>
    induction bs with
    | nil => exact .nil
    | cons b bs ih =>
      exact .dropRight (right b List.mem_cons_self)
        (ih fun x mem => right x (List.mem_cons_of_mem _ mem))

variable {Q : γ → δ → Prop} {f : α → Option γ} {g : β → Option δ}

/-- Of two aligned lists the first results are alike, when partners have like results and members
    without a partner have none. -/
theorem Aligned.findSome? {as : List α} {bs : List β} (h : Aligned R X Y as bs)
    (agree : ∀ a b, R a b → Option.Rel Q (f a) (g b)) (left : ∀ a, X a → f a = none)
    (right : ∀ b, Y b → g b = none) : Option.Rel Q (as.findSome? f) (bs.findSome? g) := by
  induction h with
  | nil => exact .none
  | both here _ ih =>
    rw [List.findSome?_cons, List.findSome?_cons]
    have := agree _ _ here
    revert this
    cases f _ <;> cases g _ <;> rintro ⟨⟩
    · exact ih
    · exact .some ‹_›
  | @moreRight a b as bs here _ ih =>
    rw [List.findSome?_cons, List.findSome?_cons] at *
    have := agree a b here
    revert this ih
    cases f a <;> cases g b <;> intro ih this <;> cases this
    · exact ih
    · exact .some ‹_›
  | @moreLeft a b as bs here _ ih =>
    rw [List.findSome?_cons, List.findSome?_cons] at *
    have := agree a b here
    revert this ih
    cases f a <;> cases g b <;> intro ih this <;> cases this
    · exact ih
    · exact .some ‹_›
  | dropLeft lone _ ih => rwa [List.findSome?_cons, left _ lone]
  | dropRight lone _ ih => rwa [List.findSome?_cons, right _ lone]

theorem findSome?_reverse_cons (f : α → Option γ) (a : α) (as : List α) :
    (a :: as).reverse.findSome? f = (as.reverse.findSome? f).or (f a) := by
  rw [List.reverse_cons, List.findSome?_append]
  congr 1
  cases h : f a <;> simp [h]

/-- The same for the last results. -/
theorem Aligned.findSome?_reverse {as : List α} {bs : List β} (h : Aligned R X Y as bs)
    (agree : ∀ a b, R a b → Option.Rel Q (f a) (g b)) (left : ∀ a, X a → f a = none)
    (right : ∀ b, Y b → g b = none) :
    Option.Rel Q (as.reverse.findSome? f) (bs.reverse.findSome? g) := by
  induction h with
  | nil => exact .none
  | both here _ ih =>
    rw [findSome?_reverse_cons, findSome?_reverse_cons]
    revert ih
    cases List.findSome? f _ <;> cases List.findSome? g _ <;> rintro ⟨⟩
    · simpa using agree _ _ here
    · exact .some ‹_›
  | @moreRight a b as bs here _ ih =>
    rw [findSome?_reverse_cons] at *
    rw [findSome?_reverse_cons]
    have := agree a b here
    revert this ih
    cases List.findSome? f as.reverse <;> cases List.findSome? g bs.reverse <;> cases f a <;>
      cases g b <;> intro ih this <;> cases this <;> cases ih <;>
      first | exact .none | exact .some ‹_›
  | @moreLeft a b as bs here _ ih =>
    rw [findSome?_reverse_cons] at *
    rw [findSome?_reverse_cons]
    have := agree a b here
    revert this ih
    cases List.findSome? f as.reverse <;> cases List.findSome? g bs.reverse <;> cases f a <;>
      cases g b <;> intro ih this <;> cases this <;> cases ih <;>
      first | exact .none | exact .some ‹_›
  | dropLeft lone _ ih =>
    rw [findSome?_reverse_cons, left _ lone, Option.or_none]
    exact ih
  | dropRight lone _ ih =>
    rw [findSome?_reverse_cons, right _ lone, Option.or_none]
    exact ih

end Aligned

/-- Both ends of two stretches correspond. -/
def Span.Alike (R : Cursor → Cursor → Prop) (s s' : Span) : Prop :=
  R s.start s'.start ∧ R s.stop s'.stop

/-- Two matches that end, and keep stretches, at corresponding places. -/
structure Trace.Alike (R : Cursor → Cursor → Prop) (r r' : Trace) : Prop where
  stop : R r.stop r'.stop
  groups : List.Forall₂ (fun g g' => g.1 = g'.1 ∧ g.2.Alike R g'.2) r.groups r'.groups
  ends : List.Forall₂ R r.ends r'.ends

/-- Two hits at corresponding places. -/
structure Hit.Alike (R : Cursor → Cursor → Prop) (h h' : Hit) : Prop where
  whole : h.whole.Alike R h'.whole
  groups : List.Forall₂ (fun g g' => g.1 = g'.1 ∧ g.2.Alike R g'.2) h.groups h'.groups

/-- What is kept under a number corresponds. -/
theorem Hit.Alike.group? {R : Cursor → Cursor → Prop} {h h' : Hit} (alike : h.Alike R h')
    (index : Nat) : Option.Rel (Span.Alike R) (h.group? index) (h'.group? index) := by
  have groups := alike.groups
  rw [Hit.group?, Hit.group?]
  revert groups
  generalize h.groups = gs
  generalize h'.groups = gs'
  intro groups
  induction groups with
  | nil => exact .none
  | @cons g g' _ _ here _ ih =>
    obtain ⟨i, s⟩ := g
    obtain ⟨i', s'⟩ := g'
    obtain ⟨rfl, ends⟩ := here
    simp only [List.lookup_cons]
    cases index == i with
    | true => exact .some ends
    | false => exact ih

/-- What holds of the characters of corresponding stretches holds of the kept ones. -/
theorem Hit.Alike.groupChars {R : Cursor → Cursor → Prop} {Q : Text → Text → Prop} {h h' : Hit}
    (alike : h.Alike R h') (nothing : Q [] [])
    (spans : ∀ {s s' : Span}, s.Alike R s' → Q s.chars s'.chars) (index : Nat) :
    Q (h.groupChars index) (h'.groupChars index) := by
  have kept := alike.group? index
  rw [Hit.groupChars, Hit.groupChars]
  revert kept
  cases h.group? index <;> cases h'.group? index <;> rintro ⟨⟩
  · exact nothing
  · exact spans ‹_›

/-- Two matches that cover, and keep, the same characters or characters that are related. -/
structure Hit.Edited (Q : Text → Text → Prop) (hit hit' : Hit) : Prop where
  chars : hit.chars = hit'.chars ∨ Q hit.chars hit'.chars
  groupChars (index : Nat) : hit.groupChars index = hit'.groupChars index ∨
    Q (hit.groupChars index) (hit'.groupChars index)

theorem Hit.Alike.edited {R : Cursor → Cursor → Prop} {Q : Text → Text → Prop} {h h' : Hit}
    (alike : h.Alike R h') (spans : ∀ {s s' : Span}, s.Alike R s' → s.chars = s'.chars ∨ Q s.chars s'.chars) :
    h.Edited Q h' :=
  ⟨spans alike.whole, alike.groupChars (Q := fun cs cs' => cs = cs' ∨ Q cs cs') (.inl rfl) spans⟩

theorem Trace.Alike.begin {R : Cursor → Cursor → Prop} {r r' : Trace} (h : r.Alike R r') (index : Nat)
    {c c' : Cursor} (here : R c c') : (r.begin index c).Alike R (r'.begin index c') := by
  obtain ⟨stop, groups, ends⟩ := r
  obtain ⟨stop', groups', ends'⟩ := r'
  obtain ⟨hstop, hgroups, hends⟩ := h
  cases hends with
  | nil => exact ⟨hstop, hgroups, .nil⟩
  | cons first rest => exact ⟨hstop, .cons ⟨rfl, here, first⟩ hgroups, rest⟩

/-- How an edit lies in the eyes of a pattern: the literals that cannot touch the edited stretch, and
    the sets that hold all of its characters or none of them. -/
structure Sight where
  Avoids : (same : Char → Char → Bool) → List Char → Prop
  covers : (set : Char → Bool) → Bool
  misses : (set : Char → Bool) → Bool
  covers_any : covers anyChar = true

/-- A pairing of the places of two texts that differ in one stretch: `matched` outside the stretch and
    `amid` it. Matches may start and end at places that are `kept`. -/
structure Likeness (sight : Sight) (old new : Text) where
  matched : Cursor → Cursor → Prop
  amid : Cursor → Cursor → Prop
  kept : Cursor → Cursor → Prop
  kept_of_matched {c c' : Cursor} (h : matched c c') : kept c c'
  partners_of_kept {c c' : Cursor} (h : kept c c') : matched c c' ∨ amid c c'
  isIn_matched {c c' : Cursor} (h : matched c c') : c.IsIn old ∧ c'.IsIn new
  isIn_amid {c c' : Cursor} (h : amid c c') : c.IsIn old ∧ c'.IsIn new
  skip_matched {same : Char → Char → Bool} {cs : List Char} (free : sight.Avoids same cs)
    {c c' : Cursor} (h : matched c c') : Option.Rel matched (c.skip same cs) (c'.skip same cs)
  skip_amid {same : Char → Char → Bool} {x : Char} {cs : List Char}
    (free : sight.Avoids same (x :: cs)) {c c' : Cursor} (h : amid c c') :
    c.skip same (x :: cs) = none ∧ c'.skip same (x :: cs) = none
  pass_matched {set : Char → Bool} (free : sight.misses set = true) {c c' : Cursor}
    (h : matched c c') : Option.Rel matched (c.pass set 1) (c'.pass set 1)
  pass_amid {set : Char → Bool} (free : sight.misses set = true) {c c' : Cursor} (h : amid c c') :
    c.pass set 1 = none ∧ c'.pass set 1 = none
  /-- A run that takes in the whole stretch comes out of it behind partners. -/
  choices {set : Char → Bool} (full : sight.covers set = true) {c c' : Cursor}
    (h : matched c c' ∨ amid c c') :
    Aligned (fun d d' => matched d d' ∨ amid d d') (fun _ => False) (fun _ => False)
        (c.choices set 0) (c'.choices set 0) ∧
      ∃ d d', (c.choices set 0).getLast? = some d ∧ (c'.choices set 0).getLast? = some d' ∧
        kept d d'
  choices_one {set : Char → Bool} (full : sight.covers set = true) {c c' : Cursor}
    (h : matched c c' ∨ amid c c') :
    Aligned matched (fun d => ∃ d', amid d d') (fun d' => ∃ d, amid d d')
      (c.choices set 1) (c'.choices set 1)
  word_matched {c c' : Cursor} (h : matched c c') : Edge.word.holds c = Edge.word.holds c'

/-- How two runs over the whole stretch go on: behind partners, of which those amid the stretch may be
    left out on either side, and up to places where a match may end. -/
structure RunsAlike (M A K : Cursor → Cursor → Prop) (l l' : List Cursor) : Prop where
  partners : Aligned (fun d d' => M d d' ∨ A d d') (fun _ => False) (fun _ => False) l l'
  matched : Aligned M (fun d => ∃ d', A d d') (fun d' => ∃ d, A d d') l l'
  last : ∃ d d', l.getLast? = some d ∧ l'.getLast? = some d' ∧ K d d'

namespace RunsAlike

variable {M A K : Cursor → Cursor → Prop} {c c' : Cursor} {l l' : List Cursor}

theorem cons (here : M c c') (h : RunsAlike M A K l l') : RunsAlike M A K (c :: l) (c' :: l') := by
  obtain ⟨d, d', last, last', k⟩ := h.last
  refine ⟨.both (.inl here) h.partners, .both here h.matched, d, d', ?_, ?_, k⟩
  · rw [List.getLast?_cons, last]
    rfl
  · rw [List.getLast?_cons, last']
    rfl

theorem single (keep : ∀ {d d'}, M d d' → K d d') (here : M c c') : RunsAlike M A K [c] [c'] :=
  ⟨.both (.inl here) .nil, .both here .nil, c, c', rfl, rfl, keep here⟩

theorem of_forall₂ (keep : ∀ {d d'}, M d d' → K d d') (h : List.Forall₂ M l l') (some : l ≠ []) :
    RunsAlike M A K l l' := by
  induction h with
  | nil => exact absurd rfl some
  | @cons c c' l l' here rest ih =>
    cases rest with
    | nil => exact .single keep here
    | cons => exact .cons here (ih (List.cons_ne_nil _ _))

end RunsAlike

/-- How far what follows agrees on the places of two texts. -/
inductive Grade where
  /-- It agrees outside the stretch, and there is nothing to be found amid it. -/
  | shut
  /-- It agrees outside the stretch and amid it. -/
  | even
  /-- It agrees outside the stretch. -/
  | outer
  /-- It agrees wherever a match may end, and something is found everywhere. -/
  | open
deriving DecidableEq

namespace Grade

/-- The grade of an empty run, which leaves the place to what follows. -/
def still : Grade → Grade
  | .shut => .shut
  | .even => .even
  | .outer => .outer
  | .open => .outer

/-- The grade at an edge. -/
def edged : Grade → Grade
  | .shut => .shut
  | _ => .outer

/-- The grade where a stretch that is kept ends. -/
def closed : Grade → Grade
  | .shut => .shut
  | .even => .outer
  | .outer => .outer
  | .open => .open

/-- The grade of a choice between two parts. -/
def meet : Grade → Grade → Grade
  | .shut, .shut => .shut
  | .shut, .even | .even, .shut | .even, .even => .even
  | _, _ => .outer

/-- The grade of a run that takes in the stretch, as many characters as possible. -/
def coveredMost (least : Nat) (g : Grade) : Option Grade :=
  match least, g with
  | 0, .shut | 0, .even | 0, .open | 1, .shut => some .even
  | _, _ => none

/-- The grade of a run that takes in the stretch, as few characters as possible. -/
def coveredFewest (least : Nat) (g : Grade) : Option Grade :=
  match least, g with
  | 0, .shut | 0, .even | 1, .shut => some .even
  | _, _ => none

end Grade

namespace Pattern

/-- The grade of a pattern, given the grade of what follows it; none when nothing can be said. -/
def grade (sight : Sight) : Pattern → Grade → Option Grade
  | .literal _ [], g => some g
  | .literal _ (_ :: _), _ => some .shut
  | .one set, _ => if sight.misses set then some .shut else none
  | .most set least, g =>
    if sight.misses set then some (if least = 0 then g.still else .shut)
    else if sight.covers set then g.coveredMost least
    else none
  | .fewest set least, g =>
    if sight.misses set then some (if least = 0 then g.still else .shut)
    else if sight.covers set then g.coveredFewest least
    else none
  | .edge .word, g => some g.edged
  | .edge _, _ => none
  | .seq p q, g => (q.grade sight g).bind (p.grade sight)
  | .alt p q, g => (p.grade sight g).bind fun a => (q.grade sight g).map a.meet
  | .group _ p, g => (p.grade sight g.closed).map Grade.edged

/-- All literals of the pattern stay clear of the edited stretch. -/
def Avoids (sight : Sight) : Pattern → Prop
  | .literal same cs => sight.Avoids same cs
  | .seq p q => p.Avoids sight ∧ q.Avoids sight
  | .alt p q => p.Avoids sight ∧ q.Avoids sight
  | .group _ p => p.Avoids sight
  | _ => True

instance decidableAvoids (sight : Sight) [∀ same cs, Decidable (sight.Avoids same cs)] :
    (p : Pattern) → Decidable (p.Avoids sight)
  | .literal same cs => inferInstanceAs (Decidable (sight.Avoids same cs))
  | .one _ | .most _ _ | .fewest _ _ | .edge _ => isTrue trivial
  | .seq p q =>
    have := decidableAvoids sight p
    have := decidableAvoids sight q
    inferInstanceAs (Decidable (p.Avoids sight ∧ q.Avoids sight))
  | .alt p q =>
    have := decidableAvoids sight p
    have := decidableAvoids sight q
    inferInstanceAs (Decidable (p.Avoids sight ∧ q.Avoids sight))
  | .group _ p =>
    have := decidableAvoids sight p
    inferInstanceAs (Decidable (p.Avoids sight))

end Pattern

namespace Cursor

theorem pass_succ (set : Char → Bool) (c : Cursor) (n : Nat) :
    c.pass set (n + 1) = (c.pass set 1).bind fun d => d.pass set n := by
  obtain ⟨b, a, o⟩ := c
  cases a with
  | nil => rfl
  | cons x xs => cases inside : set x <;> simp [pass, inside]

theorem run_eq (set : Char → Bool) (c : Cursor) :
    run set c.behind c.offset c.ahead =
      c :: ((c.pass set 1).map fun d => run set d.behind d.offset d.ahead).getD [] := by
  obtain ⟨b, a, o⟩ := c
  cases a with
  | nil => rfl
  | cons x xs => cases inside : set x <;> simp [run, pass, inside]

theorem length_ahead_pass {set : Char → Bool} {c d : Cursor} (h : c.pass set 1 = some d) :
    d.ahead.length < c.ahead.length := by
  obtain ⟨b, a, o⟩ := c
  cases a with
  | nil => simp [pass] at h
  | cons x xs =>
    cases inside : set x
    · simp [pass, inside] at h
    · simp only [pass, inside, if_true, Option.some.injEq] at h
      simp [← h]

theorem choices_zero (set : Char → Bool) (c : Cursor) :
    c.choices set 0 = run set c.behind c.offset c.ahead := rfl

theorem choices_succ_of_stuck {set : Char → Bool} {c : Cursor} (h : c.pass set 1 = none) (n : Nat) :
    c.choices set (n + 1) = [] := by
  rw [choices, pass_succ, h]
  rfl

theorem choices_succ (set : Char → Bool) (c : Cursor) (n : Nat) :
    c.choices set (n + 1) = ((c.pass set 1).map fun d => d.choices set n).getD [] := by
  rw [choices, pass_succ]
  cases c.pass set 1 <;> rfl

/-- The choices of a run are its start and the choices of a run of at least one character. -/
theorem choices_zero_eq_cons (set : Char → Bool) (c : Cursor) :
    c.choices set 0 = c :: c.choices set 1 := by
  rw [choices_zero, run_eq, choices_succ]
  rfl

theorem choices_zero_of_stuck {set : Char → Bool} {c : Cursor} (h : c.pass set 1 = none) :
    c.choices set 0 = [c] := by
  rw [choices_zero, run_eq, h]
  rfl

end Cursor

namespace Likeness

variable {sight : Sight} {old new : Text} (like : Likeness sight old new)

/-- A run that cannot enter the stretch passes matched places only. -/
theorem run_matched {set : Char → Bool} (free : sight.misses set = true) {c c' : Cursor}
    (h : like.matched c c') :
    List.Forall₂ like.matched (Cursor.run set c.behind c.offset c.ahead)
      (Cursor.run set c'.behind c'.offset c'.ahead) := by
  generalize size : c.ahead.length = n
  induction n using Nat.strongRecOn generalizing c c' with
  | ind n ih =>
    have step := like.pass_matched free h
    rw [Cursor.run_eq, Cursor.run_eq]
    refine .cons h ?_
    cases passed : c.pass set 1 with
    | none =>
      rw [passed] at step
      cases passed' : c'.pass set 1 with
      | none => exact .nil
      | some d' => rw [passed'] at step; cases step
    | some d =>
      rw [passed] at step
      cases passed' : c'.pass set 1 with
      | none => rw [passed'] at step; cases step
      | some d' =>
        rw [passed'] at step
        cases step with
        | some there => exact ih _ (size ▸ Cursor.length_ahead_pass passed) there rfl

theorem choices_matched {set : Char → Bool} (free : sight.misses set = true) {c c' : Cursor}
    (h : like.matched c c') (n : Nat) :
    List.Forall₂ like.matched (c.choices set n) (c'.choices set n) := by
  induction n generalizing c c' with
  | zero => exact like.run_matched free h
  | succ n ih =>
    have step := like.pass_matched free h
    rw [Cursor.choices_succ, Cursor.choices_succ]
    revert step
    cases c.pass set 1 <;> cases c'.pass set 1 <;> rintro ⟨⟩
    · exact .nil
    · exact ih ‹_›

end Likeness

/-- What follows has the grade on the places of two texts. -/
def Grade.Holds {sight : Sight} {old new : Text} (like : Likeness sight old new) (g : Grade)
    (f f' : Cursor → Option Trace) : Prop :=
  (∀ c c', like.matched c c' → Option.Rel (Trace.Alike like.kept) (f c) (f' c')) ∧
    match g with
    | .shut => ∀ c c', like.amid c c' → f c = none ∧ f' c' = none
    | .even => ∀ c c', like.amid c c' → Option.Rel (Trace.Alike like.kept) (f c) (f' c')
    | .outer => True
    | .open =>
      (∀ c c', like.kept c c' → Option.Rel (Trace.Alike like.kept) (f c) (f' c')) ∧
        ∀ c, (f c).isSome = true ∧ (f' c).isSome = true

section

variable {sight : Sight} {old new : Text} {like : Likeness sight old new}
  {f f' : Cursor → Option Trace} {g : Grade}

theorem Grade.Holds.outer (h : g.Holds like f f') : Grade.outer.Holds like f f' := ⟨h.1, trivial⟩

theorem Grade.Holds.even (h : Grade.shut.Holds like f f') : Grade.even.Holds like f f' := by
  refine ⟨h.1, fun c c' amid => ?_⟩
  rw [(h.2 c c' amid).1, (h.2 c c' amid).2]
  exact .none

/-- What is even agrees on all partners. -/
theorem Grade.Holds.agree (h : Grade.even.Holds like f f') {c c' : Cursor}
    (partners : like.matched c c' ∨ like.amid c c') :
    Option.Rel (Trace.Alike like.kept) (f c) (f' c') :=
  partners.elim (h.1 c c') (h.2 c c')

/-- A last step that finds nothing where nothing follows, and does the same at matched places. -/
theorem Grade.Holds.through {F G : Cursor → Option Trace → Option Trace}
    (nothing : ∀ c, F c none = none ∧ G c none = none)
    (same : ∀ {c c' r r'}, like.matched c c' → Trace.Alike like.kept r r' →
      Option.Rel (Trace.Alike like.kept) (F c (some r)) (G c' (some r')))
    (h : g.Holds like f f') : g.edged.Holds like (fun c => F c (f c)) fun c => G c (f' c) := by
  have outside : ∀ c c', like.matched c c' →
      Option.Rel (Trace.Alike like.kept) (F c (f c)) (G c' (f' c')) := by
    intro c c' m
    have here := h.1 c c' m
    revert here
    cases f c <;> cases f' c' <;> rintro ⟨⟩
    · rw [(nothing c).1, (nothing c').2]
      exact .none
    · exact same m ‹_›
  cases g with
  | shut =>
    refine ⟨outside, fun c c' amid => ?_⟩
    obtain ⟨here, here'⟩ := h.2 c c' amid
    simp only [here, here', nothing, and_self]
  | even | outer | «open» => exact ⟨outside, trivial⟩

theorem Grade.Holds.edged (h : g.Holds like f f') :
    g.edged.Holds like (fun c => if Edge.word.holds c then f c else none)
      fun c => if Edge.word.holds c then f' c else none := by
  refine Grade.Holds.through (F := fun c r => if Edge.word.holds c then r else none)
    (G := fun c r => if Edge.word.holds c then r else none) (fun c => by simp) ?_ h
  intro c c' r r' m alike
  rw [like.word_matched m]
  split
  · exact .some alike
  · exact .none

theorem Grade.Holds.closed (h : g.Holds like f f') :
    g.closed.Holds like (fun d => (f d).map (Trace.close d)) fun d => (f' d).map (Trace.close d) := by
  have edged := Grade.Holds.through (F := fun c r => r.map (Trace.close c))
    (G := fun c r => r.map (Trace.close c)) (fun c => ⟨rfl, rfl⟩)
    (fun m alike => .some ⟨alike.stop, alike.groups, .cons (like.kept_of_matched m) alike.ends⟩) h
  cases g with
  | shut | even | outer => exact edged
  | «open» =>
    obtain ⟨agree, found⟩ := h.2
    refine ⟨edged.1, fun c c' k => ?_, fun c => by simpa using found c⟩
    have here := agree c c' k
    revert here
    dsimp only
    cases f c <;> cases f' c' <;> rintro ⟨⟩
    · exact .none
    · rename_i alike
      exact .some ⟨alike.stop, alike.groups, .cons k alike.ends⟩

theorem Grade.Holds.begun (index : Nat) (h : g.Holds like f f') :
    g.edged.Holds like (fun c => (f c).map (Trace.begin index c))
      fun c => (f' c).map (Trace.begin index c) :=
  Grade.Holds.through (F := fun c r => r.map (Trace.begin index c))
    (G := fun c r => r.map (Trace.begin index c)) (fun _ => ⟨rfl, rfl⟩)
    (fun m alike => .some (alike.begin index (like.kept_of_matched m))) h

theorem Grade.Holds.meet {f₁ f₁' f₂ f₂' : Cursor → Option Trace} {g₁ g₂ : Grade}
    (h₁ : g₁.Holds like f₁ f₁') (h₂ : g₂.Holds like f₂ f₂') :
    (g₁.meet g₂).Holds like (fun c => (f₁ c).or (f₂ c)) fun c => (f₁' c).or (f₂' c) := by
  have both : ∀ {c c'}, Option.Rel (Trace.Alike like.kept) (f₁ c) (f₁' c') →
      Option.Rel (Trace.Alike like.kept) (f₂ c) (f₂' c') →
      Option.Rel (Trace.Alike like.kept) ((f₁ c).or (f₂ c)) ((f₁' c').or (f₂' c')) := by
    intro c c' first second
    revert first
    cases f₁ c <;> cases f₁' c' <;> rintro ⟨⟩
    · exact second
    · exact .some ‹_›
  have outside := fun c c' m => both (h₁.1 c c' m) (h₂.1 c c' m)
  have evenly (k₁ : Grade.even.Holds like f₁ f₁') (k₂ : Grade.even.Holds like f₂ f₂') :
      Grade.even.Holds like (fun c => (f₁ c).or (f₂ c)) fun c => (f₁' c).or (f₂' c) :=
    ⟨outside, fun c c' amid => both (k₁.2 c c' amid) (k₂.2 c c' amid)⟩
  cases g₁ with
  | shut =>
    cases g₂ with
    | shut =>
      refine ⟨outside, fun c c' amid => ?_⟩
      obtain ⟨first, first'⟩ := h₁.2 c c' amid
      obtain ⟨second, second'⟩ := h₂.2 c c' amid
      simp [first, first', second, second']
    | even => exact evenly h₁.even h₂
    | outer | «open» => exact ⟨outside, trivial⟩
  | even =>
    cases g₂ with
    | shut => exact evenly h₁ h₂.even
    | even => exact evenly h₁ h₂
    | outer | «open» => exact ⟨outside, trivial⟩
  | outer | «open» => cases g₂ <;> exact ⟨outside, trivial⟩

/-- The places of a run in the order in which they are tried. -/
def inOrder (longest : Bool) (places : List Cursor) : List Cursor :=
  if longest then places.reverse else places

theorem Aligned.findSome?_inOrder {R : Cursor → Cursor → Prop} {X Y : Cursor → Prop}
    {as bs : List Cursor} (longest : Bool) (h : Aligned R X Y as bs)
    (agree : ∀ a b, R a b → Option.Rel (Trace.Alike like.kept) (f a) (f' b))
    (left : ∀ a, X a → f a = none) (right : ∀ b, Y b → f' b = none) :
    Option.Rel (Trace.Alike like.kept) ((inOrder longest as).findSome? f)
      ((inOrder longest bs).findSome? f') := by
  cases longest with
  | true => exact h.findSome?_reverse agree left right
  | false => exact h.findSome? agree left right

theorem Grade.Holds.missed {set : Char → Bool} (free : sight.misses set = true) (longest : Bool)
    (least : Nat) (h : g.Holds like f f') :
    (if least = 0 then g.still else .shut).Holds like
      (fun c => (inOrder longest (c.choices set least)).findSome? f)
      fun c => (inOrder longest (c.choices set least)).findSome? f' := by
  have outside : ∀ c c', like.matched c c' → Option.Rel (Trace.Alike like.kept)
      ((inOrder longest (c.choices set least)).findSome? f)
      ((inOrder longest (c'.choices set least)).findSome? f') := by
    intro c c' m
    have partners := like.choices_matched free m least
    exact (Aligned.of_forall₂ (X := fun _ => False) (Y := fun _ => False) partners).findSome?_inOrder
      longest h.1 (fun _ => False.elim) (fun _ => False.elim)
  cases least with
  | succ n =>
    refine ⟨outside, fun c c' amid => ?_⟩
    obtain ⟨stuck, stuck'⟩ := like.pass_amid free amid
    simp [Cursor.choices_succ_of_stuck stuck, Cursor.choices_succ_of_stuck stuck', inOrder]
  | zero =>
    have alone : ∀ (k : Cursor → Option Trace) (c : Cursor), c.pass set 1 = none →
        (inOrder longest (c.choices set 0)).findSome? k = k c := by
      intro k c stuck
      rw [Cursor.choices_zero_of_stuck stuck]
      cases longest <;> cases found : k c <;> simp [inOrder, found]
    have left := fun c c' (amid : like.amid c c') => alone f c (like.pass_amid free amid).1
    have right := fun c c' (amid : like.amid c c') => alone f' c' (like.pass_amid free amid).2
    cases g with
    | shut =>
      refine ⟨outside, fun c c' amid => ?_⟩
      dsimp only
      rw [left c c' amid, right c c' amid]
      exact h.2 c c' amid
    | even =>
      refine ⟨outside, fun c c' amid => ?_⟩
      dsimp only
      rw [left c c' amid, right c c' amid]
      exact h.2 c c' amid
    | outer | «open» => exact ⟨outside, trivial⟩

theorem Grade.Holds.covered {set : Char → Bool} (full : sight.covers set = true) (longest : Bool)
    (h : Grade.even.Holds like f f') :
    Grade.even.Holds like (fun c => (inOrder longest (c.choices set 0)).findSome? f)
      fun c => (inOrder longest (c.choices set 0)).findSome? f' := by
  have partners : ∀ c c', like.matched c c' ∨ like.amid c c' →
      Option.Rel (Trace.Alike like.kept) ((inOrder longest (c.choices set 0)).findSome? f)
        ((inOrder longest (c'.choices set 0)).findSome? f') := by
    intro c c' here
    exact (like.choices full here).1.findSome?_inOrder longest (fun _ _ => h.agree)
      (fun _ => False.elim) (fun _ => False.elim)
  exact ⟨fun c c' m => partners c c' (.inl m), fun c c' amid => partners c c' (.inr amid)⟩

theorem Grade.Holds.covered_one {set : Char → Bool} (full : sight.covers set = true) (longest : Bool)
    (h : Grade.shut.Holds like f f') :
    Grade.even.Holds like (fun c => (inOrder longest (c.choices set 1)).findSome? f)
      fun c => (inOrder longest (c.choices set 1)).findSome? f' := by
  have partners : ∀ c c', like.matched c c' ∨ like.amid c c' →
      Option.Rel (Trace.Alike like.kept) ((inOrder longest (c.choices set 1)).findSome? f)
        ((inOrder longest (c'.choices set 1)).findSome? f') := by
    intro c c' here
    exact (like.choices_one full here).findSome?_inOrder longest h.1
      (fun d ⟨d', amid⟩ => (h.2 d d' amid).1) (fun d' ⟨d, amid⟩ => (h.2 d d' amid).2)
  exact ⟨fun c c' m => partners c c' (.inl m), fun c c' amid => partners c c' (.inr amid)⟩

/-- Where something is found everywhere, the longest run is taken, and it ends outside the stretch. -/
theorem Grade.Holds.covered_last {set : Char → Bool} (full : sight.covers set = true)
    (h : Grade.open.Holds like f f') :
    Grade.even.Holds like (fun c => (c.choices set 0).reverse.findSome? f)
      fun c => (c.choices set 0).reverse.findSome? f' := by
  have atLast : ∀ (k : Cursor → Option Trace) (places : List Cursor) (d : Cursor),
      places.getLast? = some d → (k d).isSome = true → places.reverse.findSome? k = k d := by
    intro k places d last there
    obtain ⟨r, found⟩ := Option.isSome_iff_exists.1 there
    rw [← List.head?_reverse] at last
    obtain ⟨rest, split⟩ := List.head?_eq_some_iff.1 last
    rw [split, List.findSome?_cons, found]
  have partners : ∀ c c', like.matched c c' ∨ like.amid c c' →
      Option.Rel (Trace.Alike like.kept) ((c.choices set 0).reverse.findSome? f)
        ((c'.choices set 0).reverse.findSome? f') := by
    intro c c' here
    obtain ⟨-, d, d', last, last', k⟩ := like.choices full here
    obtain ⟨agree, found⟩ := h.2
    rw [atLast f _ d last (found d).1, atLast f' _ d' last' (found d').2]
    exact agree d d' k
  exact ⟨fun c c' m => partners c c' (.inl m), fun c c' amid => partners c c' (.inr amid)⟩

theorem Pattern.reach_alt (p q : Pattern) (k : Cursor → Option Trace) :
    (alt p q).reach k = fun c => (p.reach k c).or (q.reach k c) := by
  funext c
  rw [reach]
  cases p.reach k c <;> rfl

/-- The computed grade is the grade of the pattern: what a pattern finds agrees on the places of both
    texts as far as its grade says. -/
theorem Pattern.holds_of_grade (p : Pattern) (free : p.Avoids sight) {result : Grade}
    (graded : p.grade sight g = some result) (h : g.Holds like f f') :
    result.Holds like (p.reach f) (p.reach f') := by
  induction p generalizing g result f f' with
  | literal same cs =>
    cases cs with
    | nil =>
      obtain rfl : g = result := by simpa [grade] using graded
      exact h
    | cons x cs =>
      obtain rfl : Grade.shut = result := by simpa [grade] using graded
      refine ⟨fun c c' m => ?_, fun c c' amid => ?_⟩
      · have step := like.skip_matched free m
        simp only [reach]
        revert step
        cases c.skip same (x :: cs) <;> cases c'.skip same (x :: cs) <;> rintro ⟨⟩
        · exact .none
        · exact h.1 _ _ ‹_›
      · obtain ⟨stuck, stuck'⟩ := like.skip_amid free amid
        simp [reach, stuck, stuck']
  | one set =>
    rw [grade] at graded
    split at graded
    · rename_i missed
      obtain rfl : Grade.shut = result := by simpa using graded
      refine ⟨fun c c' m => ?_, fun c c' amid => ?_⟩
      · have step := like.pass_matched missed m
        simp only [reach]
        revert step
        cases c.pass set 1 <;> cases c'.pass set 1 <;> rintro ⟨⟩
        · exact .none
        · exact h.1 _ _ ‹_›
      · obtain ⟨stuck, stuck'⟩ := like.pass_amid missed amid
        simp [reach, stuck, stuck']
    · cases graded
  | most set least =>
    rw [funext (reach_most set least f), funext (reach_most set least f')]
    rw [grade] at graded
    split at graded
    · rename_i missed
      obtain rfl := Option.some.inj graded
      exact h.missed missed true least
    · split at graded
      · rename_i full
        unfold Grade.coveredMost at graded
        split at graded <;> cases graded
        · exact h.even.covered full true
        · exact h.covered full true
        · exact h.covered_last full
        · exact h.covered_one full true
      · cases graded
  | fewest set least =>
    rw [funext (reach_fewest set least f), funext (reach_fewest set least f')]
    rw [grade] at graded
    split at graded
    · rename_i missed
      obtain rfl := Option.some.inj graded
      exact h.missed missed false least
    · split at graded
      · rename_i full
        unfold Grade.coveredFewest at graded
        split at graded <;> cases graded
        · exact h.even.covered full false
        · exact h.covered full false
        · exact h.covered_one full false
      · cases graded
  | edge e =>
    cases e with
    | word =>
      obtain rfl := Option.some.inj graded
      exact h.edged
    | textStart | textEnd | lineStart | lineEnd => cases graded
  | seq p q ihp ihq =>
    obtain ⟨middle, second, first⟩ := Option.bind_eq_some_iff.1 graded
    exact ihp free.1 first (ihq free.2 second h)
  | alt p q ihp ihq =>
    obtain ⟨a, first, rest⟩ := Option.bind_eq_some_iff.1 graded
    obtain ⟨b, second, rfl⟩ := Option.map_eq_some_iff.1 rest
    rw [reach_alt, reach_alt]
    exact (ihp free.1 first h).meet (ihq free.2 second h)
  | group index p ih =>
    obtain ⟨inside, within, rfl⟩ := Option.map_eq_some_iff.1 graded
    exact (ih free within h.closed).begun index

end

/-- The pattern is not misled by an edit: it passes at least one character, and it is shut amid the
    edited stretch. -/
structure Pattern.Unmoved (sight : Sight) (p : Pattern) : Prop where
  moves : p.isSkippable = false
  free : p.Avoids sight
  graded : p.grade sight .open = some .shut

instance (sight : Sight) [∀ same cs, Decidable (sight.Avoids same cs)] (p : Pattern) :
    Decidable (p.Unmoved sight) :=
  decidable_of_iff (p.isSkippable = false ∧ p.Avoids sight ∧ p.grade sight .open = some .shut)
    ⟨fun ⟨moves, free, graded⟩ => ⟨moves, free, graded⟩, fun h => ⟨h.moves, h.free, h.graded⟩⟩

namespace Likeness

variable {sight : Sight} {old new : Text} (like : Likeness sight old new) {p : Pattern}

theorem done_holds : Grade.open.Holds like (fun d => some (.done d)) fun d => some (.done d) := by
  have ends : ∀ c c', like.kept c c' →
      Option.Rel (Trace.Alike like.kept) (some (.done c)) (some (.done c')) :=
    fun c c' k => .some ⟨k, .nil, .nil⟩
  exact ⟨fun c c' m => ends c c' (like.kept_of_matched m), ends, fun c => ⟨rfl, rfl⟩⟩

/-- The pattern passes at least one character, finds the same at matched places, and finds nothing amid
    the edited stretch. -/
structure Shuts (p : Pattern) : Prop where
  moves : p.isSkippable = false
  shut : Grade.shut.Holds like (p.reach fun d => some (.done d)) (p.reach fun d => some (.done d))

theorem shuts (unmoved : p.Unmoved sight) : like.Shuts p where
  moves := unmoved.moves
  shut := p.holds_of_grade unmoved.free unmoved.graded like.done_holds

variable {like}

/-- A pattern that agrees on all partners has like matches at places where a match may start. -/
theorem hitAt_alike (moves : p.isSkippable = false)
    (even : Grade.even.Holds like (p.reach fun d => some (.done d)) (p.reach fun d => some (.done d)))
    {c c' : Cursor} (kept : like.kept c c') :
    Option.Rel (Hit.Alike like.kept) ((p.search old).hitAt c) ((p.search new).hitAt c') := by
  have partners := like.partners_of_kept kept
  have place : c.IsIn old ∧ c'.IsIn new := partners.elim like.isIn_matched like.isIn_amid
  have here := even.agree partners
  rw [p.hitAt_eq_matchAt moves place.1, p.hitAt_eq_matchAt moves place.2, Pattern.matchAt,
    Pattern.matchAt]
  revert here
  cases p.reach (fun d => some (Trace.done d)) c <;>
    cases p.reach (fun d => some (Trace.done d)) c' <;> rintro ⟨⟩
  · exact .none
  · rename_i alike
    exact .some ⟨⟨kept, alike.stop⟩, alike.groups⟩

theorem Shuts.hitAt_alike (shuts : like.Shuts p) {c c' : Cursor}
    (partners : like.matched c c' ∨ like.amid c c') :
    Option.Rel (Hit.Alike like.kept) ((p.search old).hitAt c) ((p.search new).hitAt c') := by
  rcases partners with m | amid
  · exact Likeness.hitAt_alike shuts.moves shuts.shut.even (like.kept_of_matched m)
  · have place := like.isIn_amid amid
    rw [p.hitAt_eq_matchAt shuts.moves place.1, p.hitAt_eq_matchAt shuts.moves place.2,
      Pattern.matchAt, Pattern.matchAt, (shuts.shut.2 c c' amid).1, (shuts.shut.2 c c' amid).2]
    exact .none

/-- From partners on, the first matches in both texts are alike. -/
theorem Shuts.findFrom_alike (shuts : like.Shuts p) {c c' : Cursor}
    (partners : like.matched c c' ∨ like.amid c c') :
    Option.Rel (Hit.Alike like.kept) ((p.search old).findFrom c) ((p.search new).findFrom c') := by
  have place : c.IsIn old ∧ c'.IsIn new := partners.elim like.isIn_matched like.isIn_amid
  have places := (like.choices sight.covers_any partners).1
  rw [p.findFrom_eq place.1, p.findFrom_eq place.2]
  exact places.findSome? (fun _ _ => shuts.hitAt_alike) (fun _ => False.elim)
    (fun _ => False.elim)

theorem Shuts.sweep_alike (shuts : like.Shuts p) {c c' : Cursor} {hits hits' : List Hit}
    (partners : like.matched c c' ∨ like.amid c c') (sweep : (p.search old).Sweep c hits)
    (sweep' : (p.search new).Sweep c' hits') :
    List.Forall₂ (Hit.Alike like.kept) hits hits' := by
  induction sweep generalizing c' hits' with
  | last none =>
    have first := shuts.findFrom_alike partners
    rw [none] at first
    cases sweep' with
    | last none' => exact .nil
    | next found' later' =>
      rw [found'] at first
      cases first
  | next found later ih =>
    have first := shuts.findFrom_alike partners
    rw [found] at first
    cases sweep' with
    | last none' =>
      rw [none'] at first
      cases first
    | next found' later' =>
      rw [found'] at first
      cases first with
      | some alike => exact .cons alike (ih (like.partners_of_kept alike.whole.2) later')

/-- From matched starts on, all matches in both texts are alike. -/
theorem Shuts.findAll_alike (shuts : like.Shuts p)
    (start : like.matched (.start old) (.start new)) :
    List.Forall₂ (Hit.Alike like.kept) (p.findAll old) (p.findAll new) :=
  shuts.sweep_alike (.inl start) (p.sweep_findAll old) (p.sweep_findAll new)

theorem Shuts.find_alike (shuts : like.Shuts p) (start : like.matched (.start old) (.start new)) :
    Option.Rel (Hit.Alike like.kept) (p.find old) (p.find new) :=
  shuts.findFrom_alike (.inl start)

theorem Shuts.occurs_eq (shuts : like.Shuts p) (start : like.matched (.start old) (.start new)) :
    p.occurs old = p.occurs new := by
  have first := shuts.find_alike start
  rw [Pattern.occurs, Pattern.occurs]
  revert first
  cases p.find old <;> cases p.find new <;> rintro ⟨⟩ <;> rfl

end Likeness

end SourceAudit

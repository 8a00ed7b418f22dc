/-
Module: SourceAudit.Proofs.Pattern.Back
Layer: Proofs
Purpose: Lines put behind a text. They take away no way through a pattern, so what occurs in a text occurs
  in the longer one. How far a pattern can run out of the text is computed from the pattern and what
  stands behind; a pattern that cannot end there has the same matches as before, with the same
  characters.
Main exports: Cursor.before, Pattern.Passes.before, Pattern.Passes.of_before, Pattern.occurs_back,
  Pattern.Stays, Pattern.findAll_back, Pattern.leaks, Pattern.stays_of_isStill
-/
import SourceAudit.Proofs.Pattern.Front
import SourceAudit.Proofs.Pattern.Stretch

namespace SourceAudit

namespace Cursor

/-- The place of a text when something is put behind the text. -/
def before (back : Text) (c : Cursor) : Cursor := ⟨c.behind, c.ahead ++ back, c.offset⟩

section

variable {t back : Text} {c d : Cursor}

theorem IsIn.before (back : Text) (h : c.IsIn t) : (c.before back).IsIn (t ++ back) := by
  obtain ⟨parts, count⟩ := h
  refine ⟨?_, count⟩
  simp [Cursor.before, ← parts]

theorem Moves.before {cs : List Char} (back : Text) (h : c.Moves cs d) :
    (c.before back).Moves cs (d.before back) := by
  obtain ⟨ahead, behind, offset⟩ := h
  refine ⟨?_, behind, offset⟩
  simp [Cursor.before, ahead]

theorem Moves.of_before {cs : List Char} (h : (c.before back).Moves cs (d.before back)) :
    c.Moves cs d := by
  obtain ⟨ahead, behind, offset⟩ := h
  refine ⟨?_, behind, offset⟩
  rw [Cursor.before, Cursor.before, ← List.append_assoc] at ahead
  exact List.append_cancel_right ahead

/-- The places of the longer text up to the end of the text are places of the text. -/
theorem IsIn.exists_before (h : c.IsIn (t ++ back)) (inside : c.offset ≤ t.length) :
    ∃ e : Cursor, e.IsIn t ∧ c = e.before back := by
  obtain ⟨b, a, o⟩ := c
  obtain ⟨parts, count⟩ := h
  obtain ⟨rest, whole⟩ : b.reverse <+: t := by
    refine List.prefix_of_prefix_length_le ⟨a, parts⟩ (List.prefix_append t back) ?_
    rw [List.length_reverse]
    exact count ▸ inside
  rw [← whole, List.append_assoc] at parts
  obtain rfl := List.append_cancel_left parts
  exact ⟨⟨b, rest, o⟩, ⟨whole, count⟩, rfl⟩

end

/-- A run over the longer text passes the places of the run over the text, and then maybe others behind
    the text. -/
theorem exists_run_before (back : Text) (set : Char → Bool) (b : List Char) (o : Nat) (a : List Char) :
    ∃ extra, run set b o (a ++ back) = (run set b o a).map (before back) ++ extra ∧
      ∀ d ∈ extra, o + a.length < d.offset := by
  induction a generalizing b o with
  | nil =>
    cases back with
    | nil => exact ⟨[], rfl, by simp⟩
    | cons x xs =>
      refine ⟨if set x then run set (x :: b) (o + 1) xs else [], rfl, ?_⟩
      intro d mem
      split at mem
      · obtain ⟨cs, -, -, -, offset⟩ := mem_run_iff.1 mem
        rw [offset, List.length_nil]
        simp only
        omega
      · cases mem
  | cons x xs ih =>
    rw [List.cons_append, run, run]
    split
    · obtain ⟨extra, split, beyond⟩ := ih (x :: b) (o + 1)
      refine ⟨extra, by rw [split]; rfl, fun d mem => ?_⟩
      have far := beyond d mem
      rw [List.length_cons]
      omega
    · exact ⟨[], rfl, by simp⟩

/-- The choices of a run in the longer text are those in the text, and then maybe others behind it. -/
theorem exists_choices_before {t : Text} (back : Text) (set : Char → Bool) (least : Nat) {c : Cursor}
    (place : c.IsIn t) :
    ∃ extra, (c.before back).choices set least = (c.choices set least).map (before back) ++ extra ∧
      ∀ d ∈ extra, t.length < d.offset := by
  cases passed : (c.before back).pass set least with
  | none =>
    refine ⟨[], ?_, by simp⟩
    have short : c.pass set least = none := by
      rw [Option.eq_none_iff_forall_not_mem]
      intro d here
      obtain ⟨cs, long, all, moves⟩ := pass_eq_some_iff.1 here
      rw [pass_eq_some_iff.2 ⟨cs, long, all, moves.before back⟩] at passed
      cases passed
    rw [choices, choices, passed, short]
    rfl
  | some d' =>
    obtain ⟨cs, long, all, moves⟩ := pass_eq_some_iff.1 passed
    have place' := moves.isIn (place.before back)
    by_cases inside : d'.offset ≤ t.length
    · obtain ⟨d, placed, rfl⟩ := place'.exists_before inside
      have here : c.pass set least = some d := pass_eq_some_iff.2 ⟨cs, long, all, moves.of_before⟩
      obtain ⟨extra, split, beyond⟩ := exists_run_before back set d.behind d.offset d.ahead
      rw [choices, choices, passed, here]
      rw [placed.offset_le] at beyond
      exact ⟨extra, split, beyond⟩
    · have none : c.pass set least = none := by
        rw [Option.eq_none_iff_forall_not_mem]
        intro d here
        obtain ⟨xs, long', all', moves'⟩ := pass_eq_some_iff.1 here
        have count := (moves'.isIn place).offset_le
        rw [moves'.2.2, long', ← long] at count
        have far := moves.2.2
        simp only [before] at far
        omega
      refine ⟨run set d'.behind d'.offset d'.ahead, ?_, fun d mem => ?_⟩
      · rw [choices, choices, passed, none]
        rfl
      · have below := (IsIn.of_mem_run place' mem).2
        omega

end Cursor

/-- What stands behind a text starts with a line feed. -/
def StartsWithFeed (back : Text) : Prop := back.head? = some '\n'

namespace Pattern

section

variable {t back : Text} (feed : StartsWithFeed back)
include feed

/-- A line feed behind the text ends a word as the end of the text does. -/
theorem word_holds_before (c : Cursor) : Edge.word.holds (c.before back) = Edge.word.holds c := by
  obtain ⟨b, a, o⟩ := c
  cases a with
  | cons x xs => rfl
  | nil =>
    have none : back.head?.any isWordChar = false := by
      rw [feed]
      decide
    simp [Edge.holds, Cursor.before, none]

variable {p : Pattern} (edges : p.isWordEdged = true)
include edges

/-- A way through a pattern is one in the longer text as well. -/
theorem Passes.before {c d : Cursor} (way : p.Passes c d) :
    p.Passes (c.before back) (d.before back) := by
  induction p generalizing c d with
  | literal same cs =>
    obtain ⟨xs, like, moves⟩ := Cursor.skip_eq_some_iff_forall₂.1 way
    exact Cursor.skip_eq_some_iff_forall₂.2 ⟨xs, like, moves.before back⟩
  | one set =>
    obtain ⟨xs, one, all, moves⟩ := Cursor.pass_eq_some_iff.1 way
    exact Cursor.pass_eq_some_iff.2 ⟨xs, one, all, moves.before back⟩
  | most set least | fewest set least =>
    obtain ⟨xs, enough, all, moves⟩ := Cursor.mem_choices_iff.1 way
    exact Cursor.mem_choices_iff.2 ⟨xs, enough, all, moves.before back⟩
  | edge e =>
    obtain rfl : e = .word := by simpa [isWordEdged] using edges
    obtain ⟨holds, rfl⟩ := way
    exact ⟨(word_holds_before feed _).trans holds, rfl⟩
  | seq p q ihp ihq =>
    obtain ⟨hp, hq⟩ := (Bool.and_eq_true _ _).mp edges
    obtain ⟨m, first, second⟩ := way
    exact ⟨m.before back, ihp hp first, ihq hq second⟩
  | alt p q ihp ihq =>
    obtain ⟨hp, hq⟩ := (Bool.and_eq_true _ _).mp edges
    exact way.imp (ihp hp) (ihq hq)
  | group index p ih => exact ih edges way

/-- A way through the longer text that ends in the text is one in the text. -/
theorem Passes.of_before {c d : Cursor} (place : c.IsIn t) (way : p.Passes (c.before back) d)
    (inside : d.offset ≤ t.length) : ∃ e : Cursor, e.IsIn t ∧ d = e.before back ∧ p.Passes c e := by
  have place' := place.before back
  induction p generalizing c d with
  | literal same cs =>
    obtain ⟨xs, like, moves⟩ := Cursor.skip_eq_some_iff_forall₂.1 way
    obtain ⟨e, placed, rfl⟩ := (moves.isIn place').exists_before inside
    exact ⟨e, placed, rfl, Cursor.skip_eq_some_iff_forall₂.2 ⟨xs, like, moves.of_before⟩⟩
  | one set =>
    obtain ⟨xs, one, all, moves⟩ := Cursor.pass_eq_some_iff.1 way
    obtain ⟨e, placed, rfl⟩ := (moves.isIn place').exists_before inside
    exact ⟨e, placed, rfl, Cursor.pass_eq_some_iff.2 ⟨xs, one, all, moves.of_before⟩⟩
  | most set least | fewest set least =>
    obtain ⟨xs, enough, all, moves⟩ := Cursor.mem_choices_iff.1 way
    obtain ⟨e, placed, rfl⟩ := (moves.isIn place').exists_before inside
    exact ⟨e, placed, rfl, Cursor.mem_choices_iff.2 ⟨xs, enough, all, moves.of_before⟩⟩
  | edge e =>
    obtain rfl : e = .word := by simpa [isWordEdged] using edges
    obtain ⟨holds, rfl⟩ := way
    exact ⟨c, place, rfl, (word_holds_before feed c).symm.trans holds, rfl⟩
  | seq p q ihp ihq =>
    obtain ⟨hp, hq⟩ := (Bool.and_eq_true _ _).mp edges
    obtain ⟨m, first, second⟩ := way
    have below := (second.isIn (first.isIn place').1).2.1
    obtain ⟨k, placed, rfl, way⟩ := ihp hp place first (Nat.le_trans below inside) place'
    obtain ⟨e, placed', rfl, way'⟩ := ihq hq placed second inside (placed.before back)
    exact ⟨e, placed', rfl, k, way, way'⟩
  | alt p q ihp ihq =>
    obtain ⟨hp, hq⟩ := (Bool.and_eq_true _ _).mp edges
    rcases way with way | way
    · obtain ⟨e, placed, rfl, way'⟩ := ihp hp place way inside place'
      exact ⟨e, placed, rfl, .inl way'⟩
    · obtain ⟨e, placed, rfl, way'⟩ := ihq hq place way inside place'
      exact ⟨e, placed, rfl, .inr way'⟩
  | group index p ih => exact ih edges place way inside place'

/-- A pattern with a way through the longer text that ends in the text has one through the text. -/
theorem Passes.exists_of_inside {c d : Cursor} (way : p.Passes c d) (place : c.IsIn (t ++ back))
    (inside : d.offset ≤ t.length) : ∃ e f : Cursor, e.IsIn t ∧ p.Passes e f := by
  obtain ⟨e, placed, rfl⟩ := place.exists_before (Nat.le_trans (way.isIn place).2.1 inside)
  obtain ⟨f, -, -, way'⟩ := way.of_before feed edges placed inside
  exact ⟨e, f, placed, way'⟩

/-- What occurs in a text occurs in the longer one. -/
theorem occurs_back (moves : p.isSkippable = false) (found : p.occurs t = true) :
    p.occurs (t ++ back) = true := by
  obtain ⟨c, d, place, way⟩ := (occurs_iff moves t).1 found
  exact (occurs_iff moves _).2 ⟨_, _, place.before back, way.before feed edges⟩

end

end Pattern

/-- The same place in a text and in the longer one. -/
def SamePlace (t back : Text) (c c' : Cursor) : Prop := c.IsIn t ∧ c' = c.before back

section

variable {t back : Text}

theorem Span.chars_back {s s' : Span} (same : s.Alike (SamePlace t back) s') : s'.chars = s.chars := by
  obtain ⟨start, stop⟩ := s
  obtain ⟨start', stop'⟩ := s'
  obtain ⟨⟨place, rfl⟩, ⟨place', rfl⟩⟩ := same
  have whole := place.offset_le
  have whole' := place'.offset_le
  rw [Span.chars, Span.chars]
  refine List.take_append_of_le_length ?_
  simp only [Span.length, Cursor.before] at whole whole' ⊢
  omega

theorem Hit.chars_back {h h' : Hit} (same : h.Alike (SamePlace t back) h') : h'.chars = h.chars :=
  Span.chars_back same.whole

theorem Hit.groupChars_back {h h' : Hit} (same : h.Alike (SamePlace t back) h') (index : Nat) :
    h'.groupChars index = h.groupChars index :=
  same.groupChars (Q := fun cs cs' => cs' = cs) rfl (fun ends => Span.chars_back ends) index

end

theorem findSome?_congr {α β : Type} {f g : α → Option β} {as : List α} (same : ∀ a ∈ as, f a = g a) :
    as.findSome? f = as.findSome? g := by
  induction as with
  | nil => rfl
  | cons a as ih =>
    obtain ⟨here, later⟩ := List.forall_mem_cons.1 same
    rw [List.findSome?_cons, List.findSome?_cons, here, ih later]

theorem rel_findSome? {α β γ : Type} {Q : β → γ → Prop} {f : α → Option β} {g : α → Option γ}
    {as : List α} (alike : ∀ a ∈ as, Option.Rel Q (f a) (g a)) :
    Option.Rel Q (as.findSome? f) (as.findSome? g) := by
  induction as with
  | nil => exact .none
  | cons a as ih =>
    obtain ⟨here, later⟩ := List.forall_mem_cons.1 alike
    rw [List.findSome?_cons, List.findSome?_cons]
    revert here
    cases f a <;> cases g a <;> rintro ⟨⟩
    · exact ih later
    · exact .some ‹_›

namespace Pattern

/-- What is found at a place depends only on what is found where the ways through the pattern end. -/
theorem reach_congr_of_passes (p : Pattern) {f g : Cursor → Option Trace} {c : Cursor}
    (same : ∀ d, p.Passes c d → f d = g d) : p.reach f c = p.reach g c := by
  induction p generalizing f g c with
  | literal like cs =>
    rw [reach, reach]
    cases found : c.skip like cs with
    | none => rfl
    | some d => exact same d found
  | one set =>
    rw [reach, reach]
    cases found : c.pass set 1 with
    | none => rfl
    | some d => exact same d found
  | most set least =>
    rw [reach_most, reach_most]
    exact findSome?_congr fun d mem => same d (List.mem_reverse.1 mem)
  | fewest set least =>
    rw [reach_fewest, reach_fewest]
    exact findSome?_congr fun d mem => same d mem
  | edge e =>
    rw [reach, reach]
    split
    · rename_i holds
      exact same c ⟨holds, rfl⟩
    · rfl
  | seq p q ihp ihq => exact ihp fun m first => ihq fun d second => same d ⟨m, first, second⟩
  | alt p q ihp ihq =>
    rw [reach, reach, ihp fun d way => same d (.inl way), ihq fun d way => same d (.inr way)]
  | group index p ih =>
    rw [reach, reach, ih fun d way => by rw [same d way]]

section

variable {t back : Text} {f g : Cursor → Option Trace}
  (same : ∀ d : Cursor, d.IsIn t →
    Option.Rel (Trace.Alike (SamePlace t back)) (f d) (g (d.before back)))
  (beyond : ∀ d : Cursor, d.IsIn (t ++ back) → t.length < d.offset → g d = none)
include same beyond

/-- A step to one place agrees on the two texts, unless it leads out of the text. -/
theorem rel_bind_before {x x' : Option Cursor}
    (kept : ∀ d, x = some d → d.IsIn t ∧ x' = some (d.before back))
    (new : ∀ d, x' = some d → d.IsIn (t ++ back) ∧ (d.offset ≤ t.length → x.isSome = true)) :
    Option.Rel (Trace.Alike (SamePlace t back)) (x.bind f) (x'.bind g) := by
  cases x with
  | some d =>
    obtain ⟨placed, rfl⟩ := kept d rfl
    exact same d placed
  | none =>
    cases x' with
    | none => exact .none
    | some d =>
      obtain ⟨placed, inside⟩ := new d rfl
      rw [Option.bind_some, beyond d placed]
      · exact .none
      · by_contra near
        cases inside (Nat.le_of_not_lt near)

/-- Of the choices of a run those that lead out of the text are of no use. -/
theorem rel_findSome?_choices_before (set : Char → Bool) (least : Nat) {c : Cursor}
    (place : c.IsIn t) :
    Option.Rel (Trace.Alike (SamePlace t back)) ((c.choices set least).findSome? f)
        (((c.before back).choices set least).findSome? g) ∧
      Option.Rel (Trace.Alike (SamePlace t back)) ((c.choices set least).reverse.findSome? f)
        (((c.before back).choices set least).reverse.findSome? g) := by
  obtain ⟨extra, split, far⟩ := Cursor.exists_choices_before back set least place
  have none (ds : List Cursor) (sub : ds ⊆ extra) : ds.findSome? g = none := by
    refine List.findSome?_eq_none_iff.2 fun d mem => beyond d ?_ (far d (sub mem))
    have chosen : d ∈ (c.before back).choices set least := by
      rw [split]
      exact List.mem_append_right _ (sub mem)
    exact ((place.before back).of_mem_choices chosen).1
  have agree : ∀ d ∈ c.choices set least,
      Option.Rel (Trace.Alike (SamePlace t back)) (f d) (g (d.before back)) :=
    fun d mem => same d (place.of_mem_choices mem).1
  rw [split]
  constructor
  · rw [List.findSome?_append, none extra (List.Subset.refl extra), Option.or_none, List.findSome?_map]
    exact rel_findSome? agree
  · rw [List.reverse_append, List.findSome?_append, none extra.reverse (by simp), Option.none_or,
      ← List.map_reverse, List.findSome?_map]
    exact rel_findSome? fun d mem => agree d (List.mem_reverse.1 mem)

end

/-- What is found at a place of the longer text is what is found at the same place of the text, if what
    follows agrees in the text and finds nothing behind it. -/
theorem reach_before {t back : Text} (feed : StartsWithFeed back) (p : Pattern)
    (edges : p.isWordEdged = true) {f g : Cursor → Option Trace}
    (same : ∀ d : Cursor, d.IsIn t →
      Option.Rel (Trace.Alike (SamePlace t back)) (f d) (g (d.before back)))
    (beyond : ∀ d : Cursor, d.IsIn (t ++ back) → t.length < d.offset → g d = none) {c : Cursor}
    (place : c.IsIn t) :
    Option.Rel (Trace.Alike (SamePlace t back)) (p.reach f c) (p.reach g (c.before back)) := by
  induction p generalizing f g c with
  | literal like cs =>
    refine rel_bind_before same beyond (fun d way => ?_) (fun d way => ?_)
    · exact ⟨place.skip way, Passes.before (p := .literal like cs) feed rfl way⟩
    · refine ⟨(place.before back).skip way, fun inside => ?_⟩
      obtain ⟨e, -, -, way'⟩ := Passes.of_before (p := .literal like cs) feed rfl place way inside
      exact Option.isSome_iff_exists.2 ⟨e, way'⟩
  | one set =>
    refine rel_bind_before same beyond (fun d way => ?_) (fun d way => ?_)
    · exact ⟨place.pass way, Passes.before (p := .one set) feed rfl way⟩
    · refine ⟨(place.before back).pass way, fun inside => ?_⟩
      obtain ⟨e, -, -, way'⟩ := Passes.of_before (p := .one set) feed rfl place way inside
      exact Option.isSome_iff_exists.2 ⟨e, way'⟩
  | most set least =>
    rw [reach_most, reach_most]
    exact (rel_findSome?_choices_before same beyond set least place).2
  | fewest set least =>
    rw [reach_fewest, reach_fewest]
    exact (rel_findSome?_choices_before same beyond set least place).1
  | edge e =>
    obtain rfl : e = .word := by simpa [isWordEdged] using edges
    rw [reach, reach, word_holds_before feed]
    split
    · exact same c place
    · exact .none
  | seq p q ihp ihq =>
    obtain ⟨hp, hq⟩ := (Bool.and_eq_true _ _).mp edges
    refine ihp hp (fun m placed => ihq hq same beyond placed) (fun m placed far => ?_) place
    rw [Option.eq_none_iff_forall_not_mem]
    intro r found
    obtain ⟨d, kept, s, way, there, -⟩ := q.exists_keeps_of_reach found
    obtain ⟨placed', below, -⟩ := way.passes.isIn placed
    rw [beyond d placed' (Nat.lt_of_lt_of_le far below)] at there
    cases there
  | alt p q ihp ihq =>
    obtain ⟨hp, hq⟩ := (Bool.and_eq_true _ _).mp edges
    have first := ihp hp same beyond place
    rw [reach, reach]
    revert first
    cases p.reach f c <;> cases p.reach g (c.before back) <;> rintro ⟨⟩
    · exact ihq hq same beyond place
    · exact .some ‹_›
  | group index p ih =>
    have inner := ih edges (f := fun d => (f d).map (Trace.close d))
      (g := fun d => (g d).map (Trace.close d)) (fun d placed => ?_) (fun d placed far => ?_) place
    · rw [reach, reach]
      revert inner
      cases p.reach (fun d => (f d).map (Trace.close d)) c <;>
        cases p.reach (fun d => (g d).map (Trace.close d)) (c.before back) <;> rintro ⟨⟩
      · exact .none
      · exact .some (.begin ‹_› index ⟨place, rfl⟩)
    · have here := same d placed
      revert here
      cases f d <;> cases g (d.before back) <;> rintro ⟨⟩
      · exact .none
      · rename_i r r' alike
        exact .some ⟨alike.stop, alike.groups, .cons ⟨placed, rfl⟩ alike.ends⟩
    · rw [beyond d placed far]
      rfl

/-- No way through the pattern ends in what stands behind a text. -/
def Stays (p : Pattern) (back : Text) : Prop :=
  ∀ ⦃t : Text⦄ ⦃c d : Cursor⦄, c.IsIn (t ++ back) → p.Passes c d → d.offset ≤ t.length

theorem Stays.seq {q : Pattern} {back : Text} (stays : q.Stays back) (p : Pattern) :
    (p ++ q).Stays back := by
  rintro t c d place ⟨m, first, second⟩
  exact stays (first.isIn place).1 second

section

variable {t back : Text} (feed : StartsWithFeed back) {p : Pattern} (edges : p.isWordEdged = true)
  (stays : p.Stays back)
include feed edges stays

/-- The hits of a pattern that cannot end behind the text are the same in the text. -/
theorem hitAt_back {c : Cursor} (place : c.IsIn t) :
    Option.Rel (Hit.Alike (SamePlace t back)) ((p.search t).hitAt c)
      ((p.search (t ++ back)).hitAt (c.before back)) := by
  -- as no way ends behind the text, what follows may as well find nothing there
  let inside (d : Cursor) : Option Trace := if d.offset ≤ t.length then some (.done d) else none
  have cut : p.reach (fun d => some (.done d)) (c.before back) = p.reach inside (c.before back) := by
    refine p.reach_congr_of_passes fun d way => ?_
    exact (if_pos (stays (place.before back) way)).symm
  have found := reach_before (g := inside) feed p edges (f := fun d => some (.done d))
    (fun d placed => by
      have near : (d.before back).offset ≤ t.length := Nat.le_of_add_right_le (Nat.le_of_eq placed.offset_le)
      rw [show inside (d.before back) = some (.done (d.before back)) from if_pos near]
      exact .some ⟨⟨placed, rfl⟩, .nil, .nil⟩)
    (fun d _ far => if_neg (Nat.not_le_of_lt far)) place
  rw [hitAt_search p place, hitAt_search p (place.before back), matchAt, matchAt, cut]
  revert found
  cases p.reach (fun d => some (.done d)) c <;> cases p.reach inside (c.before back) <;> rintro ⟨⟩
  · exact .none
  · rename_i r r' alike
    have stop : r'.stop.offset = r.stop.offset := by
      rw [alike.stop.2]
      rfl
    simp only [Option.map_some, Option.filter, stop]
    have start : (c.before back).offset = c.offset := rfl
    rw [start]
    split
    · exact .some ⟨⟨⟨place, rfl⟩, alike.stop⟩, alike.groups⟩
    · exact .none

theorem findFrom_back {c : Cursor} (place : c.IsIn t) :
    Option.Rel (Hit.Alike (SamePlace t back)) ((p.search t).findFrom c)
      ((p.search (t ++ back)).findFrom (c.before back)) := by
  obtain ⟨extra, split, far⟩ :=
    Cursor.exists_run_before back anyChar c.behind c.offset c.ahead
  rw [place.offset_le] at far
  have run : Cursor.run anyChar (c.before back).behind (c.before back).offset (c.before back).ahead =
      (Cursor.run anyChar c.behind c.offset c.ahead).map (Cursor.before back) ++ extra := split
  have none : extra.findSome? (p.search (t ++ back)).hitAt = none := by
    refine List.findSome?_eq_none_iff.2 fun d mem => ?_
    rw [Option.eq_none_iff_forall_not_mem]
    intro hit found
    have passed : d ∈ Cursor.run anyChar (c.before back).behind (c.before back).offset
        (c.before back).ahead := by
      rw [run]
      exact List.mem_append_right _ mem
    have placed := ((place.before back).of_mem_run passed).1
    obtain ⟨-, way, -, less⟩ := p.hitAt_eq_some placed found
    have near := stays placed way.passes
    have out := far d mem
    omega
  rw [findFrom_eq p place, findFrom_eq p (place.before back), run, List.findSome?_append, none,
    Option.or_none, List.findSome?_map]
  exact rel_findSome? fun d mem => hitAt_back feed edges stays (place.of_mem_run mem).1

theorem sweep_back {c : Cursor} (place : c.IsIn t) {hits hits' : List Hit}
    (sweep : (p.search t).Sweep c hits) (sweep' : (p.search (t ++ back)).Sweep (c.before back) hits') :
    List.Forall₂ (Hit.Alike (SamePlace t back)) hits hits' := by
  induction sweep generalizing hits' with
  | last none =>
    have first := findFrom_back feed edges stays place
    rw [none] at first
    cases sweep' with
    | last none' => exact .nil
    | next first' later' =>
      rw [first'] at first
      cases first
  | next found later ih =>
    have first := findFrom_back feed edges stays place
    rw [found] at first
    cases sweep' with
    | last none' =>
      rw [none'] at first
      cases first
    | next found' later' =>
      rw [found'] at first
      cases first with
      | some alike =>
        obtain ⟨placed, stop⟩ := alike.whole.2
        rw [stop] at later'
        exact .cons alike (ih placed later')

/-- The matches of a pattern that cannot end behind the text are the same in the longer text. -/
theorem findAll_back : List.Forall₂ (Hit.Alike (SamePlace t back)) (p.findAll t)
    (p.findAll (t ++ back)) :=
  sweep_back feed edges stays (Cursor.isIn_start t) (p.sweep_findAll t) (p.sweep_findAll (t ++ back))

theorem count_back : p.count (t ++ back) = p.count t :=
  (findAll_back feed edges stays).length_eq.symm

theorem occurs_back_eq : p.occurs (t ++ back) = p.occurs t := by
  have first := findFrom_back feed edges stays (Cursor.isIn_start t)
  have here : p.find t = (p.search t).findFrom (.start t) := rfl
  have there : p.find (t ++ back) = (p.search (t ++ back)).findFrom ((Cursor.start t).before back) := rfl
  rw [occurs, occurs, here, there]
  revert first
  cases (p.search t).findFrom (.start t) <;>
    cases (p.search (t ++ back)).findFrom ((Cursor.start t).before back) <;> rintro ⟨⟩ <;> rfl

end

/-! ### How far a pattern can run out of a text

The places of the longer text are told apart by how far behind the text they lie; all places of the text
itself count as one. -/

/-- How far behind the text a place can lie after a character of the set, from one that lies `j`
    behind. -/
def stepsOut (back : Text) (set : Char → Bool) (j : Nat) : List Nat :=
  (if j = 0 then [0] else []) ++ if back[j]?.any set then [j + 1] else []

/-- How far behind the text a place can lie after characters of the set, where `rest` stands ahead of
    the place `j` behind. -/
def runsOut (set : Char → Bool) : (rest : Text) → (j : Nat) → List Nat
  | [], j => [j]
  | x :: xs, j => j :: if set x then runsOut set xs (j + 1) else []

/-- How far behind the text the ways through a pattern can end that start `j` behind. Edges are taken to
    hold everywhere. -/
def leaks (back : Text) : (p : Pattern) → (j : Nat) → List Nat
  | .literal same cs, j => cs.foldl (fun js y => js.flatMap (stepsOut back (same y))) [j]
  | .one set, j => stepsOut back set j
  | .most set _, j | .fewest set _, j => runsOut set (back.drop j) j
  | .edge _, j => [j]
  | .seq p q, j => (p.leaks back j).flatMap (q.leaks back)
  | .alt p q, j => p.leaks back j ++ q.leaks back j
  | .group _ p, j => p.leaks back j

/-- Whether no way through the pattern can end behind the text. -/
def isStill (back : Text) (p : Pattern) : Bool :=
  (List.range (back.length + 1)).all fun j => (p.leaks back j).all (· == 0)

section

variable {t back : Text} {c d : Cursor}

/-- What stands ahead of a place behind the text. -/
theorem ahead_of_le (place : c.IsIn (t ++ back)) (out : t.length ≤ c.offset) :
    c.ahead = back.drop (c.offset - t.length) := by
  obtain ⟨parts, count⟩ := place
  have whole := congrArg (List.drop c.offset) parts
  rw [count, ← List.length_reverse, List.drop_left, List.length_reverse, ← count,
    List.drop_append, List.drop_eq_nil_of_le out, List.nil_append] at whole
  exact whole

theorem mem_stepsOut (place : c.IsIn (t ++ back)) {set : Char → Bool} {x : Char} (inside : set x = true)
    (moves : c.Moves [x] d) :
    d.offset - t.length ∈ stepsOut back set (c.offset - t.length) := by
  obtain ⟨ahead, -, offset⟩ := moves
  rw [List.length_singleton] at offset
  rw [stepsOut, List.mem_append]
  by_cases out : t.length ≤ c.offset
  · right
    rw [ahead_of_le place out] at ahead
    have here : back[c.offset - t.length]? = some x := by
      rw [← List.head?_drop, ahead]
      rfl
    rw [here, Option.any_some, if_pos inside, List.mem_singleton]
    omega
  · left
    rw [if_pos (by omega), List.mem_singleton]
    omega

theorem mem_runsOut {set : Char → Bool} {cs : Text} (place : c.IsIn (t ++ back))
    (all : ∀ x ∈ cs, set x = true) (moves : c.Moves cs d) :
    d.offset - t.length ∈ runsOut set (back.drop (c.offset - t.length)) (c.offset - t.length) := by
  induction cs generalizing c with
  | nil =>
    obtain rfl := Cursor.moves_nil.1 moves
    cases back.drop (d.offset - t.length) <;> simp [runsOut]
  | cons x xs ih =>
    obtain ⟨inside, others⟩ := List.forall_mem_cons.1 all
    obtain ⟨e, first, second⟩ := @Cursor.Moves.split _ _ [x] xs moves
    have later := ih (first.isIn place) others second
    have step := first.2.2
    rw [List.length_singleton] at step
    by_cases out : t.length ≤ c.offset
    · have rest : back.drop (c.offset - t.length) = x :: back.drop (e.offset - t.length) := by
        have ahead := first.1
        rw [ahead_of_le place out] at ahead
        rw [ahead, ahead_of_le (first.isIn place) (by omega)]
        rfl
      rw [rest, runsOut, if_pos inside]
      rw [show e.offset - t.length = c.offset - t.length + 1 by omega] at later ⊢
      exact List.mem_cons_of_mem _ later
    · rwa [show e.offset - t.length = c.offset - t.length by omega] at later

theorem mem_foldl_stepsOut {same : Char → Char → Bool} {ys xs : List Char}
    (like : List.Forall₂ (fun y x => same y x = true) ys xs) (place : c.IsIn (t ++ back))
    (moves : c.Moves xs d) {js : List Nat} (mem : c.offset - t.length ∈ js) :
    d.offset - t.length ∈ ys.foldl (fun js y => js.flatMap (stepsOut back (same y))) js := by
  induction like generalizing c js with
  | nil =>
    obtain rfl := Cursor.moves_nil.1 moves
    exact mem
  | @cons y x ys xs here _ ih =>
    obtain ⟨e, first, second⟩ := @Cursor.Moves.split _ _ [x] xs moves
    exact ih (first.isIn place) second (List.mem_flatMap.2 ⟨_, mem, mem_stepsOut place here first⟩)

theorem mem_leaks {p : Pattern} (place : c.IsIn (t ++ back)) (way : p.Passes c d) :
    d.offset - t.length ∈ p.leaks back (c.offset - t.length) := by
  induction p generalizing c d with
  | literal same cs =>
    obtain ⟨xs, like, moves⟩ := Cursor.skip_eq_some_iff_forall₂.1 way
    exact mem_foldl_stepsOut like place moves (List.mem_singleton_self _)
  | one set =>
    obtain ⟨x, inside, moves⟩ := passes_one.1 way
    exact mem_stepsOut place inside moves
  | most set least | fewest set least =>
    obtain ⟨cs, -, all, moves⟩ := Cursor.mem_choices_iff.1 way
    exact mem_runsOut place all moves
  | edge e =>
    obtain ⟨-, rfl⟩ := way
    exact List.mem_singleton_self _
  | seq p q ihp ihq =>
    obtain ⟨m, first, second⟩ := way
    exact List.mem_flatMap.2 ⟨_, ihp place first, ihq (first.isIn place).1 second⟩
  | alt p q ihp ihq =>
    rcases way with way | way
    · exact List.mem_append_left _ (ihp place way)
    · exact List.mem_append_right _ (ihq place way)
  | group index p ih => exact ih place way

/-- A pattern that cannot run out of any text stays in every text. -/
theorem stays_of_isStill {p : Pattern} (still : isStill back p = true) : p.Stays back := by
  intro t c d place way
  have count := place.offset_le
  rw [List.length_append] at count
  have start : c.offset - t.length ∈ List.range (back.length + 1) := by
    rw [List.mem_range]
    omega
  have stop := List.all_eq_true.1 (List.all_eq_true.1 still _ start) _ (mem_leaks place way)
  rw [beq_iff_eq] at stop
  omega

end

end Pattern

end SourceAudit

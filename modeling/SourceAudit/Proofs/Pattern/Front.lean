/-
Module: SourceAudit.Proofs.Pattern.Front
Layer: Proofs
Purpose: Lines put in front of a text. Behind a front that no word runs out of, every pattern finds what
  it found before, that many places further on; a pattern that cannot start in the front has therefore
  the same matches, with the same characters.
Main exports: Cursor.after, frontSight, Likeness.front, Pattern.Quiet, Pattern.findAll_front,
  Pattern.quiet_of_heads, Pattern.isStuckAt, Pattern.quiet_of_isStuckAt
-/
import SourceAudit.Proofs.Pattern.Likeness
import Mathlib.Data.List.Infix

namespace SourceAudit

namespace Cursor

/-- The place of a text when something is put in front of the text. -/
def after (front : Text) (c : Cursor) : Cursor :=
  ⟨c.behind ++ front.reverse, c.ahead, front.length + c.offset⟩

theorem IsIn.after {t : Text} {c : Cursor} (front : Text) (h : c.IsIn t) :
    (c.after front).IsIn (front ++ t) := by
  obtain ⟨parts, count⟩ := h
  refine ⟨?_, ?_⟩
  · simp [Cursor.after, parts]
  · simp [Cursor.after, count, Nat.add_comm]

theorem skip_after (front : Text) (same : Char → Char → Bool) (cs : List Char) (c : Cursor) :
    (c.after front).skip same cs = (c.skip same cs).map (after front) := by
  induction cs generalizing c with
  | nil => rfl
  | cons y ys ih =>
    obtain ⟨b, a, o⟩ := c
    cases a with
    | nil => rfl
    | cons x xs =>
      have next := ih ⟨x :: b, xs, o + 1⟩
      simp only [after, skip] at next ⊢
      split
      · exact next
      · rfl

theorem pass_after (front : Text) (set : Char → Bool) (n : Nat) (c : Cursor) :
    (c.after front).pass set n = (c.pass set n).map (after front) := by
  induction n generalizing c with
  | zero => rfl
  | succ n ih =>
    obtain ⟨b, a, o⟩ := c
    cases a with
    | nil => rfl
    | cons x xs =>
      have next := ih ⟨x :: b, xs, o + 1⟩
      simp only [after, pass] at next ⊢
      split
      · exact next
      · rfl

theorem run_after (front : Text) (set : Char → Bool) (b : List Char) (o : Nat) (a : List Char) :
    run set (b ++ front.reverse) (front.length + o) a = (run set b o a).map (after front) := by
  induction a generalizing b o with
  | nil => rfl
  | cons x xs ih =>
    have next := ih (x :: b) (o + 1)
    simp only [run]
    split
    · simpa [after, Nat.add_assoc] using next
    · rfl

theorem choices_after (front : Text) (set : Char → Bool) (n : Nat) (c : Cursor) :
    (c.after front).choices set n = (c.choices set n).map (after front) := by
  rw [choices, choices, pass_after]
  cases c.pass set n with
  | none => rfl
  | some d => exact run_after front set d.behind d.offset d.ahead

end Cursor

/-- No literal and no set is touched by what is put in front. -/
def frontSight : Sight := ⟨fun _ _ => True, fun _ => true, fun _ => true, rfl⟩

/-- The places of a text and of the same text behind a front. -/
def Likeness.front (front t : Text) (apart : ∀ x ∈ front.getLast?, isWordChar x = false) :
    Likeness frontSight t (front ++ t) where
  matched c c' := c.IsIn t ∧ c' = c.after front
  amid _ _ := False
  kept c c' := c.IsIn t ∧ c' = c.after front
  kept_of_matched := id
  partners_of_kept := .inl
  isIn_matched := by
    rintro c c' ⟨place, rfl⟩
    exact ⟨place, place.after front⟩
  isIn_amid := False.elim
  skip_matched := by
    rintro same cs - c c' ⟨place, rfl⟩
    rw [Cursor.skip_after]
    cases skipped : c.skip same cs with
    | none => exact .none
    | some d => exact .some ⟨place.skip skipped, rfl⟩
  skip_amid _ := False.elim
  pass_matched := by
    rintro set - c c' ⟨place, rfl⟩
    rw [Cursor.pass_after]
    cases passed : c.pass set 1 with
    | none => exact .none
    | some d => exact .some ⟨place.pass passed, rfl⟩
  pass_amid _ := False.elim
  choices := by
    intro set _ c c' partners
    obtain ⟨place, rfl⟩ : c.IsIn t ∧ c' = c.after front := partners.resolve_right id
    rw [Cursor.choices_after]
    refine ⟨Aligned.of_forall₂ ?_, ?_⟩
    · rw [List.forall₂_map_right_iff]
      exact List.forall₂_same.2 fun d mem => .inl ⟨(place.of_mem_choices mem).1, rfl⟩
    · obtain ⟨d, last⟩ : ∃ d, (c.choices set 0).getLast? = some d := by
        rw [Cursor.choices_zero, Cursor.run_eq]
        exact ⟨_, List.getLast?_cons⟩
      have mem := List.mem_of_getLast? last
      exact ⟨d, d.after front, last, by simp [last], (place.of_mem_choices mem).1, rfl⟩
  choices_one := by
    intro set _ c c' partners
    obtain ⟨place, rfl⟩ : c.IsIn t ∧ c' = c.after front := partners.resolve_right id
    rw [Cursor.choices_after]
    apply Aligned.of_forall₂
    rw [List.forall₂_map_right_iff]
    exact List.forall₂_same.2 fun d mem => ⟨(place.of_mem_choices mem).1, rfl⟩
  word_matched := by
    rintro ⟨b, a, o⟩ c' ⟨-, rfl⟩
    cases b with
    | cons y ys => rfl
    | nil =>
      have none : front.getLast?.any isWordChar = false := by
        cases last : front.getLast? with
        | none => rfl
        | some x => exact apart x last
      simp [Edge.holds, Cursor.after, List.head?_reverse, none]

section

variable {front t : Text} {apart : ∀ x ∈ front.getLast?, isWordChar x = false}

theorem Span.chars_front {s s' : Span} (h : s.Alike (Likeness.front front t apart).kept s') :
    s'.chars = s.chars := by
  obtain ⟨start, stop⟩ := s
  obtain ⟨start', stop'⟩ := s'
  obtain ⟨⟨-, rfl⟩, ⟨-, rfl⟩⟩ := h
  simp [Span.chars, Span.length, Cursor.after, Nat.add_sub_add_left]

theorem Hit.chars_front {h h' : Hit} (alike : h.Alike (Likeness.front front t apart).kept h') :
    h'.chars = h.chars :=
  Span.chars_front alike.whole

theorem Hit.groupChars_front {h h' : Hit}
    (alike : h.Alike (Likeness.front front t apart).kept h') (index : Nat) :
    h'.groupChars index = h.groupChars index :=
  alike.groupChars (Q := fun cs cs' => cs' = cs) rfl (fun ends => Span.chars_front ends) index

end

namespace Pattern

/-- The pattern cannot start in a front, whatever follows the front. -/
def Quiet (p : Pattern) (front : Text) : Prop :=
  ∀ ⦃t : Text⦄ ⦃c d : Cursor⦄, c.IsIn (front ++ t) → c.offset < front.length → ¬ p.Passes c d

theorem Quiet.seq {p : Pattern} {front : Text} (h : p.Quiet front) (q : Pattern) :
    (p ++ q).Quiet front := by
  rintro t c d place inside ⟨m, first, -⟩
  exact h place inside first

/-- A search that starts in a front where the pattern is quiet starts behind the front. -/
theorem findFrom_front {p : Pattern} {front : Text} (quiet : p.Quiet front) (t : Text) :
    (p.search (front ++ t)).findFrom (.start (front ++ t)) =
      (p.search (front ++ t)).findFrom ((Cursor.start t).after front) := by
  have passing : ∀ done rest : Text, done ++ rest = front →
      (p.search (front ++ t)).findFrom ⟨done.reverse, rest ++ t, done.length⟩ =
        (p.search (front ++ t)).findFrom ((Cursor.start t).after front) := by
    intro done rest
    induction rest generalizing done with
    | nil =>
      intro parts
      simp [Cursor.after, Cursor.start, ← parts]
    | cons x rest ih =>
      intro parts
      have place : (⟨done.reverse, x :: (rest ++ t), done.length⟩ : Cursor).IsIn (front ++ t) := by
        simp [Cursor.IsIn, ← parts]
      have nothing : (p.search (front ++ t)).hitAt ⟨done.reverse, x :: (rest ++ t), done.length⟩ =
          none := by
        refine Option.eq_none_iff_forall_not_mem.2 fun hit found => ?_
        refine quiet place ?_ (p.hitAt_eq_some place found).2.1.passes
        simp [← parts]
      have step : (p.search (front ++ t)).findFrom ⟨done.reverse, x :: (rest ++ t), done.length⟩ =
          (p.search (front ++ t)).findFrom ⟨x :: done.reverse, rest ++ t, done.length + 1⟩ := by
        simp only [Search.findFrom, Search.seek, nothing, ite_self]
      have next := ih (done ++ [x]) (by simp [← parts])
      rw [List.cons_append, step]
      simpa using next
  exact passing [] front rfl

/-- The pattern asks for word edges only. -/
def isWordEdged : Pattern → Bool
  | .edge e => e == .word
  | .seq p q => p.isWordEdged && q.isWordEdged
  | .alt p q => p.isWordEdged && q.isWordEdged
  | .group _ p => p.isWordEdged
  | _ => true

theorem grade_frontSight {p : Pattern} (edges : p.isWordEdged = true) (g : Grade) :
    ∃ result, p.grade frontSight g = some result ∧
      (g = .shut ∨ p.isSkippable = false → result = .shut) := by
  induction p generalizing g with
  | literal same cs =>
    cases cs with
    | nil => exact ⟨g, rfl, fun h => h.resolve_right (by simp [isSkippable])⟩
    | cons x cs => exact ⟨.shut, rfl, fun _ => rfl⟩
  | one set => exact ⟨.shut, rfl, fun _ => rfl⟩
  | most set least | fewest set least =>
    refine ⟨if least = 0 then g.still else .shut, by simp [grade, frontSight], fun h => ?_⟩
    rcases h with rfl | h
    · simp [Grade.still]
    · have some : least ≠ 0 := by simpa [isSkippable] using h
      rw [if_neg some]
  | edge e =>
    obtain rfl : e = .word := by simpa [isWordEdged] using edges
    refine ⟨g.edged, rfl, fun h => ?_⟩
    rw [h.resolve_right (by simp [isSkippable])]
    rfl
  | seq p q ihp ihq =>
    obtain ⟨hp, hq⟩ : p.isWordEdged = true ∧ q.isWordEdged = true := by
      simpa [isWordEdged] using edges
    obtain ⟨middle, second, shut⟩ := ihq hq g
    obtain ⟨result, first, shut'⟩ := ihp hp middle
    refine ⟨result, by simp [grade, second, first], fun h => shut' ?_⟩
    simp only [isSkippable, Bool.and_eq_false_iff] at h
    rcases h with h | h | h
    · exact .inl (shut (.inl h))
    · exact .inr h
    · exact .inl (shut (.inr h))
  | alt p q ihp ihq =>
    obtain ⟨hp, hq⟩ : p.isWordEdged = true ∧ q.isWordEdged = true := by
      simpa [isWordEdged] using edges
    obtain ⟨a, first, shut⟩ := ihp hp g
    obtain ⟨b, second, shut'⟩ := ihq hq g
    refine ⟨a.meet b, by simp [grade, first, second], fun h => ?_⟩
    simp only [isSkippable, Bool.or_eq_false_iff] at h
    rw [shut (h.imp_right And.left), shut' (h.imp_right And.right)]
    rfl
  | group index p ih =>
    obtain ⟨inside, within, shut⟩ := ih edges g.closed
    refine ⟨inside.edged, by simp [grade, within], fun h => ?_⟩
    rw [shut (h.imp_left fun h => by rw [h]; rfl)]
    rfl

/-- Whatever is put in front, no pattern with word edges only is misled. -/
theorem unmoved_frontSight {p : Pattern} (moves : p.isSkippable = false)
    (edges : p.isWordEdged = true) : p.Unmoved frontSight := by
  refine ⟨moves, ?_, ?_⟩
  · clear moves edges
    induction p with
    | seq p q ihp ihq | alt p q ihp ihq => exact ⟨ihp, ihq⟩
    | group index p ih => exact ih
    | _ => exact trivial
  · obtain ⟨result, graded, shut⟩ := grade_frontSight edges .open
    rw [graded, shut (.inr moves)]

section

variable {p : Pattern} {front : Text} (moves : p.isSkippable = false)
  (edges : p.isWordEdged = true) (quiet : p.Quiet front) (t : Text)
  (apart : ∀ x ∈ front.getLast?, isWordChar x = false)
include moves edges quiet

/-- The first match behind a front in which the pattern is quiet. -/
theorem find_front : Option.Rel (Hit.Alike (Likeness.front front t apart).kept)
    (p.find t) (p.find (front ++ t)) := by
  have start : (Likeness.front front t apart).matched (.start t) ((Cursor.start t).after front) :=
    ⟨Cursor.isIn_start t, rfl⟩
  have first : p.find (front ++ t) =
      (p.search (front ++ t)).findFrom ((Cursor.start t).after front) := findFrom_front quiet t
  rw [first]
  exact ((Likeness.front front t apart).shuts (unmoved_frontSight moves edges)).findFrom_alike (.inl start)

/-- All matches behind a front in which the pattern is quiet. -/
theorem findAll_front : List.Forall₂ (Hit.Alike (Likeness.front front t apart).kept)
    (p.findAll t) (p.findAll (front ++ t)) := by
  have start : (Likeness.front front t apart).matched (.start t) ((Cursor.start t).after front) :=
    ⟨Cursor.isIn_start t, rfl⟩
  have sweep := (p.sweep_findAll (front ++ t)).of_findFrom_eq (findFrom_front quiet t).symm
  exact ((Likeness.front front t apart).shuts (unmoved_frontSight moves edges)).sweep_alike (.inl start)
    (p.sweep_findAll t) sweep

include apart in
theorem occurs_front : p.occurs (front ++ t) = p.occurs t := by
  have first := find_front moves edges quiet t apart
  rw [occurs, occurs]
  revert first
  cases p.find t <;> cases p.find (front ++ t) <;> rintro ⟨⟩ <;> rfl

end

/-- The single parts that a match can start with, edges left out. -/
def heads : Pattern → List Pattern
  | .literal _ [] => []
  | .literal same (x :: cs) => [.literal same (x :: cs)]
  | .one set => [.one set]
  | .most set _ => [.one set]
  | .fewest set _ => [.one set]
  | .edge _ => []
  | .seq p q => p.heads ++ if p.isSkippable then q.heads else []
  | .alt p q => p.heads ++ q.heads
  | .group _ p => p.heads

/-- A way through a pattern passes nothing, or starts with one of its heads. -/
theorem Passes.head {p : Pattern} {c d : Cursor} (way : p.Passes c d) :
    (p.isSkippable = true ∧ d = c) ∨ ∃ first ∈ p.heads, ∃ m, first.Passes c m := by
  induction p generalizing c d with
  | literal same cs =>
    cases cs with
    | nil => exact .inl ⟨rfl, (Option.some.inj way).symm⟩
    | cons x cs => exact .inr ⟨_, List.mem_singleton_self _, d, way⟩
  | one set => exact .inr ⟨_, List.mem_singleton_self _, d, way⟩
  | most set least | fewest set least =>
    obtain ⟨cs, enough, all, moves⟩ := Cursor.mem_choices_iff.1 way
    cases cs with
    | nil => exact .inl ⟨by simpa [isSkippable] using enough, Cursor.moves_nil.1 moves⟩
    | cons x xs =>
      obtain ⟨m, first, -⟩ := @Cursor.Moves.split c d [x] xs moves
      refine .inr ⟨.one set, List.mem_singleton_self _, m, ?_⟩
      exact Cursor.pass_eq_some_iff.2 ⟨[x], rfl, by simpa using all x List.mem_cons_self, first⟩
  | edge e => exact .inl ⟨rfl, way.2⟩
  | seq p q ihp ihq =>
    obtain ⟨m, first, second⟩ := way
    rcases ihp first with ⟨skip, rfl⟩ | ⟨h, mem, there⟩
    · rcases ihq second with ⟨skip', rfl⟩ | ⟨h, mem, there⟩
      · exact .inl ⟨by simp [isSkippable, skip, skip'], rfl⟩
      · exact .inr ⟨h, by simp [heads, skip, mem], there⟩
    · exact .inr ⟨h, List.mem_append_left _ mem, there⟩
  | alt p q ihp ihq =>
    rcases way with way | way
    · rcases ihp way with ⟨skip, rfl⟩ | ⟨h, mem, there⟩
      · exact .inl ⟨by simp [isSkippable, skip], rfl⟩
      · exact .inr ⟨h, List.mem_append_left _ mem, there⟩
    · rcases ihq way with ⟨skip, rfl⟩ | ⟨h, mem, there⟩
      · exact .inl ⟨by simp [isSkippable, skip], rfl⟩
      · exact .inr ⟨h, List.mem_append_right _ mem, there⟩
  | group index p ih => exact ih way

theorem quiet_of_heads {p : Pattern} {front : Text} (moves : p.isSkippable = false)
    (quiet : ∀ first ∈ p.heads, first.Quiet front) : p.Quiet front := by
  intro t c d place inside way
  rcases way.head with ⟨skip, -⟩ | ⟨first, mem, m, there⟩
  · rw [moves] at skip
    cases skip
  · exact quiet first mem place inside there

end Pattern

/-- What stands ahead of a place in a front: the rest of the front, which is not empty, and the text
    behind it. -/
theorem Cursor.IsIn.ahead_eq {front t : Text} {c : Cursor} (h : c.IsIn (front ++ t))
    (inside : c.offset < front.length) :
    ∃ rest, rest ≠ [] ∧ c.behind.reverse ++ rest = front ∧ c.ahead = rest ++ t := by
  obtain ⟨parts, count⟩ := h
  rcases List.append_eq_append_iff.1 parts with ⟨rest, whole, ahead⟩ | ⟨excess, whole, -⟩
  · refine ⟨rest, ?_, whole.symm, ahead⟩
    rintro rfl
    rw [whole, List.append_nil, List.length_reverse, count] at inside
    exact Nat.lt_irrefl _ inside
  · rw [← List.length_reverse, whole, List.length_append] at count
    omega

/-- A literal without line feeds that is no stretch of a front of whole lines cannot start in it. -/
theorem Pattern.quiet_text {s : String} {front : Text} (feed : front.getLast? = some '\n')
    (absent : '\n' ∉ s.toList) (none : ¬ s.toList <:+: front) : (text s).Quiet front := by
  intro t c d place inside way
  obtain ⟨rest, some, whole, ahead⟩ := place.ahead_eq inside
  obtain ⟨starts, -, -⟩ := Cursor.skip_eq_some_iff.1 way
  rw [ahead] at starts
  rcases List.append_eq_append_iff.1 starts with ⟨excess, longer, -⟩ | ⟨excess, shorter, -⟩
  · -- the literal would run over the line feed at the end of the front
    have last : '\n' ∈ rest := by
      rw [← whole, List.getLast?_append_of_ne_nil _ some] at feed
      exact List.mem_of_getLast? feed
    rw [longer] at absent
    exact absent (List.mem_append_left _ last)
  · refine none ⟨c.behind.reverse, excess, ?_⟩
    rw [List.append_assoc, ← shorter, whole]

/-- Every match starts with one of these literals. -/
structure Pattern.StartsWith (p : Pattern) (starts : List String) : Prop where
  moves : p.isSkippable = false
  heads : p.heads = starts.map text

theorem Pattern.StartsWith.quiet {p : Pattern} {starts : List String} (h : p.StartsWith starts)
    {front : Text} (quiet : ∀ s ∈ starts, (text s).Quiet front) : p.Quiet front := by
  apply quiet_of_heads h.moves
  rw [h.heads]
  intro first mem
  obtain ⟨s, inStarts, rfl⟩ := List.mem_map.1 mem
  exact quiet s inStarts

/-- Whether characters differ from a text within the length of both. -/
def clashes (same : Char → Char → Bool) : (cs s : List Char) → Bool
  | c :: cs, x :: s => !same c x || clashes same cs s
  | _, _ => false

namespace Pattern

/-- What is left of a known text when the pattern passes a fixed number of its characters. -/
def rest? : Pattern → (s : Text) → Option Text
  | .literal _ cs, s => if cs.length ≤ s.length then some (s.drop cs.length) else none
  | .edge _, s => some s
  | .seq p q, s => (p.rest? s).bind q.rest?
  | .group _ p, s => p.rest? s
  | _, _ => none

/-- Whether the pattern cannot pass a known text, whatever follows it. -/
def isStuckAt : Pattern → (s : Text) → Bool
  | .literal same cs, s => clashes same cs s
  | .one set, s => s.head?.any fun c => !set c
  | .most set least, s | .fewest set least, s => least != 0 && s.head?.any fun c => !set c
  | .edge _, _ => false
  | .seq p q, s => p.isStuckAt s || (p.rest? s).any q.isStuckAt
  | .alt p q, s => p.isStuckAt s && q.isStuckAt s
  | .group _ p, s => p.isStuckAt s

end Pattern

theorem Cursor.skip_of_clashes {same : Char → Char → Bool} {cs s t : Text}
    (clash : clashes same cs s = true) {c : Cursor} (ahead : c.ahead = s ++ t) :
    c.skip same cs = none := by
  induction cs generalizing s c with
  | nil => cases clash
  | cons y ys ih =>
    cases s with
    | nil => cases clash
    | cons x s =>
      rw [clashes, Bool.or_eq_true, Bool.not_eq_true'] at clash
      rw [skip, ahead]
      simp only [List.cons_append]
      split
      · rename_i like
        exact ih (clash.resolve_left (by simp [like])) rfl
      · rfl

theorem Cursor.ahead_skip {same : Char → Char → Bool} {cs : List Char} {c d : Cursor}
    (h : c.skip same cs = some d) : d.ahead = c.ahead.drop cs.length := by
  induction cs generalizing c with
  | nil =>
    obtain rfl := Option.some.inj h
    rfl
  | cons y ys ih =>
    rw [skip] at h
    split at h
    · cases h
    · rename_i x xs ahead
      split at h
      · rw [ahead, List.length_cons, List.drop_succ_cons]
        exact ih h
      · cases h

theorem Cursor.pass_of_outside {set : Char → Bool} {s t : Text}
    (outside : s.head?.any (fun c => !set c) = true) {c : Cursor} (ahead : c.ahead = s ++ t) :
    c.pass set 1 = none := by
  cases s with
  | nil => cases outside
  | cons x s =>
    have missed : set x = false := by simpa using outside
    rw [pass, ahead]
    simp [missed]

namespace Pattern

theorem ahead_of_rest? {p : Pattern} {s r t : Text} (rest : p.rest? s = some r) {c d : Cursor}
    (ahead : c.ahead = s ++ t) (way : p.Passes c d) : d.ahead = r ++ t := by
  induction p generalizing s r c d with
  | literal same cs =>
    rw [rest?] at rest
    split at rest
    · rename_i short
      obtain rfl := Option.some.inj rest
      rw [Cursor.ahead_skip way, ahead, List.drop_append_of_le_length short]
    · cases rest
  | one | most | fewest | alt => cases rest
  | edge e =>
    obtain ⟨-, rfl⟩ := way
    obtain rfl := Option.some.inj rest
    exact ahead
  | seq p q ihp ihq =>
    obtain ⟨m, first, second⟩ := way
    obtain ⟨u, left, right⟩ := Option.bind_eq_some_iff.1 rest
    exact ihq right (ihp left ahead first) second
  | group index p ih => exact ih rest ahead way

theorem not_passes_of_isStuckAt {p : Pattern} {s t : Text} (stuck : p.isStuckAt s = true)
    {c d : Cursor} (ahead : c.ahead = s ++ t) : ¬ p.Passes c d := by
  induction p generalizing s c d with
  | literal same cs =>
    intro way
    have skipped : c.skip same cs = some d := way
    rw [Cursor.skip_of_clashes stuck ahead] at skipped
    cases skipped
  | one set =>
    intro way
    have passed : c.pass set 1 = some d := way
    rw [Cursor.pass_of_outside stuck ahead] at passed
    cases passed
  | most set least | fewest set least =>
    intro way
    obtain ⟨some, outside⟩ := (Bool.and_eq_true _ _).mp stuck
    obtain ⟨n, rfl⟩ := Nat.exists_eq_succ_of_ne_zero (bne_iff_ne.1 some)
    have mem : d ∈ c.choices set (n + 1) := way
    rw [Cursor.choices_succ_of_stuck (Cursor.pass_of_outside outside ahead)] at mem
    cases mem
  | edge e => cases stuck
  | seq p q ihp ihq =>
    rintro ⟨m, first, second⟩
    rcases (Bool.or_eq_true _ _).mp stuck with stuck | stuck
    · exact ihp stuck ahead first
    · cases rest : p.rest? s with
      | none =>
        rw [rest] at stuck
        cases stuck
      | some r =>
        rw [rest] at stuck
        exact ihq stuck (ahead_of_rest? rest ahead first) second
  | alt p q ihp ihq =>
    obtain ⟨left, right⟩ := (Bool.and_eq_true _ _).mp stuck
    rintro (way | way)
    · exact ihp left ahead way
    · exact ihq right ahead way
  | group index p ih => exact ih stuck ahead

/-- A pattern that is stuck at every place of a front cannot start in it. -/
theorem quiet_of_isStuckAt {p : Pattern} {front : Text}
    (stuck : front.tails.all (fun s => s.isEmpty || p.isStuckAt s) = true) : p.Quiet front := by
  intro t c d place inside
  obtain ⟨rest, some, whole, ahead⟩ := place.ahead_eq inside
  have here := List.all_eq_true.1 stuck rest ((List.mem_tails _ _).2 ⟨_, whole⟩)
  have nonempty : rest.isEmpty = false := by simpa using some
  rw [nonempty, Bool.false_or] at here
  exact not_passes_of_isStuckAt here ahead

end Pattern

end SourceAudit

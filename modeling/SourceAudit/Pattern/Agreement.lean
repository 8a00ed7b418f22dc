/-
Module: SourceAudit.Pattern.Agreement
Layer: Pattern
Purpose: A pattern laid out over a text finds at every place of the text what the pattern means there.
  The tables hold for each place what a run leads to, because their cells follow the same equations;
  short runs and all else are followed as the meaning says. A search is therefore as good as its
  pattern, and what is proved about the meaning holds of what is found. The places that a search does
  not try have no match.
Main exports: Cursor.IsIn, PlaceTable.read_make, Pattern.reach_congr, Pattern.findAt_plan,
  Pattern.hitAt_search, Pattern.stop_of_no_start, Pattern.hitAt_eq_none
-/
import SourceAudit.Pattern.Search

namespace SourceAudit

namespace Cursor

/-- The place is one of the text. -/
def IsIn (c : Cursor) (t : Text) : Prop :=
  c.behind.reverse ++ c.ahead = t ∧ c.offset = c.behind.length

/-- The start of a text is a place of it. -/
theorem isIn_start (t : Text) : (start t).IsIn t := ⟨rfl, rfl⟩

/-- The place one further is a place of the same text. -/
theorem IsIn.step {t : Text} {b xs : List Char} {o : Nat} {x : Char}
    (h : (⟨b, x :: xs, o⟩ : Cursor).IsIn t) : (⟨x :: b, xs, o + 1⟩ : Cursor).IsIn t := by
  obtain ⟨parts, count⟩ := h
  refine ⟨?_, ?_⟩
  · simpa using parts
  · simpa using count

/-- Skipping characters leads to a place of the same text. -/
theorem IsIn.skip {t : Text} {same : Char → Char → Bool} {cs : List Char} {c d : Cursor}
    (h : c.IsIn t) (found : c.skip same cs = some d) : d.IsIn t := by
  induction cs generalizing c with
  | nil =>
    simp only [Cursor.skip, Option.some.injEq] at found
    exact found ▸ h
  | cons y ys ih =>
    obtain ⟨b, a, o⟩ := c
    cases a with
    | nil => simp [Cursor.skip] at found
    | cons x xs =>
      simp only [Cursor.skip] at found
      split at found
      · exact ih h.step found
      · cases found

/-- Passing characters of a set leads to a place of the same text. -/
theorem IsIn.pass {t : Text} {set : Char → Bool} {n : Nat} {c d : Cursor}
    (h : c.IsIn t) (found : c.pass set n = some d) : d.IsIn t := by
  induction n generalizing c with
  | zero =>
    simp only [Cursor.pass, Option.some.injEq] at found
    exact found ▸ h
  | succ n ih =>
    obtain ⟨b, a, o⟩ := c
    cases a with
    | nil => simp [Cursor.pass] at found
    | cons x xs =>
      simp only [Cursor.pass] at found
      split at found
      · exact ih h.step found
      · cases found

/-- A run that takes as much as possible asks `next` at places of the text only. -/
theorem greedy_congr {α : Type} {t : Text} {set : Char → Bool} {f g : Cursor → Option α}
    (same : ∀ d : Cursor, d.IsIn t → f d = g d) {b a : List Char} {o : Nat}
    (h : (⟨b, a, o⟩ : Cursor).IsIn t) : greedy set f b o a = greedy set g b o a := by
  induction a generalizing b o with
  | nil => exact same _ h
  | cons x xs ih => rw [greedy, greedy, ih h.step, same _ h]

/-- A run that takes as little as possible asks `next` at places of the text only. -/
theorem sparing_congr {α : Type} {t : Text} {set : Char → Bool} {f g : Cursor → Option α}
    (same : ∀ d : Cursor, d.IsIn t → f d = g d) {b a : List Char} {o : Nat}
    (h : (⟨b, a, o⟩ : Cursor).IsIn t) : sparing set f b o a = sparing set g b o a := by
  induction a generalizing b o with
  | nil => exact same _ h
  | cons x xs ih => rw [sparing, sparing, ih h.step, same _ h]

end Cursor

/-- The meaning of a pattern at a place of a text depends on what follows at places of that text
    only. -/
theorem Pattern.reach_congr {t : Text} (p : Pattern) {f g : Cursor → Option Trace}
    (same : ∀ d : Cursor, d.IsIn t → f d = g d) {c : Cursor} (h : c.IsIn t) :
    p.reach f c = p.reach g c := by
  induction p generalizing f g c with
  | literal like cs =>
    simp only [Pattern.reach]
    cases found : c.skip like cs with
    | none => rfl
    | some d => exact same d (h.skip found)
  | one set =>
    simp only [Pattern.reach]
    cases found : c.pass set 1 with
    | none => rfl
    | some d => exact same d (h.pass found)
  | most set least =>
    simp only [Pattern.reach]
    cases found : c.pass set least with
    | none => rfl
    | some d => exact Cursor.greedy_congr same (h.pass found)
  | fewest set least =>
    simp only [Pattern.reach]
    cases found : c.pass set least with
    | none => rfl
    | some d => exact Cursor.sparing_congr same (h.pass found)
  | edge e => simp only [Pattern.reach, same c h]
  | seq p q ihp ihq => exact ihp (fun d hd => ihq same hd) h
  | alt p q ihp ihq => simp only [Pattern.reach, ihp same h, ihq same h]
  | group index p ih =>
    simp only [Pattern.reach]
    rw [ih (fun d hd => by rw [same d hd]) h]

namespace PlaceTable

/-- The table of the places from here to the end of the text. -/
def tableFrom (cell : Cursor → Option Trace → Option Trace) (behind : List Char) (offset : Nat) :
    (ahead : List Char) → PlaceTable
  | [] => #[cell ⟨behind, [], offset⟩ none]
  | x :: xs =>
    let later := tableFrom cell (x :: behind) (offset + 1) xs
    later.push (cell ⟨behind, x :: xs, offset⟩ (later.back?.getD none))

/-- The places taken from the last to the first fill the table from the end of the text on. -/
theorem foldl_backward (cell : Cursor → Option Trace → Option Trace) (found : List Cursor)
    (b : List Char) (o : Nat) (a : List Char) :
    make cell (Cursor.backward found b o a) =
      found.foldl (fun table c => table.push (cell c (table.back?.getD none)))
        (tableFrom cell b o a) := by
  induction a generalizing found b o with
  | nil => rfl
  | cons x xs ih => rw [Cursor.backward, ih]; rfl

section

variable {cell : Cursor → Option Trace → Option Trace}
  {val : List Char → Nat → List Char → Option Trace}

/-- The table of a stretch has a cell for each of its places, the end included. -/
theorem size_tableFrom (b : List Char) (o : Nat) (a : List Char) :
    (tableFrom cell b o a).size = a.length + 1 := by
  induction a generalizing b o with
  | nil => rfl
  | cons x xs ih => simp [tableFrom, ih]

/-- The last cell of a table is the one of its first place. -/
theorem back_tableFrom (atEnd : ∀ b o, val b o [] = cell ⟨b, [], o⟩ none)
    (before : ∀ b o x xs, val b o (x :: xs) = cell ⟨b, x :: xs, o⟩ (val (x :: b) (o + 1) xs))
    (b : List Char) (o : Nat) (a : List Char) :
    (tableFrom cell b o a).back? = some (val b o a) := by
  induction a generalizing b o with
  | nil => simp [tableFrom, atEnd]
  | cons x xs ih => simp [tableFrom, ih, before]

/-- The cell of a place stands as far from the front as the place stands from the end of the
    text. -/
theorem getElem?_tableFrom (atEnd : ∀ b o, val b o [] = cell ⟨b, [], o⟩ none)
    (before : ∀ b o x xs, val b o (x :: xs) = cell ⟨b, x :: xs, o⟩ (val (x :: b) (o + 1) xs))
    (passed rest : List Char) (b : List Char) (o : Nat) :
    (tableFrom cell b o (passed ++ rest))[rest.length]? =
      some (val (passed.reverse ++ b) (o + passed.length) rest) := by
  induction passed generalizing b o with
  | nil =>
    have last := back_tableFrom atEnd before b o rest
    rw [Array.back?_eq_getElem?, size_tableFrom] at last
    simpa using last
  | cons x xs ih =>
    have small : rest.length < (tableFrom cell (x :: b) (o + 1) (xs ++ rest)).size := by
      rw [size_tableFrom, List.length_append]
      omega
    have later := ih (x :: b) (o + 1)
    rw [List.cons_append, tableFrom, Array.getElem?_push_lt small]
    rw [Array.getElem?_eq_getElem small] at later
    rw [later]
    simp [Nat.add_assoc, Nat.add_comm 1]

/-- A table whose cells follow the equations of a value holds that value for every place. -/
theorem read_make (atEnd : ∀ b o, val b o [] = cell ⟨b, [], o⟩ none)
    (before : ∀ b o x xs, val b o (x :: xs) = cell ⟨b, x :: xs, o⟩ (val (x :: b) (o + 1) xs))
    {t : Text} {c : Cursor} (h : c.IsIn t) :
    (make cell (Cursor.backward [] [] 0 t)).read c = val c.behind c.offset c.ahead := by
  obtain ⟨parts, count⟩ := h
  have cellOf := getElem?_tableFrom atEnd before c.behind.reverse c.ahead [] 0
  have place : t.length + 1 - 1 - c.offset = c.ahead.length := by
    rw [← parts, List.length_append, List.length_reverse, count]
    omega
  rw [foldl_backward, List.foldl_nil, read, size_tableFrom, place, ← parts, cellOf]
  simp [count]

end

end PlaceTable

/-- Laid out over a text, a pattern finds at each place of the text what it means there. -/
theorem Pattern.findAt_plan {t : Text} (p : Pattern) (next : Plan) {c : Cursor} (h : c.IsIn t) :
    (p.plan ⟨fun _ => Cursor.backward [] [] 0 t⟩ next).findAt c = p.reach next.findAt c := by
  induction p generalizing next c with
  | literal like cs =>
    simp only [Pattern.plan, Plan.findAt, Pattern.reach]
    cases c.skip like cs <;> rfl
  | one set =>
    obtain ⟨b, a, o⟩ := c
    cases a with
    | nil => rfl
    | cons x xs =>
      simp only [Pattern.plan, Plan.findAt, Pattern.reach, Cursor.pass]
      cases set x <;> rfl
  | most set least =>
    simp only [Pattern.plan, Plan.findAt, Pattern.reach]
    cases found : c.pass set least with
    | none => rfl
    | some d =>
      simp only [Option.bind_some]
      split
      · rfl
      · exact PlaceTable.read_make (fun _ _ => rfl) (fun _ _ _ _ => rfl) (h.pass found)
  | fewest set least =>
    simp only [Pattern.plan, Plan.findAt, Pattern.reach]
    cases found : c.pass set least with
    | none => rfl
    | some d => exact PlaceTable.read_make (fun _ _ => rfl) (fun _ _ _ _ => rfl) (h.pass found)
  | edge e => rfl
  | seq p q ihp ihq =>
    simp only [Pattern.plan, Pattern.reach]
    rw [ihp _ h]
    exact p.reach_congr (fun d hd => ihq next hd) h
  | alt p q ihp ihq =>
    have hp := ihp next h
    have hq := ihq next h
    cases found : p.reach next.findAt c with
    | some r =>
      rw [found] at hp
      simp only [Pattern.plan, Plan.findAt, Pattern.reach, hp, found]
    | none =>
      rw [found] at hp
      simp only [Pattern.plan, Plan.findAt, Pattern.reach, hp, hq, found]
  | group index p ih =>
    simp only [Pattern.plan, Plan.findAt, Pattern.reach]
    rw [ih _ h]
    rfl

/-- The search for a pattern finds at a place of its text the match that the pattern has there, unless
    that match covers nothing. -/
theorem Pattern.hitAt_search {t : Text} (p : Pattern) {c : Cursor} (h : c.IsIn t) :
    (p.search t).hitAt c =
      (p.matchAt c).filter fun hit => hit.whole.stop.offset != c.offset := by
  rw [Search.hitAt, Pattern.search, Pattern.findAt_plan p .done h, Pattern.matchAt]
  have ending : (Plan.done).findAt = fun d => some (Trace.done d) := rfl
  rw [ending]
  cases p.reach (fun d => some (Trace.done d)) c with
  | none => rfl
  | some trace =>
    by_cases same : trace.stop.offset = c.offset <;> simp [same, Option.filter]

/-- The match begins, but does not end, where a kept stretch does. -/
theorem Trace.stop_begin (index : Nat) (c : Cursor) (r : Trace) : (r.begin index c).stop = r.stop := by
  simp only [Trace.begin]
  split <;> rfl

/-- Where no character of the text ahead can start the pattern, the pattern passes nothing. -/
theorem Pattern.stop_of_no_start (p : Pattern) {next : Cursor → Option Trace} {c : Cursor} {r : Trace}
    (noStart : ∀ x xs, c.ahead = x :: xs → ∀ set ∈ p.starters, set x = false)
    (found : p.reach next c = some r) :
    p.isSkippable = true ∧ ∃ s, next c = some s ∧ r.stop = s.stop := by
  induction p generalizing next r with
  | literal like cs =>
    cases cs with
    | nil => exact ⟨rfl, r, found, rfl⟩
    | cons y ys =>
      obtain ⟨b, a, o⟩ := c
      cases a with
      | nil => simp [Pattern.reach, Cursor.skip] at found
      | cons x xs =>
        have unlike : like y x = false := noStart x xs rfl _ (by simp [Pattern.starters])
        simp [Pattern.reach, Cursor.skip, unlike] at found
  | one set =>
    obtain ⟨b, a, o⟩ := c
    cases a with
    | nil => simp [Pattern.reach, Cursor.pass] at found
    | cons x xs =>
      have outside : set x = false := noStart x xs rfl _ (by simp [Pattern.starters])
      simp [Pattern.reach, Cursor.pass, outside] at found
  | most set least =>
    obtain ⟨b, a, o⟩ := c
    cases a with
    | nil =>
      cases least with
      | zero => exact ⟨rfl, r, found, rfl⟩
      | succ n => simp [Pattern.reach, Cursor.pass] at found
    | cons x xs =>
      have outside : set x = false := noStart x xs rfl _ (by simp [Pattern.starters])
      cases least with
      | zero =>
        simp only [Pattern.reach, Cursor.pass, Option.bind_some, Cursor.greedy, outside] at found
        exact ⟨rfl, r, found, rfl⟩
      | succ n => simp [Pattern.reach, Cursor.pass, outside] at found
  | fewest set least =>
    obtain ⟨b, a, o⟩ := c
    cases a with
    | nil =>
      cases least with
      | zero => exact ⟨rfl, r, found, rfl⟩
      | succ n => simp [Pattern.reach, Cursor.pass] at found
    | cons x xs =>
      have outside : set x = false := noStart x xs rfl _ (by simp [Pattern.starters])
      cases least with
      | zero =>
        simp only [Pattern.reach, Cursor.pass, Option.bind_some, Cursor.sparing, outside] at found
        split at found
        · rename_i s here
          exact ⟨rfl, s, here, by cases found; rfl⟩
        · cases found
      | succ n => simp [Pattern.reach, Cursor.pass, outside] at found
  | edge e =>
    simp only [Pattern.reach] at found
    split at found
    · exact ⟨rfl, r, found, rfl⟩
    · cases found
  | seq p q ihp ihq =>
    obtain ⟨skip, s, here, stop⟩ :=
      ihp (fun x xs h set hs => noStart x xs h set (List.mem_append_left _ hs)) found
    obtain ⟨skip', s', here', stop'⟩ :=
      ihq (fun x xs h set hs => noStart x xs h set (by simp [Pattern.starters, skip, hs])) here
    exact ⟨by simp [Pattern.isSkippable, skip, skip'], s', here', stop.trans stop'⟩
  | alt p q ihp ihq =>
    simp only [Pattern.reach] at found
    split at found
    · rename_i first
      obtain ⟨skip, rest⟩ :=
        ihp (fun x xs h set hs => noStart x xs h set (List.mem_append_left _ hs)) (first.trans found)
      exact ⟨by simp [Pattern.isSkippable, skip], rest⟩
    · obtain ⟨skip, rest⟩ :=
        ihq (fun x xs h set hs => noStart x xs h set (List.mem_append_right _ hs)) found
      exact ⟨by simp [Pattern.isSkippable, skip], rest⟩
  | group index p ih =>
    obtain ⟨inner, reached, rfl⟩ := Option.map_eq_some_iff.1 found
    obtain ⟨skip, s, here, stop⟩ := ih noStart reached
    obtain ⟨outer, after, rfl⟩ := Option.map_eq_some_iff.1 here
    exact ⟨skip, outer, after, by rw [Trace.stop_begin, stop]; rfl⟩

/-- Where no character of the text ahead can start the pattern, the search has no match. -/
theorem Pattern.hitAt_eq_none {t : Text} (p : Pattern) {c : Cursor} (h : c.IsIn t)
    (noStart : ∀ x xs, c.ahead = x :: xs → (p.search t).mayStart x = false) :
    (p.search t).hitAt c = none := by
  have plan : (p.search t).plan.findAt c = p.reach Plan.done.findAt c := Pattern.findAt_plan p .done h
  rw [Search.hitAt, plan]
  cases found : p.reach Plan.done.findAt c with
  | none => rfl
  | some trace =>
    obtain ⟨_, s, here, stop⟩ := p.stop_of_no_start
      (fun x xs ahead set hs => by
        have all := noStart x xs ahead
        simp only [Search.mayStart, Pattern.search, List.any_eq_false] at all
        simpa using all set hs)
      found
    simp only [Plan.findAt, Option.some.injEq] at here
    simp [stop, ← here, Trace.done]

end SourceAudit

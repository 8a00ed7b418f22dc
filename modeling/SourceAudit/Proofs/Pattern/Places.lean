/-
Module: SourceAudit.Proofs.Pattern.Places
Layer: Proofs
Purpose: What a search does, told by places. A run of characters is a list of places that are tried in
  order of preference; a way through a pattern leads from one place to another; the first match is the
  first hit among the places ahead; and all matches are found by starting anew behind each of them.
Main exports: Cursor.run, Cursor.choices, Pattern.Passes, Pattern.exists_keeps_of_reach,
  Pattern.isSome_reach, Pattern.findFrom_eq, Search.Sweep, Pattern.sweep_findAll, Pattern.occurs_iff
-/
import SourceAudit.Pattern.Agreement
import SourceAudit.Pattern.Build

namespace SourceAudit

namespace Cursor

/-- The places that a run of characters of the set passes, the first one included. -/
def run (set : Char → Bool) (behind : List Char) (offset : Nat) : (ahead : List Char) → List Cursor
  | [] => [⟨behind, [], offset⟩]
  | x :: xs =>
    ⟨behind, x :: xs, offset⟩ :: if set x then run set (x :: behind) (offset + 1) xs else []

theorem greedy_eq_findSome? {α : Type} (set : Char → Bool) (next : Cursor → Option α)
    (b : List Char) (o : Nat) (a : List Char) :
    greedy set next b o a = (run set b o a).reverse.findSome? next := by
  induction a generalizing b o with
  | nil => cases h : next ⟨b, [], o⟩ <;> simp [greedy, run, h]
  | cons x xs ih =>
    cases inside : set x with
    | false => cases h : next ⟨b, x :: xs, o⟩ <;> simp [greedy, run, inside, h]
    | true =>
      rw [greedy, ih]
      cases later : (run set (x :: b) (o + 1) xs).reverse.findSome? next with
      | some r => simp [run, inside, List.findSome?_append, later]
      | none =>
        cases h : next ⟨b, x :: xs, o⟩ <;> simp [run, inside, List.findSome?_append, later, h]

theorem sparing_eq_findSome? {α : Type} (set : Char → Bool) (next : Cursor → Option α)
    (b : List Char) (o : Nat) (a : List Char) :
    sparing set next b o a = (run set b o a).findSome? next := by
  induction a generalizing b o with
  | nil => cases h : next ⟨b, [], o⟩ <;> simp [sparing, run, h]
  | cons x xs ih =>
    rw [sparing, ih, run]
    cases h : next ⟨b, x :: xs, o⟩ with
    | some r => simp [h]
    | none => cases inside : set x <;> simp [h]

/-- The places behind at least `least` characters of the set, the nearest first. -/
def choices (set : Char → Bool) (least : Nat) (c : Cursor) : List Cursor :=
  match c.pass set least with
  | none => []
  | some d => run set d.behind d.offset d.ahead

/-- The place between two parts of a text. -/
def between (p q : Text) : Cursor := ⟨p.reverse, q, p.length⟩

theorem isIn_between (p q : Text) : (between p q).IsIn (p ++ q) :=
  ⟨by simp [between], by simp [between]⟩

theorem IsIn.exists_between {t : Text} {c : Cursor} (h : c.IsIn t) :
    ∃ p q, p ++ q = t ∧ c = between p q := by
  obtain ⟨b, a, o⟩ := c
  obtain ⟨whole, count⟩ := h
  refine ⟨b.reverse, a, whole, ?_⟩
  rw [between, List.reverse_reverse, List.length_reverse]
  congr 1

theorem pass_between (set : Char → Bool) (p q : Text) (x : Char) :
    (between p (x :: q)).pass set 1 = if set x then some (between (p ++ [x]) q) else none := by
  simp only [pass, between, List.reverse_append, List.reverse_singleton, List.singleton_append,
    List.length_append, List.length_singleton]

theorem skip_between (same : Char → Char → Bool) (p q : Text) (x y : Char) (ys : List Char) :
    (between p (x :: q)).skip same (y :: ys) =
      if same y x then (between (p ++ [x]) q).skip same ys else none := by
  simp only [skip, between, List.reverse_append, List.reverse_singleton, List.singleton_append,
    List.length_append, List.length_singleton]

/-- A run over the rest of a text, place by place. -/
theorem choices_between (set : Char → Bool) (p q : Text) (x : Char) :
    (between p (x :: q)).choices set 0 =
      between p (x :: q) :: if set x then (between (p ++ [x]) q).choices set 0 else [] := by
  simp only [choices, pass, between, run, List.reverse_append, List.reverse_singleton,
    List.singleton_append, List.length_append, List.length_singleton]

/-- Every place that a run passes is one of the text, and none lies before its start. -/
theorem IsIn.of_mem_run {t : Text} {set : Char → Bool} {b a : List Char} {o : Nat} {d : Cursor}
    (h : (⟨b, a, o⟩ : Cursor).IsIn t) (mem : d ∈ run set b o a) : d.IsIn t ∧ o ≤ d.offset := by
  induction a generalizing b o with
  | nil =>
    obtain rfl := List.mem_singleton.1 mem
    exact ⟨h, Nat.le_refl _⟩
  | cons x xs ih =>
    rcases List.mem_cons.1 mem with rfl | mem
    · exact ⟨h, Nat.le_refl _⟩
    · split at mem
      · obtain ⟨place, below⟩ := ih h.step mem
        exact ⟨place, Nat.le_of_succ_le below⟩
      · cases mem

theorem offset_pass {set : Char → Bool} {n : Nat} {c d : Cursor} (h : c.pass set n = some d) :
    d.offset = c.offset + n := by
  induction n generalizing c with
  | zero =>
    simp only [pass, Option.some.injEq] at h
    rw [h, Nat.add_zero]
  | succ n ih =>
    obtain ⟨b, a, o⟩ := c
    cases a with
    | nil => simp [pass] at h
    | cons x xs =>
      simp only [pass] at h
      split at h
      · rw [ih h]
        simp only
        omega
      · cases h

theorem offset_skip {same : Char → Char → Bool} {cs : List Char} {c d : Cursor}
    (h : c.skip same cs = some d) : d.offset = c.offset + cs.length := by
  induction cs generalizing c with
  | nil =>
    simp only [skip, Option.some.injEq] at h
    rw [h, List.length_nil, Nat.add_zero]
  | cons y ys ih =>
    obtain ⟨b, a, o⟩ := c
    cases a with
    | nil => simp [skip] at h
    | cons x xs =>
      simp only [skip] at h
      split at h
      · rw [ih h, List.length_cons]
        simp only
        omega
      · cases h

theorem IsIn.of_mem_choices {t : Text} {set : Char → Bool} {least : Nat} {c d : Cursor}
    (h : c.IsIn t) (mem : d ∈ c.choices set least) : d.IsIn t ∧ c.offset + least ≤ d.offset := by
  rw [choices] at mem
  split at mem
  · cases mem
  · rename_i e passed
    obtain ⟨place, below⟩ := (h.pass passed).of_mem_run mem
    exact ⟨place, offset_pass passed ▸ below⟩

/-- A place of a text is known by its offset. -/
theorem IsIn.eq_of_offset {t : Text} {c d : Cursor} (hc : c.IsIn t) (hd : d.IsIn t)
    (same : c.offset = d.offset) : c = d := by
  obtain ⟨cb, ca, co⟩ := c
  obtain ⟨db, da, dof⟩ := d
  obtain ⟨cparts, ccount⟩ := hc
  obtain ⟨dparts, dcount⟩ := hd
  simp only at cparts ccount dparts dcount same
  have lengths : cb.reverse.length = db.reverse.length := by
    rw [List.length_reverse, List.length_reverse]
    omega
  obtain ⟨front, rest⟩ := List.append_inj (cparts.trans dparts.symm) lengths
  rw [List.reverse_inj.1 front, rest, same]

theorem IsIn.offset_le {t : Text} {c : Cursor} (h : c.IsIn t) :
    c.offset + c.ahead.length = t.length := by
  rw [← h.1, h.2, List.length_append, List.length_reverse]

/-- Going on by as many characters as there are ahead at least leads that far. -/
theorem IsIn.advance {t : Text} {c : Cursor} (h : c.IsIn t) {n : Nat} (enough : n ≤ c.ahead.length) :
    (c.advance n).IsIn t ∧ (c.advance n).offset = c.offset + n := by
  induction n generalizing c with
  | zero => exact ⟨h, rfl⟩
  | succ n ih =>
    obtain ⟨b, a, o⟩ := c
    cases a with
    | nil => simp at enough
    | cons x xs =>
      obtain ⟨place, count⟩ := ih h.step (Nat.le_of_succ_le_succ enough)
      refine ⟨place, ?_⟩
      rw [Cursor.advance, count]
      simp only
      omega

/-- A run over all characters passes every place further on. -/
theorem IsIn.mem_run {t : Text} {c d : Cursor} (hc : c.IsIn t) (hd : d.IsIn t)
    (below : c.offset ≤ d.offset) : d ∈ run anyChar c.behind c.offset c.ahead := by
  obtain ⟨b, a, o⟩ := c
  induction a generalizing b o with
  | nil =>
    have hc' := hc.offset_le
    have hd' := hd.offset_le
    simp only [List.length_nil] at hc' below
    exact List.mem_singleton.2 (hd.eq_of_offset hc (by simp only; omega))
  | cons x xs ih =>
    rw [run]
    by_cases same : o = d.offset
    · exact List.mem_cons.2 (.inl (hd.eq_of_offset hc same.symm))
    · refine List.mem_cons_of_mem _ ?_
      rw [if_pos (show anyChar x = true from rfl)]
      exact ih _ _ hc.step (Nat.lt_of_le_of_ne below same)

/-- The second place lies behind the first one by these characters. -/
def Moves (c : Cursor) (cs : List Char) (d : Cursor) : Prop :=
  c.ahead = cs ++ d.ahead ∧ d.behind = cs.reverse ++ c.behind ∧ d.offset = c.offset + cs.length

theorem moves_between (p cs q : Text) : (between p (cs ++ q)).Moves cs (between (p ++ cs) q) :=
  ⟨rfl, List.reverse_append, List.length_append⟩

theorem moves_nil {c d : Cursor} : c.Moves [] d ↔ d = c := by
  obtain ⟨b, a, o⟩ := c
  obtain ⟨b', a', o'⟩ := d
  simp only [Moves, List.nil_append, List.reverse_nil, List.length_nil, Nat.add_zero, mk.injEq]
  constructor
  · rintro ⟨ahead, behind, offset⟩
    exact ⟨behind, ahead.symm, offset⟩
  · rintro ⟨behind, ahead, offset⟩
    exact ⟨ahead.symm, behind, offset⟩

theorem moves_cons {b a : List Char} {o : Nat} {x y : Char} {cs : List Char} {d : Cursor} :
    (⟨b, x :: a, o⟩ : Cursor).Moves (y :: cs) d ↔
      x = y ∧ (⟨x :: b, a, o + 1⟩ : Cursor).Moves cs d := by
  simp only [Moves, List.cons_append, List.cons.injEq, List.reverse_cons, List.append_assoc,
    List.nil_append, List.length_cons, and_assoc, Nat.add_assoc, Nat.add_comm 1]
  constructor
  · rintro ⟨rfl, rest⟩
    exact ⟨rfl, rest⟩
  · rintro ⟨rfl, rest⟩
    exact ⟨rfl, rest⟩

theorem not_moves_cons {b : List Char} {o : Nat} {y : Char} {cs : List Char} {d : Cursor} :
    ¬ (⟨b, [], o⟩ : Cursor).Moves (y :: cs) d := fun h => by cases h.1

theorem Moves.trans {c d e : Cursor} {xs ys : List Char} (h : c.Moves xs d) (h' : d.Moves ys e) :
    c.Moves (xs ++ ys) e := by
  obtain ⟨ahead, behind, offset⟩ := h
  obtain ⟨ahead', behind', offset'⟩ := h'
  refine ⟨?_, ?_, ?_⟩
  · rw [ahead, ahead', List.append_assoc]
  · rw [behind', behind, List.reverse_append, List.append_assoc]
  · rw [offset', offset, List.length_append, Nat.add_assoc]

theorem Moves.split {c d : Cursor} {xs ys : List Char} (h : c.Moves (xs ++ ys) d) :
    ∃ e, c.Moves xs e ∧ e.Moves ys d := by
  obtain ⟨ahead, behind, offset⟩ := h
  rw [List.append_assoc] at ahead
  rw [List.reverse_append, List.append_assoc] at behind
  rw [List.length_append, ← Nat.add_assoc] at offset
  exact ⟨⟨xs.reverse ++ c.behind, ys ++ d.ahead, c.offset + xs.length⟩, ⟨ahead, rfl, rfl⟩,
    rfl, behind, offset⟩

/-- The characters between two places. -/
theorem Moves.chars {c d : Cursor} {cs : List Char} (h : c.Moves cs d) :
    Span.chars ⟨c, d⟩ = cs := by
  simp [Span.chars, Span.length, h.1, h.2.2]

theorem Moves.isIn {t : Text} {c d : Cursor} {cs : List Char} (h : c.Moves cs d) (place : c.IsIn t) :
    d.IsIn t := by
  obtain ⟨ahead, behind, offset⟩ := h
  obtain ⟨parts, count⟩ := place
  refine ⟨?_, ?_⟩
  · rw [behind, ← parts, ahead]
    simp
  · rw [offset, behind, count]
    simp [Nat.add_comm]

theorem skip_eq_some_iff {cs : List Char} {c d : Cursor} :
    c.skip (· == ·) cs = some d ↔ c.Moves cs d := by
  induction cs generalizing c with
  | nil => rw [moves_nil, skip, Option.some.injEq, eq_comm]
  | cons y ys ih =>
    obtain ⟨b, a, o⟩ := c
    cases a with
    | nil => simp [skip, not_moves_cons]
    | cons x xs =>
      rw [skip, moves_cons]
      simp only [beq_iff_eq]
      split
      · rename_i same
        rw [ih, and_iff_right same.symm]
      · rename_i differ
        simp [Ne.symm differ]

theorem mem_run_iff {set : Char → Bool} {b a : List Char} {o : Nat} {d : Cursor} :
    d ∈ run set b o a ↔ ∃ cs, (∀ x ∈ cs, set x = true) ∧ (⟨b, a, o⟩ : Cursor).Moves cs d := by
  induction a generalizing b o with
  | nil =>
    rw [run, List.mem_singleton]
    constructor
    · intro here
      exact ⟨[], by simp, moves_nil.2 here⟩
    · rintro ⟨cs, -, moves⟩
      cases cs with
      | nil => exact moves_nil.1 moves
      | cons y ys => exact absurd moves not_moves_cons
  | cons x xs ih =>
    rw [run, List.mem_cons]
    constructor
    · rintro (here | later)
      · exact ⟨[], by simp, moves_nil.2 here⟩
      · split at later
        · rename_i inside
          obtain ⟨cs, all, moves⟩ := ih.1 later
          exact ⟨x :: cs, List.forall_mem_cons.2 ⟨inside, all⟩, moves_cons.2 ⟨rfl, moves⟩⟩
        · cases later
    · rintro ⟨cs, all, moves⟩
      cases cs with
      | nil => exact .inl (moves_nil.1 moves)
      | cons y ys =>
        obtain ⟨rfl, onward⟩ := moves_cons.1 moves
        obtain ⟨inside, others⟩ := List.forall_mem_cons.1 all
        rw [if_pos inside]
        exact .inr (ih.2 ⟨ys, others, onward⟩)

theorem pass_eq_some_iff {set : Char → Bool} {n : Nat} {c d : Cursor} :
    c.pass set n = some d ↔
      ∃ cs, cs.length = n ∧ (∀ x ∈ cs, set x = true) ∧ c.Moves cs d := by
  induction n generalizing c with
  | zero =>
    rw [pass, Option.some.injEq]
    constructor
    · intro here
      exact ⟨[], rfl, by simp, moves_nil.2 here.symm⟩
    · rintro ⟨cs, none, -, moves⟩
      obtain rfl := List.eq_nil_of_length_eq_zero none
      exact (moves_nil.1 moves).symm
  | succ n ih =>
    obtain ⟨b, a, o⟩ := c
    cases a with
    | nil =>
      simp only [pass, reduceCtorEq, false_iff]
      rintro ⟨cs, count, -, moves⟩
      cases cs with
      | nil => cases count
      | cons y ys => exact not_moves_cons moves
    | cons x xs =>
      simp only [pass]
      constructor
      · intro passed
        split at passed
        · rename_i inside
          obtain ⟨cs, count, all, moves⟩ := ih.1 passed
          exact ⟨x :: cs, by rw [List.length_cons, count], List.forall_mem_cons.2 ⟨inside, all⟩,
            moves_cons.2 ⟨rfl, moves⟩⟩
        · cases passed
      · rintro ⟨cs, count, all, moves⟩
        cases cs with
        | nil => cases count
        | cons y ys =>
          obtain ⟨rfl, onward⟩ := moves_cons.1 moves
          obtain ⟨inside, others⟩ := List.forall_mem_cons.1 all
          rw [if_pos inside]
          exact ih.2 ⟨ys, Nat.succ.inj count, others, onward⟩

/-- The choices of a run are the places behind long enough stretches of the set. -/
theorem mem_choices_iff {set : Char → Bool} {least : Nat} {c d : Cursor} :
    d ∈ c.choices set least ↔
      ∃ cs, least ≤ cs.length ∧ (∀ x ∈ cs, set x = true) ∧ c.Moves cs d := by
  rw [choices]
  constructor
  · intro mem
    split at mem
    · cases mem
    · rename_i e passed
      obtain ⟨xs, count, all, moves⟩ := pass_eq_some_iff.1 passed
      obtain ⟨ys, all', moves'⟩ := mem_run_iff.1 mem
      refine ⟨xs ++ ys, by rw [List.length_append]; omega, ?_, moves.trans moves'⟩
      intro x hx
      exact (List.mem_append.1 hx).elim (all x) (all' x)
  · rintro ⟨cs, enough, all, moves⟩
    rw [← List.take_append_drop least cs] at moves all
    obtain ⟨e, first, second⟩ := moves.split
    have passed : c.pass set least = some e := by
      refine pass_eq_some_iff.2 ⟨_, List.length_take_of_le enough, ?_, first⟩
      exact fun x hx => all x (List.mem_append_left _ hx)
    rw [passed]
    exact mem_run_iff.2 ⟨_, fun x hx => all x (List.mem_append_right _ hx), second⟩

end Cursor

namespace Pattern

theorem reach_most (set : Char → Bool) (least : Nat) (next : Cursor → Option Trace) (c : Cursor) :
    (most set least).reach next c = (c.choices set least).reverse.findSome? next := by
  rw [reach, Cursor.choices]
  cases c.pass set least with
  | none => rfl
  | some d => exact Cursor.greedy_eq_findSome? set next d.behind d.offset d.ahead

theorem reach_fewest (set : Char → Bool) (least : Nat) (next : Cursor → Option Trace) (c : Cursor) :
    (fewest set least).reach next c = (c.choices set least).findSome? next := by
  rw [reach, Cursor.choices]
  cases c.pass set least with
  | none => rfl
  | some d => exact Cursor.sparing_eq_findSome? set next d.behind d.offset d.ahead

/-- The pattern has a way from one place to another. -/
def Passes : Pattern → (c d : Cursor) → Prop
  | .literal same cs, c, d => c.skip same cs = some d
  | .one set, c, d => c.pass set 1 = some d
  | .most set least, c, d => d ∈ c.choices set least
  | .fewest set least, c, d => d ∈ c.choices set least
  | .edge e, c, d => e.holds c = true ∧ d = c
  | .seq p q, c, d => ∃ m, p.Passes c m ∧ q.Passes m d
  | .alt p q, c, d => p.Passes c d ∨ q.Passes c d
  | .group _ p, c, d => p.Passes c d

/-- The pattern has a way from one place to another on which it keeps these stretches. -/
def Keeps : Pattern → (c d : Cursor) → (kept : Groups) → Prop
  | .seq p q, c, d, kept => ∃ m first second, p.Keeps c m first ∧ q.Keeps m d second ∧
      kept = first ++ second
  | .alt p q, c, d, kept => p.Keeps c d kept ∨ q.Keeps c d kept
  | .group index p, c, d, kept => ∃ inner, p.Keeps c d inner ∧ kept = (index, ⟨c, d⟩) :: inner
  | p, c, d, kept => p.Passes c d ∧ kept = []

theorem Keeps.passes {p : Pattern} {c d : Cursor} {kept : Groups} (h : p.Keeps c d kept) :
    p.Passes c d := by
  induction p generalizing c d kept with
  | literal | one | most | fewest | edge => exact h.1
  | seq p q ihp ihq =>
    obtain ⟨m, first, second, way, way', -⟩ := h
    exact ⟨m, ihp way, ihq way'⟩
  | alt p q ihp ihq => exact h.imp ihp ihq
  | group index p ih =>
    obtain ⟨inner, way, -⟩ := h
    exact ih way

/-- What is found at a place is found by a way through the pattern. -/
theorem exists_keeps_of_reach (p : Pattern) {next : Cursor → Option Trace} {c : Cursor} {r : Trace}
    (found : p.reach next c = some r) :
    ∃ d kept s, p.Keeps c d kept ∧ next d = some s ∧
      r = { s with groups := kept ++ s.groups } := by
  induction p generalizing next c r with
  | literal same cs =>
    obtain ⟨d, skipped, there⟩ := Option.bind_eq_some_iff.1 found
    exact ⟨d, [], r, ⟨skipped, rfl⟩, there, rfl⟩
  | one set =>
    obtain ⟨d, passed, there⟩ := Option.bind_eq_some_iff.1 found
    exact ⟨d, [], r, ⟨passed, rfl⟩, there, rfl⟩
  | most set least =>
    rw [reach_most] at found
    obtain ⟨d, mem, there⟩ := List.exists_of_findSome?_eq_some found
    exact ⟨d, [], r, ⟨List.mem_reverse.1 mem, rfl⟩, there, rfl⟩
  | fewest set least =>
    rw [reach_fewest] at found
    obtain ⟨d, mem, there⟩ := List.exists_of_findSome?_eq_some found
    exact ⟨d, [], r, ⟨mem, rfl⟩, there, rfl⟩
  | edge e =>
    rw [reach] at found
    split at found
    · rename_i holds
      exact ⟨c, [], r, ⟨⟨holds, rfl⟩, rfl⟩, found, rfl⟩
    · cases found
  | seq p q ihp ihq =>
    obtain ⟨m, first, s, way, there, rfl⟩ := ihp found
    obtain ⟨d, second, s', way', there', rfl⟩ := ihq there
    exact ⟨d, _, s', ⟨m, first, second, way, way', rfl⟩, there', by simp⟩
  | alt p q ihp ihq =>
    rw [reach] at found
    split at found
    · rename_i first
      obtain ⟨d, kept, s, way, rest⟩ := ihp (first.trans found)
      exact ⟨d, kept, s, .inl way, rest⟩
    · obtain ⟨d, kept, s, way, rest⟩ := ihq found
      exact ⟨d, kept, s, .inr way, rest⟩
  | group index p ih =>
    obtain ⟨inner, reached, rfl⟩ := Option.map_eq_some_iff.1 found
    obtain ⟨d, kept, s, way, there, rfl⟩ := ih reached
    obtain ⟨outer, after, rfl⟩ := Option.map_eq_some_iff.1 there
    exact ⟨d, _, outer, ⟨kept, way, rfl⟩, after, rfl⟩

/-- The parts of a pattern that it keeps under a number. -/
def bodies (index : Nat) : Pattern → List Pattern
  | .seq p q | .alt p q => p.bodies index ++ q.bodies index
  | .group i p => if i = index then p :: p.bodies index else p.bodies index
  | _ => []

/-- A stretch that is kept is passed by the part it is kept for. -/
theorem Keeps.exists_passes {p : Pattern} {c d : Cursor} {kept : Groups} (h : p.Keeps c d kept)
    {index : Nat} {s : Span} (mem : (index, s) ∈ kept) :
    ∃ q ∈ p.bodies index, q.Passes s.start s.stop := by
  induction p generalizing c d kept with
  | literal | one | most | fewest | edge =>
    obtain ⟨-, rfl⟩ := h
    cases mem
  | seq p q ihp ihq =>
    obtain ⟨m, first, second, way, way', rfl⟩ := h
    rcases List.mem_append.1 mem with mem | mem
    · obtain ⟨body, inside, passed⟩ := ihp way mem
      exact ⟨body, List.mem_append_left _ inside, passed⟩
    · obtain ⟨body, inside, passed⟩ := ihq way' mem
      exact ⟨body, List.mem_append_right _ inside, passed⟩
  | alt p q ihp ihq =>
    rcases h with way | way
    · obtain ⟨body, inside, passed⟩ := ihp way mem
      exact ⟨body, List.mem_append_left _ inside, passed⟩
    · obtain ⟨body, inside, passed⟩ := ihq way mem
      exact ⟨body, List.mem_append_right _ inside, passed⟩
  | group i p ih =>
    obtain ⟨inner, way, rfl⟩ := h
    rw [bodies]
    rcases List.mem_cons.1 mem with here | mem
    · obtain ⟨rfl, rfl⟩ := Prod.mk.inj here
      exact ⟨p, by simp, way.passes⟩
    · obtain ⟨body, inside, passed⟩ := ih way mem
      refine ⟨body, ?_, passed⟩
      split
      · exact List.mem_cons_of_mem _ inside
      · exact inside

/-- Whether every way through a pattern keeps something under a number. -/
def surelyKeeps (index : Nat) : Pattern → Bool
  | .seq p q => p.surelyKeeps index || q.surelyKeeps index
  | .alt p q => p.surelyKeeps index && q.surelyKeeps index
  | .group i p => i == index || p.surelyKeeps index
  | _ => false

theorem Keeps.exists_mem {p : Pattern} {c d : Cursor} {kept : Groups} (h : p.Keeps c d kept)
    {index : Nat} (sure : p.surelyKeeps index = true) : ∃ s, (index, s) ∈ kept := by
  induction p generalizing c d kept with
  | literal | one | most | fewest | edge => cases sure
  | seq p q ihp ihq =>
    obtain ⟨m, first, second, way, way', rfl⟩ := h
    rcases (Bool.or_eq_true _ _).mp sure with sure | sure
    · obtain ⟨s, mem⟩ := ihp way sure
      exact ⟨s, List.mem_append_left _ mem⟩
    · obtain ⟨s, mem⟩ := ihq way' sure
      exact ⟨s, List.mem_append_right _ mem⟩
  | alt p q ihp ihq =>
    obtain ⟨left, right⟩ := (Bool.and_eq_true _ _).mp sure
    exact h.elim (ihp · left) (ihq · right)
  | group i p ih =>
    obtain ⟨inner, way, rfl⟩ := h
    rcases (Bool.or_eq_true _ _).mp sure with here | sure
    · exact ⟨⟨c, d⟩, by simp [beq_iff_eq.1 here]⟩
    · obtain ⟨s, mem⟩ := ih way sure
      exact ⟨s, List.mem_cons_of_mem _ mem⟩

/-- A way through the pattern to a place where the rest is found lets something be found. -/
theorem isSome_reach (p : Pattern) {next : Cursor → Option Trace} {c d : Cursor}
    (way : p.Passes c d) (there : (next d).isSome = true) : (p.reach next c).isSome = true := by
  induction p generalizing next c d with
  | literal same cs =>
    rw [reach, show c.skip same cs = some d from way]
    exact there
  | one set =>
    rw [reach, show c.pass set 1 = some d from way]
    exact there
  | most set least =>
    rw [reach_most, List.findSome?_isSome_iff]
    exact ⟨d, List.mem_reverse.2 way, there⟩
  | fewest set least =>
    rw [reach_fewest, List.findSome?_isSome_iff]
    exact ⟨d, way, there⟩
  | edge e =>
    obtain ⟨holds, rfl⟩ := way
    rw [reach, if_pos holds]
    exact there
  | seq p q ihp ihq =>
    obtain ⟨m, first, second⟩ := way
    exact ihp first (ihq second there)
  | alt p q ihp ihq =>
    rw [reach]
    cases first : p.reach next c with
    | some r => rfl
    | none =>
      rcases way with way | way
      · simpa [first] using ihp way there
      · exact ihq way there
  | group index p ih =>
    rw [reach, Option.isSome_map]
    exact ih way (by rw [Option.isSome_map]; exact there)

/-- Where nothing is found although the rest is found everywhere, the pattern has no way. -/
theorem not_passes_of_reach_eq_none {p : Pattern} {next : Cursor → Option Trace} {c : Cursor}
    (everywhere : ∀ d, (next d).isSome = true) (stuck : p.reach next c = none) (d : Cursor) :
    ¬ p.Passes c d := by
  intro way
  have found := p.isSome_reach way (everywhere d)
  rw [stuck] at found
  cases found

/-- A way through a pattern stays in the text and does not go back; it goes on unless the pattern may
    pass nothing. -/
theorem Passes.isIn {t : Text} {p : Pattern} {c d : Cursor} (way : p.Passes c d) (h : c.IsIn t) :
    d.IsIn t ∧ c.offset ≤ d.offset ∧ (p.isSkippable = false → c.offset < d.offset) := by
  induction p generalizing c d with
  | literal same cs =>
    have count := Cursor.offset_skip way
    refine ⟨h.skip way, by omega, fun some => ?_⟩
    cases cs with
    | nil => simp [isSkippable] at some
    | cons y ys =>
      rw [List.length_cons] at count
      omega
  | one set =>
    have count := Cursor.offset_pass way
    exact ⟨h.pass way, by omega, fun _ => by omega⟩
  | most set least | fewest set least =>
    obtain ⟨place, below⟩ := h.of_mem_choices way
    refine ⟨place, by omega, fun some => ?_⟩
    simp only [isSkippable, beq_eq_false_iff_ne] at some
    omega
  | edge e =>
    obtain ⟨-, rfl⟩ := way
    exact ⟨h, Nat.le_refl _, fun some => by simp [isSkippable] at some⟩
  | seq p q ihp ihq =>
    obtain ⟨m, first, second⟩ := way
    obtain ⟨place, below, less⟩ := ihp first h
    obtain ⟨place', below', less'⟩ := ihq second place
    refine ⟨place', by omega, fun some => ?_⟩
    simp only [isSkippable, Bool.and_eq_false_iff] at some
    rcases some with some | some
    · have := less some
      omega
    · have := less' some
      omega
  | alt p q ihp ihq =>
    rcases way with way | way
    · obtain ⟨place, below, less⟩ := ihp way h
      exact ⟨place, below, fun some => less (by simp_all [isSkippable])⟩
    · obtain ⟨place, below, less⟩ := ihq way h
      exact ⟨place, below, fun some => less (by simp_all [isSkippable])⟩
  | group index p ih => exact ih way h

/-- What a hit says about its place: it starts there, and it stops at the end of a way through the
    pattern, further on in the text. -/
theorem hitAt_eq_some {t : Text} (p : Pattern) {c : Cursor} (h : c.IsIn t) {hit : Hit}
    (found : (p.search t).hitAt c = some hit) :
    hit.whole.start = c ∧ p.Keeps c hit.whole.stop hit.groups ∧ hit.whole.stop.IsIn t ∧
      c.offset < hit.whole.stop.offset := by
  rw [hitAt_search p h, Option.filter_eq_some_iff] at found
  obtain ⟨matched, moved⟩ := found
  obtain ⟨r, reached, rfl⟩ := Option.map_eq_some_iff.1 matched
  obtain ⟨d, kept, s, way, there, rfl⟩ := p.exists_keeps_of_reach reached
  obtain rfl : s = Trace.done d := by simpa using there.symm
  obtain ⟨place, below, -⟩ := way.passes.isIn h
  have apart : d.offset ≠ c.offset := by simpa [Trace.done] using moved
  refine ⟨rfl, by simpa [Trace.done] using way, place, ?_⟩
  change c.offset < d.offset
  omega

/-- The first match at or after a place is the first hit among the places from there on. -/
theorem findFrom_eq (p : Pattern) {t : Text} {c : Cursor} (h : c.IsIn t) :
    (p.search t).findFrom c =
      (Cursor.run anyChar c.behind c.offset c.ahead).findSome? (p.search t).hitAt := by
  obtain ⟨b, a, o⟩ := c
  rw [Search.findFrom]
  induction a generalizing b o with
  | nil => simp [Search.seek, Cursor.run, p.hitAt_eq_none h (by simp)]
  | cons x xs ih =>
    have here : (if (p.search t).mayStart x then (p.search t).hitAt ⟨b, x :: xs, o⟩ else none) =
        (p.search t).hitAt ⟨b, x :: xs, o⟩ := by
      split
      · rfl
      · rename_i start
        refine (p.hitAt_eq_none h fun y ys ahead => ?_).symm
        cases ahead
        simpa using start
    rw [Search.seek, here, ih _ _ h.step, Cursor.run, List.findSome?_cons]
    cases (p.search t).hitAt ⟨b, x :: xs, o⟩ <;> rfl

/-- Where the first match from a place on lies. -/
theorem findFrom_eq_some (p : Pattern) {t : Text} {c : Cursor} (h : c.IsIn t) {hit : Hit}
    (found : (p.search t).findFrom c = some hit) :
    hit.whole.start.IsIn t ∧ c.offset ≤ hit.whole.start.offset ∧
      p.Keeps hit.whole.start hit.whole.stop hit.groups ∧ hit.whole.stop.IsIn t ∧
      hit.whole.start.offset < hit.whole.stop.offset := by
  rw [findFrom_eq p h] at found
  obtain ⟨d, mem, there⟩ := List.exists_of_findSome?_eq_some found
  obtain ⟨place, below⟩ := h.of_mem_run mem
  obtain ⟨rfl, way, stop, less⟩ := p.hitAt_eq_some place there
  exact ⟨place, below, way, stop, less⟩

/-- A pattern that cannot pass nothing has a hit wherever it has a match. -/
theorem hitAt_eq_matchAt {p : Pattern} (some : p.isSkippable = false) {t : Text} {c : Cursor}
    (h : c.IsIn t) : (p.search t).hitAt c = p.matchAt c := by
  rw [hitAt_search p h]
  cases matched : p.matchAt c with
  | none => rfl
  | some hit =>
    obtain ⟨r, reached, rfl⟩ := Option.map_eq_some_iff.1 matched
    obtain ⟨d, kept, s, way, there, rfl⟩ := p.exists_keeps_of_reach reached
    obtain rfl : s = Trace.done d := by simpa using there.symm
    have less := (way.passes.isIn h).2.2 some
    have apart : d.offset ≠ c.offset := by omega
    simp [Option.filter, Trace.done, apart]

/-- A pattern that cannot pass nothing occurs exactly if it has a way somewhere in the text. -/
theorem occurs_iff {p : Pattern} (some : p.isSkippable = false) (t : Text) :
    p.occurs t = true ↔ ∃ c d, c.IsIn t ∧ p.Passes c d := by
  have start := Cursor.isIn_start t
  have first : p.find t = (p.search t).findFrom (.start t) := rfl
  rw [occurs, first]
  constructor
  · intro found
    obtain ⟨hit, found⟩ := Option.isSome_iff_exists.1 found
    obtain ⟨place, -, way, -, -⟩ := p.findFrom_eq_some start found
    exact ⟨_, _, place, way.passes⟩
  · rintro ⟨c, d, place, way⟩
    rw [findFrom_eq p start, List.findSome?_isSome_iff]
    refine ⟨c, start.mem_run place (Nat.zero_le _), ?_⟩
    rw [hitAt_eq_matchAt some place, matchAt, Option.isSome_map]
    exact p.isSome_reach way rfl

/-- A literal occurs exactly where it is a stretch of the text. -/
theorem occurs_chars {cs : Text} (some : cs ≠ []) (t : Text) :
    (chars cs).occurs t = true ↔ cs <:+: t := by
  have moves : (chars cs).isSkippable = false := by
    cases cs with
    | nil => exact absurd rfl some
    | cons c cs => rfl
  rw [occurs_iff moves]
  constructor
  · rintro ⟨c, d, place, way⟩
    obtain ⟨ahead, -, -⟩ := Cursor.skip_eq_some_iff.1 way
    refine ⟨c.behind.reverse, d.ahead, ?_⟩
    rw [List.append_assoc, ← ahead]
    exact place.1
  · rintro ⟨a, b, rfl⟩
    refine ⟨.between a (cs ++ b), .between (a ++ cs) b, ?_, ?_⟩
    · simpa using Cursor.isIn_between a (cs ++ b)
    · exact Cursor.skip_eq_some_iff.2 (Cursor.moves_between a cs b)

end Pattern

namespace Search

/-- The matches from a place on: the first one, and then those from its end on. -/
inductive Sweep (s : Search) : (c : Cursor) → List Hit → Prop where
  | last {c : Cursor} (none : s.findFrom c = none) : Sweep s c []
  | next {c : Cursor} {hit : Hit} {hits : List Hit} (first : s.findFrom c = some hit)
      (later : Sweep s hit.whole.stop hits) : Sweep s c (hit :: hits)

theorem Sweep.of_findFrom_eq {s : Search} {c d : Cursor} {hits : List Hit} (h : s.Sweep c hits)
    (same : s.findFrom d = s.findFrom c) : s.Sweep d hits := by
  cases h with
  | last none => exact .last (same.trans none)
  | next first later => exact .next (same.trans first) later

end Search

/-- The scan over a text takes the matches one after the other. It may still have to pass over `skip`
    characters of the match before. -/
theorem Pattern.exists_sweep_scan (p : Pattern) {t : Text} (found : List Hit) {b a : List Char}
    {o skip : Nat} (h : (⟨b, a, o⟩ : Cursor).IsIn t) (enough : skip ≤ a.length) :
    ∃ hits, (p.search t).Sweep ((⟨b, a, o⟩ : Cursor).advance skip) hits ∧
      (p.search t).scan found b o skip a = found.reverse ++ hits := by
  induction a generalizing b o skip found with
  | nil =>
    obtain rfl : skip = 0 := by simpa using enough
    exact ⟨[], .last rfl, by simp [Search.scan]⟩
  | cons x xs ih =>
    cases skip with
    | succ skip => exact ih found h.step (Nat.le_of_succ_le_succ enough)
    | zero =>
      have seek : (p.search t).findFrom ⟨b, x :: xs, o⟩ =
          (if (p.search t).mayStart x then (p.search t).hitAt ⟨b, x :: xs, o⟩ else none).or
            ((p.search t).findFrom ⟨x :: b, xs, o + 1⟩) := by
        rw [Search.findFrom, Search.seek]
        cases (if (p.search t).mayStart x then (p.search t).hitAt ⟨b, x :: xs, o⟩ else none) <;> rfl
      rw [Search.scan]
      cases here : (if (p.search t).mayStart x then (p.search t).hitAt ⟨b, x :: xs, o⟩ else none) with
      | none =>
        obtain ⟨hits, sweep, scan⟩ := ih found h.step (Nat.zero_le _)
        rw [here] at seek
        exact ⟨hits, sweep.of_findFrom_eq seek, scan⟩
      | some hit =>
        have hitHere : (p.search t).hitAt ⟨b, x :: xs, o⟩ = some hit := by
          split at here
          · exact here
          · cases here
        obtain ⟨start, -, stop, less⟩ := p.hitAt_eq_some h hitHere
        have whole := h.offset_le
        have ending := stop.offset_le
        simp only [List.length_cons] at whole less
        have count : hit.whole.length = hit.whole.stop.offset - o := by rw [Span.length, start]
        obtain ⟨hits, sweep, scan⟩ :=
          ih (hit :: found) h.step (show hit.whole.length - 1 ≤ xs.length by omega)
        obtain ⟨place, offset⟩ :=
          h.step.advance (show hit.whole.length - 1 ≤ xs.length by omega)
        have there : (⟨x :: b, xs, o + 1⟩ : Cursor).advance (hit.whole.length - 1) =
            hit.whole.stop := place.eq_of_offset stop (by rw [offset]; simp only; omega)
        rw [there] at sweep
        rw [here] at seek
        exact ⟨hit :: hits, .next seek sweep, by simp [scan]⟩

/-- All matches of a pattern are found by starting anew behind each of them. -/
theorem Pattern.sweep_findAll (p : Pattern) (t : Text) :
    (p.search t).Sweep (.start t) (p.findAll t) := by
  obtain ⟨hits, sweep, scan⟩ :=
    p.exists_sweep_scan [] (Cursor.isIn_start t) (Nat.zero_le _)
  have all : p.findAll t = hits := scan
  rw [all]
  exact sweep

theorem Pattern.find_eq_head? (p : Pattern) (t : Text) : p.find t = (p.findAll t).head? := by
  have start : p.find t = (p.search t).findFrom (.start t) := rfl
  have sweep := p.sweep_findAll t
  rw [start]
  generalize p.findAll t = hits at sweep
  cases sweep with
  | last none => exact none
  | next some later => exact some

/-- Every match lies in the text and covers a way through the pattern. -/
theorem Pattern.keeps_of_mem_findAll (p : Pattern) {t : Text} {hit : Hit} (mem : hit ∈ p.findAll t) :
    p.Keeps hit.whole.start hit.whole.stop hit.groups ∧ hit.whole.start.IsIn t := by
  have all : ∀ {c hits}, (p.search t).Sweep c hits → c.IsIn t → hit ∈ hits →
      p.Keeps hit.whole.start hit.whole.stop hit.groups ∧ hit.whole.start.IsIn t := by
    intro c hits sweep
    induction sweep with
    | last => exact fun _ mem => nomatch mem
    | next first later ih =>
      intro place mem
      obtain ⟨start, -, way, stop, -⟩ := p.findFrom_eq_some place first
      rcases List.mem_cons.1 mem with rfl | mem
      · exact ⟨way, start⟩
      · exact ih stop mem
  exact all (p.sweep_findAll t) (Cursor.isIn_start t) mem

theorem Pattern.passes_of_mem_findAll (p : Pattern) {t : Text} {hit : Hit}
    (mem : hit ∈ p.findAll t) : p.Passes hit.whole.start hit.whole.stop :=
  (p.keeps_of_mem_findAll mem).1.passes

theorem Hit.mem_groups_of_group? {hit : Hit} {index : Nat} {s : Span}
    (found : hit.group? index = some s) : (index, s) ∈ hit.groups := by
  obtain ⟨before, after, split, -⟩ := List.lookup_eq_some_iff.1 found
  rw [split]
  exact List.mem_append_right _ List.mem_cons_self

/-- The characters kept under a number are those of a stretch that a part kept there passes. -/
theorem Pattern.Keeps.groupChars {p : Pattern} {c d : Cursor} {hit : Hit}
    (way : p.Keeps c d hit.groups) (index : Nat) : hit.groupChars index = [] ∨
      ∃ s : Span, ∃ q ∈ p.bodies index, q.Passes s.start s.stop ∧ hit.groupChars index = s.chars := by
  rw [Hit.groupChars]
  cases found : hit.group? index with
  | none => exact .inl rfl
  | some s =>
    obtain ⟨q, body, way⟩ := way.exists_passes (Hit.mem_groups_of_group? found)
    exact .inr ⟨s, q, body, way, rfl⟩

theorem Pattern.passes_of_groupChars {p : Pattern} {t : Text} {hit : Hit} (mem : hit ∈ p.findAll t)
    (index : Nat) : hit.groupChars index = [] ∨
      ∃ s : Span, ∃ q ∈ p.bodies index, q.Passes s.start s.stop ∧ hit.groupChars index = s.chars :=
  (p.keeps_of_mem_findAll mem).1.groupChars index

/-- What a name is kept for is made of word characters. -/
theorem Pattern.isWordChar_of_mem_groupChars {p : Pattern} {index : Nat}
    (bodies : p.bodies index = [Pattern.name]) {t : Text} {hit : Hit} (mem : hit ∈ p.findAll t) :
    ∀ c ∈ hit.groupChars index, isWordChar c = true := by
  rcases passes_of_groupChars mem index with empty | ⟨s, q, body, way, written⟩
  · simp [empty]
  · rw [bodies, List.mem_singleton] at body
    subst body
    obtain ⟨cs, -, all, moves⟩ := Cursor.mem_choices_iff.1 way
    have chars : s.chars = cs := moves.chars
    rw [written, chars]
    exact all

/-- What is surely kept under a number is passed by a part kept there. -/
theorem Pattern.exists_passes_of_surelyKeeps {p : Pattern} {t : Text} {hit : Hit} (mem : hit ∈ p.findAll t)
    {index : Nat} (sure : p.surelyKeeps index = true) :
    ∃ s : Span, ∃ q ∈ p.bodies index, q.Passes s.start s.stop ∧ hit.groupChars index = s.chars := by
  have way := (p.keeps_of_mem_findAll mem).1
  rw [Hit.groupChars]
  cases found : hit.group? index with
  | none =>
    obtain ⟨s, kept⟩ := way.exists_mem sure
    have other := List.lookup_eq_none_iff.1 found _ kept
    simp at other
  | some s =>
    obtain ⟨q, body, way⟩ := way.exists_passes (Hit.mem_groups_of_group? found)
    exact ⟨s, q, body, way, rfl⟩

end SourceAudit

/-
Module: SourceAudit.Proofs.Pattern.Edits
Layer: Proofs
Purpose: Replacement of all matches, told character by character. Where the pattern has no match, one
  character is passed and stays; where it has one, the match is passed and something else put in its
  place. What is left of a pattern in an edited text is shown by induction along this reading.
Main exports: Pattern.matchAt_eq_none_iff, Pattern.keeps_of_matchAt, Pattern.findAll_ne_nil_iff,
  Pattern.Edits, Pattern.edits_replaceAll
-/
import SourceAudit.Proofs.Pattern.Places

namespace SourceAudit

namespace Pattern

theorem matchAt_eq_none_iff (p : Pattern) (c : Cursor) :
    p.matchAt c = none ↔ ∀ d, ¬ p.Passes c d := by
  constructor
  · intro none
    exact not_passes_of_reach_eq_none (fun _ => rfl) (Option.map_eq_none_iff.1 none)
  · intro stuck
    cases found : p.matchAt c with
    | none => rfl
    | some hit =>
      obtain ⟨r, reached, -⟩ := Option.map_eq_some_iff.1 found
      obtain ⟨d, kept, s, way, -, -⟩ := p.exists_keeps_of_reach reached
      exact absurd way.passes (stuck d)

/-- A match starts at its place and covers a way through the pattern. -/
theorem keeps_of_matchAt {p : Pattern} {c : Cursor} {hit : Hit} (found : p.matchAt c = some hit) :
    hit.whole.start = c ∧ p.Keeps c hit.whole.stop hit.groups := by
  obtain ⟨r, reached, rfl⟩ := Option.map_eq_some_iff.1 found
  obtain ⟨d, kept, s, way, there, rfl⟩ := p.exists_keeps_of_reach reached
  obtain rfl : s = Trace.done d := by simpa using there.symm
  refine ⟨rfl, ?_⟩
  simpa [Trace.done] using way

/-- There are matches exactly if there is a first one. -/
theorem findAll_ne_nil_iff (p : Pattern) (t : Text) : p.findAll t ≠ [] ↔ p.occurs t = true := by
  have sweep := p.sweep_findAll t
  have first : p.find t = (p.search t).findFrom (.start t) := rfl
  rw [occurs, first]
  cases found : p.findAll t with
  | nil =>
    rw [found] at sweep
    cases sweep with
    | last none => simp [none]
  | cons hit hits =>
    rw [found] at sweep
    cases sweep with
    | next some later => simp [some]

/-- Reading on from a place: these are the matches, and this is the text when each of them is replaced. -/
inductive Edits (p : Pattern) (new : Hit → Text) : (c : Cursor) → List Hit → Text → Prop where
  /-- Nothing is left to be read. -/
  | done {b : List Char} {o : Nat} : Edits p new ⟨b, [], o⟩ [] []
  /-- A character where no match starts stays. -/
  | pass {b a : List Char} {o : Nat} {x : Char} {hits : List Hit} {after : Text}
      (none : p.matchAt ⟨b, x :: a, o⟩ = none)
      (rest : Edits p new ⟨x :: b, a, o + 1⟩ hits after) :
      Edits p new ⟨b, x :: a, o⟩ hits (x :: after)
  /-- A match is replaced. -/
  | swap {c : Cursor} {hit : Hit} {hits : List Hit} {after : Text} (found : p.matchAt c = some hit)
      (rest : Edits p new hit.whole.stop hits after) : Edits p new c (hit :: hits) (new hit ++ after)

section

variable {p : Pattern} (moves : p.isSkippable = false) {t : Text}
include moves

/-- The search for the first match, one character on. -/
theorem findFrom_cons {b a : List Char} {o : Nat} {x : Char}
    (place : (⟨b, x :: a, o⟩ : Cursor).IsIn t) :
    (p.search t).findFrom ⟨b, x :: a, o⟩ =
      (p.matchAt ⟨b, x :: a, o⟩).or ((p.search t).findFrom ⟨x :: b, a, o + 1⟩) := by
  rw [findFrom_eq p place, findFrom_eq p place.step, ← hitAt_eq_matchAt moves place, Cursor.run,
    if_pos (show anyChar x = true from rfl), List.findSome?_cons]
  cases (p.search t).hitAt ⟨b, x :: a, o⟩ <;> rfl

theorem edits_of_findFrom_eq_none (new : Hit → Text) {b a : List Char} {o : Nat}
    (place : (⟨b, a, o⟩ : Cursor).IsIn t) (none : (p.search t).findFrom ⟨b, a, o⟩ = none) :
    p.Edits new ⟨b, a, o⟩ [] a := by
  induction a generalizing b o with
  | nil => exact .done
  | cons x a ih =>
    rw [findFrom_cons moves place, Option.or_eq_none_iff] at none
    exact .pass none.1 (ih place.step none.2)

theorem edits_of_findFrom_eq_some {new : Hit → Text} {hit : Hit} {hits : List Hit} {after : Text}
    (later : p.Edits new hit.whole.stop hits after) {b a : List Char} {o : Nat}
    (place : (⟨b, a, o⟩ : Cursor).IsIn t) (first : (p.search t).findFrom ⟨b, a, o⟩ = some hit) :
    p.Edits new ⟨b, a, o⟩ (hit :: hits) (a.take (hit.offset - o) ++ (new hit ++ after)) := by
  induction a generalizing b o with
  | nil => cases first
  | cons x a ih =>
    rw [findFrom_cons moves place, Option.or_eq_some_iff] at first
    rcases first with here | ⟨none, further⟩
    · have count : hit.offset = o := by rw [Hit.offset, (keeps_of_matchAt here).1]
      rw [count, Nat.sub_self, List.take_zero, List.nil_append]
      exact .swap here later
    · have beyond : o + 1 ≤ hit.offset := (p.findFrom_eq_some place.step further).2.1
      have count : hit.offset - o = hit.offset - (o + 1) + 1 := by omega
      rw [count, List.take_succ_cons, List.cons_append]
      exact .pass none (ih place.step further)

/-- A sweep with replacements is such a reading. -/
theorem edits_of_sweep (new : Hit → Text) {c : Cursor} {hits : List Hit}
    (sweep : (p.search t).Sweep c hits) (place : c.IsIn t) :
    p.Edits new c hits (splice c.ahead c.offset (hits.map fun hit => (hit, new hit))) := by
  induction sweep with
  | last none => exact edits_of_findFrom_eq_none moves new place none
  | next first later ih =>
    have stop := (p.findFrom_eq_some place first).2.2.2.1
    exact edits_of_findFrom_eq_some moves (ih stop) place first

/-- Replacing all matches reads the text from its start on. -/
theorem edits_replaceAll (new : Hit → Text) (t : Text) :
    p.Edits new (.start t) (p.findAll t) (p.replaceAll new t) :=
  edits_of_sweep moves new (p.sweep_findAll t) (Cursor.isIn_start t)

end

end Pattern

end SourceAudit

/-
Module: SourceAudit.Proofs.Console.Settling
Layer: Proofs
Purpose: What a second removal of console calls finds. Where something was cut out, the output has a
  seam, and what stands around it can join to a call. Any other own closed call that is left stands
  behind an own call that is never closed. A removal changes nothing exactly if all own closed calls
  stand so.
Main exports: Console.Inv, Console.Inv.torn_or_shielded, Console.removeConsoleCalls_eq_self_iff,
  console_removal_settles_iff, console_removal_unsettled
-/
import SourceAudit.Proofs.Console.Removal

namespace SourceAudit

namespace Fix.Console

/-- Where a call of a text in two parts stands: in the first part, in the second one, or across. -/
theorem OwnCall.locate {a b : Text} (call : OwnCall (a ++ b)) :
    (∃ inner : OwnCall a, inner.before = call.before ∧ inner.head = call.head) ∨
    (∃ u, call.before = a ++ u ∧ b = u ++ (call.head ++ call.after)) ∨
    ∃ x y, call.head = x ++ y ∧ x ≠ [] ∧ y ≠ [] ∧ a = call.before ++ x := by
  obtain ⟨before, head, after, whole, apart, isHead⟩ := call
  obtain ⟨u, rfl, rfl⟩ | ⟨x, rfl, rest⟩ := List.append_eq_append_iff.1 whole
  · exact .inr (.inl ⟨u, rfl, rfl⟩)
  · obtain ⟨y, rfl, rfl⟩ | ⟨d, rfl, rfl⟩ := List.append_eq_append_iff.1 rest.symm
    · rcases eq_or_ne x [] with rfl | some
      · exact .inr (.inl ⟨[], by simp, by simp⟩)
      rcases eq_or_ne y [] with rfl | some'
      · exact .inl ⟨⟨before, x, [], by simp, apart, by simpa using isHead⟩, rfl, by simp⟩
      · exact .inr (.inr ⟨x, y, rfl, some, some', rfl⟩)
    · exact .inl ⟨⟨before, head, d, rfl, apart, isHead⟩, rfl, rfl⟩

/-- What every state of a removal has: -/
structure Inv (t : Text) (s : State) : Prop where
  whole : s.passed ++ s.rest = t
  /-- A call ahead can start right here. -/
  behind : EndsApart s.passed
  /-- So it can in the output. -/
  apart : s.rest = [] ∨ EndsApart s.out
  /-- A call across the end of the output is torn by a seam. -/
  joint : s.out = [] ∨ s.out.getLast? = some '(' ∨ s.out.length ∈ s.seams
  torn : ∀ call : OwnCall s.out, call.IsTorn s.seams
  same : s.seams = [] → s.out = s.passed
  shorter : s.seams ≠ [] → s.out.length < s.passed.length

theorem inv_start (t : Text) : Inv t (.start t) where
  whole := rfl
  behind := endsApart_nil
  apart := .inr endsApart_nil
  joint := .inl rfl
  torn call := by
    have whole := congrArg List.length call.whole
    have := call.isHead.length_pos
    simp only [State.start, List.length_nil, List.length_append] at whole
    omega
  same _ := rfl
  shorter some := absurd rfl some

section

variable {t : Text} {s s₁ : State}

theorem Inv.endsApart_append_iff (inv : Inv t s) (some : s.rest ≠ []) (u : Text) :
    EndsApart (s.out ++ u) ↔ EndsApart (s.passed ++ u) :=
  endsApart_append_congr (inv.apart.resolve_left some) inv.behind u

/-- A call of the text so far that no seam tears stands ahead. -/
theorem Inv.torn_or_ahead (inv : Inv t s) (call : OwnCall s.text) : call.IsTorn s.seams ∨
    ∃ u, call.before = s.out ++ u ∧ s.rest = u ++ (call.head ++ call.after) ∧
      EndsApart (s.passed ++ u) := by
  obtain ⟨inner, before, head⟩ | ⟨u, before, ahead⟩ | ⟨x, y, head, some, some', out⟩ := call.locate
  · have torn := inv.torn inner
    rw [OwnCall.IsTorn, before, head] at torn
    exact .inl torn
  · have rest : s.rest ≠ [] := ahead ▸ call.isHead.append_ne_nil u call.after
    exact .inr ⟨u, before, ahead, (inv.endsApart_append_iff rest u).1 (before ▸ call.apart)⟩
  · refine .inl ?_
    rcases inv.joint with none | parenthesis | seam
    · exact absurd (List.append_eq_nil_iff.1 (out.symm.trans none)).2 some
    · obtain ⟨front, z, rfl⟩ := x.eq_nil_or_concat.resolve_left some
      obtain rfl : z = '(' := by simpa [out] using parenthesis
      have split : call.head = front ++ '(' :: y := by simp [head]
      exact absurd (call.isHead.eq_nil_of_append split) some'
    · refine ⟨_, seam, ?_, ?_⟩
      · rw [out, List.length_append]
        exact Nat.lt_add_of_pos_right (List.length_pos_of_ne_nil some)
      · rw [out, head, List.length_append, List.length_append]
        have := List.length_pos_of_ne_nil some'
        omega

/-- Up to the next own call ahead, every call of the output is torn. -/
theorem Inv.torn_append (inv : Inv t s) {u r : Text} (ahead : s.rest = u ++ r) (none : s.NoneWithin u)
    (call : OwnCall (s.out ++ u)) : call.IsTorn s.seams := by
  obtain ⟨before, head, after, split, start, isHead⟩ := call
  have whole : s.text = before ++ (head ++ (after ++ r)) := by
    rw [State.text, ahead, ← List.append_assoc, split]
    simp
  rcases inv.torn_or_ahead ⟨before, head, after ++ r, whole, start, isHead⟩ with
    torn | ⟨u', rfl, ahead', apart⟩
  · exact torn
  · have less := congrArg List.length split
    have far := none u' head (after ++ r) ahead' isHead apart
    have := isHead.length_pos
    simp only [List.length_append] at less
    omega

theorem IsTail.isApart {tail : Text} (isTail : IsTail tail) : ∀ x ∈ tail, isApart x = true := by
  obtain ⟨gap, spaces, isTail⟩ := isTail
  have spaced : ∀ x ∈ gap, Console.isApart x = true := by
    intro x mem
    rcases spaces x mem with rfl | rfl <;> rfl
  rcases isTail with rfl | rfl
  · exact spaced
  · exact List.forall_mem_append.2 ⟨spaced, List.all_eq_true.1 (by decide)⟩

/-- A statement ends in a closing parenthesis, a blank or a semicolon. -/
theorem IsStatement.endsApart {before statement after gone : Text}
    (isStatement : IsStatement before statement after) (blank : ∀ x ∈ gone, isBlank x = true) (u : Text) :
    EndsApart (u ++ (statement ++ gone)) := by
  obtain ⟨head, args, tail, rfl, -, -, closed, isTail⟩ := isStatement
  obtain ⟨args', rest, split, count, last⟩ := exists_of_closingParen closed
  obtain ⟨rfl, -⟩ := List.append_inj split count.symm
  have front : EndsApart (u ++ (head ++ args)) := by
    intro x final
    obtain rfl : ')' = x := by simpa [List.getLast?_append, last] using final
    rfl
  have letters : ∀ x ∈ tail ++ gone, Console.isApart x = true :=
    List.forall_mem_append.2 ⟨isTail.isApart, fun x mem => isApart_of_isBlank (blank x mem)⟩
  simpa using front.append letters

/-- A call on another object is no own call, and no own call ends inside its start. -/
theorem Inv.torn_keep (inv : Inv t s) {u head after : Text} (ahead : s.rest = u ++ (head ++ after))
    (none : s.NoneWithin u) (isHead : IsCallHead head) (dotted : (s.passed ++ u).getLast? = some '.')
    (call : OwnCall (s.out ++ (u ++ head))) : call.IsTorn s.seams := by
  obtain ⟨before, head', after', whole, start, isHead'⟩ := call
  obtain ⟨front, parenthesis, -⟩ := isHead'.exists_concat
  have cut : s.out ++ u ++ head = before ++ front ++ '(' :: after' := by simp [whole, parenthesis]
  have other (c : Text) (inside : head = c ++ '(' :: after') : False := by
    obtain rfl := isHead.eq_nil_of_append inside
    have same : s.out ++ u ++ head = before ++ head' := by simp [whole]
    obtain ⟨rfl, -⟩ := isHead.unique_of_append isHead' same
    have rest : s.rest ≠ [] := ahead ▸ isHead.append_ne_nil u after
    exact (endsApart_iff.1 ((inv.endsApart_append_iff rest u).1 start)).2 dotted
  obtain ⟨c, -, inside⟩ | ⟨c, out, rest⟩ := List.append_eq_append_iff.1 cut
  · exact (other c inside).elim
  · cases c with
    | nil => exact (other [] rest.symm).elim
    | cons x c =>
      obtain ⟨rfl, rfl⟩ := List.cons.inj rest
      have within : s.out ++ u = before ++ (head' ++ c) := by simp [out, parenthesis]
      exact inv.torn_append ahead none ⟨before, head', c, within, start, isHead'⟩

/-- What is cut out of the output takes no seam of a call before it along. -/
theorem Inv.torn_cut (inv : Inv t s) {u r out lost : Text} (ahead : s.rest = u ++ r)
    (none : s.NoneWithin u) (split : s.out ++ u = out ++ lost) (call : OwnCall out) :
    call.IsTorn (out.length :: s.seams.filter (· < out.length)) := by
  obtain ⟨before, head, after, whole, start, isHead⟩ := call
  have within : s.out ++ u = before ++ (head ++ (after ++ lost)) := by simp [split, whole]
  obtain ⟨n, seam, above, below⟩ :=
    inv.torn_append ahead none ⟨before, head, after ++ lost, within, start, isHead⟩
  refine ⟨n, List.mem_cons_of_mem _ (List.mem_filter.2 ⟨seam, ?_⟩), above, below⟩
  simp only at below
  simp only [whole, List.length_append, decide_eq_true_eq]
  omega

/-- Where a line was settled, the output ends in a line break or the text does. -/
theorem Inv.apart_cut (inv : Inv t s) {u statement after rest out lost : Text}
    (ahead : s.rest = u ++ (statement ++ after)) (isStatement : IsStatement (s.passed ++ u) statement after)
    (split : s.out ++ u = out ++ lost)
    (line : lost = [] ∨ (∀ x ∈ out.getLast?, x = '\n') ∨ rest = []) : rest = [] ∨ EndsApart out := by
  rcases line with rfl | feed | none
  · have some : s.rest ≠ [] := by
      simp [ahead, isStatement.ne_nil]
    obtain ⟨-, -, -, -, start, -⟩ := isStatement
    rw [List.append_nil] at split
    exact .inr (split ▸ (inv.endsApart_append_iff some u).2 start)
  · refine .inr fun x last => ?_
    rw [feed x last]
    rfl
  · exact .inl none

theorem Inv.length_le (inv : Inv t s) : s.out.length ≤ s.passed.length := by
  by_cases none : s.seams = []
  · rw [inv.same none]
  · exact (inv.shorter none).le

theorem Inv.step (inv : Inv t s) (step : Step s s₁) : Inv t s₁ := by
  cases step with
  | @keep u head after ahead none isHead dotted =>
    obtain ⟨front, parenthesis, -⟩ := isHead.exists_concat
    have apart (a : Text) : EndsApart (a ++ (u ++ head)) := by
      rw [parenthesis, ← List.append_assoc, ← List.append_assoc]
      exact endsApart_concat rfl
    exact {
      whole := by simp [← inv.whole, ahead]
      behind := apart _
      apart := .inr (apart _)
      joint := .inr (.inl (by simp [parenthesis, List.getLast?_append]))
      torn := inv.torn_keep ahead none isHead dotted
      same := fun none => congrArg (· ++ _) (inv.same none)
      shorter := fun some => by simpa using inv.shorter some }
  | @cut u statement gone rest out lost ahead none isStatement split blank line =>
    have blanks := List.forall_mem_append.1 blank
    exact {
      whole := by simp [← inv.whole, ahead]
      behind := by
        rw [← List.append_assoc]
        exact isStatement.endsApart blanks.2 _
      apart := inv.apart_cut ahead isStatement split line
      joint := .inr (.inr List.mem_cons_self)
      torn := inv.torn_cut ahead none split
      same := fun none => (List.cons_ne_nil _ _ none).elim
      shorter := fun _ => by
        have some := List.length_pos_of_ne_nil isStatement.ne_nil
        have before := congrArg List.length split
        have := inv.length_le
        simp only [List.length_append] at before ⊢
        omega }

theorem inv_of_run (run : Relation.ReflTransGen Step (.start t) s) : Inv t s := by
  induction run with
  | refl => exact inv_start t
  | tail _ step ih => exact ih.step step

/-- Where an own call stands ahead, a first one does. -/
theorem exists_first {u head after : Text} (ahead : s.rest = u ++ (head ++ after))
    (isHead : IsCallHead head) (apart : EndsApart (s.passed ++ u)) : ∃ u' head' after',
      s.rest = u' ++ (head' ++ after') ∧ IsCallHead head' ∧ EndsApart (s.passed ++ u') ∧ s.NoneWithin u' ∧
      u'.length ≤ u.length := by
  induction count : u.length using Nat.strongRecOn generalizing u head after with
  | ind n ih =>
    by_cases none : s.NoneWithin u
    · exact ⟨u, head, after, ahead, isHead, apart, none, count.le⟩
    · rw [State.NoneWithin] at none
      push Not at none
      obtain ⟨u', head', after', ahead', isHead', apart', less⟩ := none
      obtain ⟨first, head₁, after₁, ahead₁, isHead₁, apart₁, none₁, below⟩ :=
        ih u'.length (count ▸ less) ahead' isHead' apart' rfl
      exact ⟨first, head₁, after₁, ahead₁, isHead₁, apart₁, none₁, by omega⟩

/-- What the removal leaves: an own closed call is torn by a seam, or it stands behind an own call that
    is never closed. -/
theorem torn_or_shielded (inv : Inv t s) (rests : Rests s) (call : OwnCall s.text)
    (closed : IsClosed call.after) : call.IsTorn s.seams ∨ call.IsShielded := by
  rcases inv.torn_or_ahead call with torn | ⟨u, before, ahead, apart⟩
  · exact .inl torn
  · obtain ⟨first, head, after, ahead', isHead, apart', none, below⟩ := exists_first ahead call.isHead apart
    have unclosed := rests first head after ahead' isHead apart' none
    have some : s.rest ≠ [] := ahead' ▸ isHead.append_ne_nil first after
    refine .inr ⟨⟨s.out ++ first, head, after, by rw [State.text, ahead']; simp,
      (inv.endsApart_append_iff some first).2 apart', isHead⟩, unclosed, ?_⟩
    have differs : first.length ≠ u.length := by
      intro same
      obtain ⟨rfl, calls⟩ := List.append_inj (ahead'.symm.trans ahead) same
      obtain ⟨-, rfl⟩ := isHead.unique_of_prefix call.isHead calls
      exact unclosed closed
    simp only [before, List.length_append]
    omega

/-- Where every own closed call stands behind an unclosed one, the removal comes to the unclosed one
    first and cuts out nothing. -/
theorem seams_eq_nil_of_shielded (shielded : ∀ call : OwnCall t, IsClosed call.after → call.IsShielded)
    (run : Relation.ReflTransGen Step (.start t) s) : s.seams = [] := by
  induction run with
  | refl => rfl
  | @tail s _ run step ih =>
    have inv := inv_of_run run
    cases step with
    | keep => exact ih
    | @cut u statement gone rest _ _ ahead none isStatement =>
      obtain ⟨head, args, tail, rfl, start, isHead, closed, -⟩ := isStatement
      have whole : t = s.passed ++ u ++ (head ++ (args ++ (tail ++ (gone ++ rest)))) := by
        simp [← inv.whole, ahead]
      obtain ⟨⟨before, head', after, whole', start', isHead'⟩, -, less⟩ :=
        shielded ⟨_, _, _, whole, start, isHead⟩ (by simp [IsClosed, closed])
      have text : s.text = before ++ (head' ++ after) := by
        rw [State.text, inv.same ih, inv.whole, whole']
      rcases inv.torn_or_ahead ⟨before, head', after, text, start', isHead'⟩ with
        ⟨n, seam, -⟩ | ⟨u', rfl, ahead', apart⟩
      · rw [ih] at seam
        cases seam
      · have far := none u' head' after ahead' isHead' apart
        simp only [inv.same ih, List.length_append] at less
        omega

/-- The removal changes nothing exactly if every own closed call stands behind an own call that is never
    closed. -/
theorem removeConsoleCalls_eq_self_iff (t : Text) : removeConsoleCalls t = t ↔
    ∀ call : OwnCall t, IsClosed call.after → call.IsShielded := by
  obtain ⟨s, ⟨run, rests⟩, result⟩ := exists_ends t
  have inv := inv_of_run run
  rw [result]
  constructor
  · rintro rfl call closed
    have out : s.out = s.passed := List.append_cancel_right inv.whole.symm
    have none : s.seams = [] := by
      by_contra some
      exact (inv.shorter some).ne (congrArg List.length out)
    refine (torn_or_shielded inv rests call closed).resolve_left ?_
    rintro ⟨n, seam, -⟩
    rw [none] at seam
    cases seam
  · intro shielded
    rw [State.text, inv.same (seams_eq_nil_of_shielded shielded run), inv.whole]

end

end Fix.Console

open SourceAudit.Fix.Console in
/-- After the console calls of a file are removed, every own closed call that is left runs across a place
    where something was cut out, or it stands behind an own call that is never closed. A second removal
    changes nothing exactly if all of them stand so. -/
theorem console_removal_settles_iff [Engine] (fileName code : String) :
    ∃ fixed s, applyFix .removeConsoleLogs fileName code = .ok fixed ∧ Ends (Text.of code) s ∧
      Text.of fixed = s.text ∧
      (∀ call : OwnCall s.text, IsClosed call.after → call.IsTorn s.seams ∨ call.IsShielded) ∧
      (applyFix .removeConsoleLogs fileName fixed = .ok fixed ↔
        ∀ call : OwnCall s.text, IsClosed call.after → call.IsShielded) := by
  obtain ⟨s, ends, result⟩ := exists_ends (Text.of code)
  refine ⟨s.text.str, s, ?_, ends, Text.of_str _, torn_or_shielded (inv_of_run ends.1) ends.2, ?_⟩
  · rw [applyFix, FixKind.edit, result]
    rfl
  · rw [← removeConsoleCalls_eq_self_iff, applyFix, FixKind.edit, Text.of_str]
    constructor
    · intro same
      simpa using congrArg Text.of (Except.ok.inj same)
    · intro same
      rw [same]
      rfl

attribute [local instance] Engine.standard in
open SourceAudit.Fix.Console in
/-- A removal that joins a call out of what stood around another one, so that a second removal finds it;
    and one that ends at a call that is never closed and leaves the closed call behind it. -/
theorem console_removal_unsettled :
    (applyFix .removeConsoleLogs "a.js" "console.log\nconsole.debug(1);\n(2);" =
        .ok "console.log\n(2);" ∧
      applyFix .removeConsoleLogs "a.js" "console.log\n(2);" = .ok "") ∧
    applyFix .removeConsoleLogs "a.js" "console.log(1\nconsole.log(2);" =
        .ok "console.log(1\nconsole.log(2);" ∧
      ∃ call : OwnCall (Text.of "console.log(1\nconsole.log(2);"), IsClosed call.after := by
  refine ⟨⟨by decide +kernel, by decide +kernel⟩, by decide +kernel, ?_⟩
  exact ⟨⟨Text.of "console.log(1\n", Text.of "console.log(", Text.of "2);", rfl, by decide,
    'l', Text.of "og", [], rfl, rfl, List.all_eq_true.1 (by decide), by simp⟩, by decide⟩

end SourceAudit

/-
Module: SourceAudit.Proofs.Console.Removal
Layer: Proofs
Purpose: The removal of console calls as a run of steps. A step passes a call on another object, or cuts
  out the statement of an own call, with the blanks of the line that it leaves empty. The run ends where
  no own call is left ahead, or where the next one is never closed. So nothing but such statements and
  blanks is lost.
Main exports: Console.IsStatement, Console.State, Console.Step, Console.exists_run, Console.Cuts,
  console_removal_cuts_statements
-/
import Mathlib.Data.List.TakeWhile
import Mathlib.Logic.Relation
import SourceAudit.Fix.Apply
import SourceAudit.Proofs.Console.Calls
import SourceAudit.Proofs.Pattern.First
import SourceAudit.Proofs.Text.Needle

namespace SourceAudit

namespace Fix.Console

open Pattern Cursor

/-- Spaces and tabs, and at most one semicolon behind them. -/
def IsTail (tail : Text) : Prop :=
  ∃ gap, (∀ x ∈ gap, x = ' ' ∨ x = '\t') ∧ (tail = gap ∨ tail = gap ++ [';'])

/-- The statement of an own closed call: the call up to its closing parenthesis, and its tail. -/
def IsStatement (before statement after : Text) : Prop :=
  ∃ head args tail, statement = head ++ (args ++ tail) ∧ EndsApart before ∧ IsCallHead head ∧
    closingParen ('(' :: (args ++ (tail ++ after))) = some args.length ∧ IsTail tail

/-- How far the removal has come: the text that has been passed, what has been put out for it, how much
    of the output stood before each place where something was cut out, and the text ahead. -/
structure State where
  passed : Text
  out : Text
  seams : List Nat
  rest : Text

namespace State

/-- The state in which a text has not been read. -/
def start (t : Text) : State := ⟨[], [], [], t⟩

/-- The text when the removal ends in this state. -/
def text (s : State) : Text := s.out ++ s.rest

/-- No own call starts among the first characters ahead. -/
def NoneWithin (s : State) (u : Text) : Prop :=
  ∀ u' head after, s.rest = u' ++ (head ++ after) → IsCallHead head → EndsApart (s.passed ++ u') →
    u.length ≤ u'.length

end State

/-- One step of the removal. -/
inductive Step (s : State) : State → Prop where
  /-- A call on another object is passed. -/
  | keep {u head after : Text} (ahead : s.rest = u ++ (head ++ after)) (none : s.NoneWithin u)
      (isHead : IsCallHead head) (dotted : (s.passed ++ u).getLast? = some '.') :
      Step s ⟨s.passed ++ (u ++ head), s.out ++ (u ++ head), s.seams, after⟩
  /-- A statement is cut out, and `gone` behind it. When `lost` goes too, the whole line does. -/
  | cut {u statement gone rest out lost : Text} (ahead : s.rest = u ++ (statement ++ (gone ++ rest)))
      (none : s.NoneWithin u) (isStatement : IsStatement (s.passed ++ u) statement (gone ++ rest))
      (split : s.out ++ u = out ++ lost) (blank : ∀ x ∈ lost ++ gone, isBlank x = true)
      (line : lost = [] ∨ (∀ x ∈ out.getLast?, x = '\n') ∨ rest = []) :
      Step s ⟨s.passed ++ (u ++ (statement ++ gone)), out,
        out.length :: s.seams.filter (· < out.length), rest⟩

/-- The removal ends here: there is no own call ahead, or the next one is never closed. -/
def Rests (s : State) : Prop :=
  ∀ u head after, s.rest = u ++ (head ++ after) → IsCallHead head → EndsApart (s.passed ++ u) →
    s.NoneWithin u → ¬ IsClosed after

theorem advance_between (p xs q : Text) :
    (between p (xs ++ q)).advance xs.length = between (p ++ xs) q := by
  have place := isIn_between p (xs ++ q)
  obtain ⟨inside, count⟩ := place.advance (show xs.length ≤ (xs ++ q).length by simp)
  refine inside.eq_of_offset ((moves_between p xs q).isIn place) ?_
  rw [count]
  simp [between]

theorem exists_skipSpaces (p q : Text) : ∃ gap rest, q = gap ++ rest ∧
    (∀ x ∈ gap, x = ' ' ∨ x = '\t') ∧ skipSpaces (between p q) = between (p ++ gap) rest := by
  refine ⟨q.takeWhile fun x => x == ' ' || x == '\t', q.dropWhile fun x => x == ' ' || x == '\t',
    List.takeWhile_append_dropWhile.symm, fun x mem => by simpa using List.mem_takeWhile_imp mem, ?_⟩
  rw [← advance_between, List.takeWhile_append_dropWhile]
  rfl

/-- Behind a statement, its tail and more spaces are skipped. -/
theorem exists_skipTerminator (p q : Text) : ∃ tail gap rest, q = tail ++ (gap ++ rest) ∧ IsTail tail ∧
    (∀ x ∈ gap, x = ' ' ∨ x = '\t') ∧
    skipTerminator (between p q) = between (p ++ (tail ++ gap)) rest := by
  obtain ⟨gap, rest, rfl, spaces, skip⟩ := exists_skipSpaces p q
  by_cases semicolon : ∃ later, rest = ';' :: later
  · obtain ⟨later, rfl⟩ := semicolon
    obtain ⟨gap', rest, rfl, spaces', skip'⟩ := exists_skipSpaces (p ++ gap ++ [';']) later
    refine ⟨gap ++ [';'], gap', rest, by simp, ⟨gap, spaces, .inr rfl⟩, spaces', ?_⟩
    have one : skipSpaces ((between (p ++ gap) (';' :: (gap' ++ rest))).advance 1) =
        between (p ++ gap ++ [';'] ++ gap') rest := by
      rw [← skip']
      exact congrArg skipSpaces (advance_between (p ++ gap) [';'] (gap' ++ rest))
    rw [skipTerminator, skip]
    change skipSpaces ((between (p ++ gap) (';' :: (gap' ++ rest))).advance 1) = _
    rw [one]
    simp
  · refine ⟨gap, [], rest, rfl, ⟨gap, spaces, .inl rfl⟩, by simp, ?_⟩
    rw [skipTerminator, skip, List.append_nil]
    split
    · rename_i later ahead
      exact absurd ⟨later, ahead⟩ semicolon
    · rfl

/-- An output whose last line is blank has nothing but blanks behind its last line break. -/
theorem endsInBlankLine_iff (out : Text) :
    endsInBlankLine out = true ↔ ∀ x ∈ out.takeWhile (· != '\n'), isBlank x = true := by
  induction out with
  | nil => simp [endsInBlankLine]
  | cons x out ih =>
    by_cases feed : x = '\n'
    · subst feed
      simp [endsInBlankLine]
    · cases blank : isBlank x with
      | true =>
        rw [endsInBlankLine] at ih ⊢
        simp only [List.takeWhile_cons, List.dropWhile_cons, blank, bne_iff_ne.2 feed]
        simpa [blank] using ih
      | false => simp [endsInBlankLine, blank, feed]

theorem exists_lineBreakLength (q : Text) : ∃ gone rest, q = gone ++ rest ∧
    gone.length = lineBreakLength q ∧ ∀ x ∈ gone, isBlank x = true := by
  fun_cases lineBreakLength q with
  | case1 rest => exact ⟨['\r', '\n'], rest, rfl, rfl, List.all_eq_true.1 (by decide)⟩
  | case2 rest => exact ⟨['\n'], rest, rfl, rfl, List.all_eq_true.1 (by decide)⟩
  | case3 => exact ⟨[], q, rfl, rfl, by simp⟩

theorem exists_dropLineBreak (o : Text) :
    ∃ lost, o = lost ++ dropLineBreak o ∧ ∀ x ∈ lost, isBlank x = true := by
  fun_cases dropLineBreak o with
  | case1 rest => exact ⟨['\n', '\r'], rfl, List.all_eq_true.1 (by decide)⟩
  | case2 rest => exact ⟨['\n'], rfl, List.all_eq_true.1 (by decide)⟩
  | case3 => exact ⟨[], rfl, by simp⟩

/-- A line that is left blank is taken away whole, at the end of the text with the line break before
    it, elsewhere with the one behind it. -/
theorem exists_settleLine (o p q : Text) : ∃ out lost gone rest,
    settleLine o.reverse (between p q) = (out.reverse, between (p ++ gone) rest) ∧ o = out ++ lost ∧
      q = gone ++ rest ∧ (∀ x ∈ lost ++ gone, isBlank x = true) ∧
      (lost = [] ∨ (∀ x ∈ out.getLast?, x = '\n') ∨ rest = []) := by
  obtain ⟨gone, rest, rfl, count, feed⟩ := exists_lineBreakLength q
  have whole : o = (o.reverse.dropWhile (· != '\n')).reverse ++ (o.reverse.takeWhile (· != '\n')).reverse := by
    rw [← List.reverse_append, List.takeWhile_append_dropWhile, List.reverse_reverse]
  rw [settleLine, show (between p (gone ++ rest)).ahead = gone ++ rest from rfl, ← count]
  split
  · rename_i settles
    rw [Bool.and_eq_true, endsInBlankLine_iff] at settles
    obtain ⟨blank, stop⟩ := settles
    split
    · refine ⟨_, _, gone, rest, ?_, whole, rfl, ?_, .inr (.inl ?_)⟩
      · rw [List.reverse_reverse, advance_between]
      · simpa [or_imp, forall_and] using ⟨blank, feed⟩
      · intro x last
        rw [List.getLast?_reverse, ← List.find?_not_eq_head?_dropWhile] at last
        simpa using List.find?_some last
    · rename_i none
      obtain ⟨rfl, rfl⟩ : gone = [] ∧ rest = [] := by simpa [none] using stop
      obtain ⟨lost, split, blank'⟩ := exists_dropLineBreak (o.reverse.dropWhile (· != '\n'))
      refine ⟨(dropLineBreak (o.reverse.dropWhile (· != '\n'))).reverse,
        lost.reverse ++ (o.reverse.takeWhile (· != '\n')).reverse, [], [], by simp, ?_, rfl, ?_, .inr (.inr rfl)⟩
      · rw [← List.append_assoc, ← List.reverse_append, ← split]
        exact whole
      · simpa [or_imp, forall_and] using ⟨blank', blank⟩
  · exact ⟨o, [], [], gone ++ rest, by simp, by simp, rfl, by simp, .inl rfl⟩

theorem passing_between (out p u q : Text) :
    passing out.reverse (between p (u ++ q)) (between (p ++ u) q) = (out ++ u).reverse := by
  rw [passing, (moves_between p u q).chars, List.reverse_append]

/-- The call that the search finds is the next one: no own call starts before it. -/
theorem exists_next_call {t : Text} {s : State} {call : Hit} (inside : (between s.passed s.rest).IsIn t)
    (found : (consoleCall.search t).findFrom (between s.passed s.rest) = some call) :
    ∃ u head after, s.rest = u ++ (head ++ after) ∧
      call.whole = ⟨between (s.passed ++ u) (head ++ after), between (s.passed ++ u ++ head) after⟩ ∧
      IsCallHead head ∧ (∀ y ∈ (s.passed ++ u).getLast?, isWordChar y = false) ∧ s.NoneWithin u := by
  obtain ⟨u, head, after, ahead, place, spelled, first⟩ := exists_spells_of_findFrom rfl inside found
  obtain ⟨apart, isHead, -⟩ := spells_consoleCall.1 spelled
  refine ⟨u, head, after, ahead, place, isHead, apart, ?_⟩
  intro u' head' after' ahead' isHead' apart'
  exact first u' head' after' [] ahead' (spells_consoleCall.2 ⟨(endsApart_iff.1 apart').1, isHead', rfl⟩)

/-- Where the next call is an own one and closed, its statement is cut out. -/
theorem exists_cut {s : State} {u head after : Text} {n : Nat} (ahead : s.rest = u ++ (head ++ after))
    (none : s.NoneWithin u) (isHead : IsCallHead head) (apart : EndsApart (s.passed ++ u))
    (closed : closingParen ('(' :: after) = some n) : ∃ s', Step s s' ∧
      settleLine (s.out ++ u).reverse
        (skipTerminator ((between (s.passed ++ u ++ head) after).advance n)) =
          (s'.out.reverse, between s'.passed s'.rest) ∧
      s'.passed ++ s'.rest = s.passed ++ s.rest ∧ s'.rest.length < s.rest.length := by
  obtain ⟨args, later, rfl, rfl, -⟩ := exists_of_closingParen closed
  obtain ⟨tail, gap, behind, rfl, isTail, spaces, skip⟩ :=
    exists_skipTerminator (s.passed ++ u ++ head ++ args) later
  obtain ⟨out, lost, gone, rest, settled, split, rfl, blank, line⟩ :=
    exists_settleLine (s.out ++ u) (s.passed ++ u ++ head ++ args ++ (tail ++ gap)) behind
  have ahead' : s.rest = u ++ ((head ++ (args ++ tail)) ++ ((gap ++ gone) ++ rest)) := by simp [ahead]
  have blank' : ∀ x ∈ lost ++ (gap ++ gone), isBlank x = true := by
    simp only [List.forall_mem_append] at blank ⊢
    refine ⟨blank.1, fun x mem => ?_, blank.2⟩
    rcases spaces x mem with rfl | rfl <;> rfl
  refine ⟨_, .cut ahead' none ⟨head, args, tail, rfl, apart, isHead, by simpa using closed, isTail⟩ split
    blank' line, ?_, ?_, ?_⟩
  · rw [advance_between, skip, settled]
    simp
  · simp [ahead]
  · have := isHead.length_pos
    simp only [ahead, List.length_append]
    omega

theorem rests_of_unclosed {s : State} {u head after : Text} (ahead : s.rest = u ++ (head ++ after))
    (none : s.NoneWithin u) (isHead : IsCallHead head) (apart : EndsApart (s.passed ++ u))
    (unclosed : ¬ IsClosed after) : Rests s := by
  intro u' head' after' ahead' isHead' apart' none'
  have same : u.length = u'.length :=
    Nat.le_antisymm (none u' head' after' ahead' isHead' apart') (none' u head after ahead isHead apart)
  obtain ⟨rfl, calls⟩ := List.append_inj (ahead.symm.trans ahead') same
  obtain ⟨-, rfl⟩ := isHead.unique_of_prefix isHead' calls
  exact unclosed

theorem Rests.exists_end {s : State} (rests : Rests s) : ∃ s', Relation.ReflTransGen Step s s' ∧
    Rests s' ∧ s.rest.reverse ++ s.out.reverse = s'.text.reverse :=
  ⟨s, .refl, rests, by rw [State.text, List.reverse_append]⟩

/-- The removal takes steps until it rests. -/
theorem exists_run {t : Text} (fuel : Nat) (s : State) (whole : s.passed ++ s.rest = t)
    (enough : s.rest.length ≤ fuel) : ∃ s', Relation.ReflTransGen Step s s' ∧ Rests s' ∧
      removeFrom (consoleCall.search t) fuel s.out.reverse (between s.passed s.rest) = s'.text.reverse := by
  induction fuel generalizing s with
  | zero =>
    refine Rests.exists_end fun u head after ahead isHead => ?_
    have := isHead.length_pos
    rw [ahead] at enough
    simp only [List.length_append] at enough
    omega
  | succ fuel ih =>
    have inside : (between s.passed s.rest).IsIn t := whole ▸ isIn_between _ _
    rw [removeFrom]
    cases found : (consoleCall.search t).findFrom (between s.passed s.rest) with
    | none =>
      refine Rests.exists_end fun u head after ahead isHead apart _ _ => ?_
      exact findFrom_between_eq_none rfl inside found ahead
        (spells_consoleCall.2 ⟨(endsApart_iff.1 apart).1, isHead, rfl⟩)
    | some call =>
      obtain ⟨u, head, after, ahead, place, isHead, noWord, none⟩ := exists_next_call inside found
      have last : call.whole.start.behind.head? = (s.passed ++ u).getLast? := by
        rw [place, between, List.head?_reverse]
      have before : passing s.out.reverse (between s.passed s.rest) call.whole.start =
          (s.out ++ u).reverse := by
        rw [place, ahead, passing_between]
      simp only [last, before]
      split
      · rename_i dotted
        have passed : passing s.out.reverse (between s.passed s.rest) call.whole.stop =
            (s.out ++ (u ++ head)).reverse := by
          rw [place, ahead, ← List.append_assoc u, List.append_assoc s.passed, passing_between]
        obtain ⟨s', run, rests, result⟩ := ih ⟨s.passed ++ (u ++ head), s.out ++ (u ++ head), s.seams, after⟩
          (by simp [← whole, ahead]) (by
            have := isHead.length_pos
            simp only [ahead, List.length_append] at enough ⊢
            omega)
        refine ⟨s', .head (.keep ahead none isHead (by simpa using dotted)) run, rests, ?_⟩
        rw [passed, place, List.append_assoc]
        exact result
      · rename_i notDotted
        have apart : EndsApart (s.passed ++ u) := endsApart_iff.2 ⟨noWord, by simpa using notDotted⟩
        rw [show call.whole.stop.ahead = after by rw [place]; rfl]
        cases closed : closingParen ('(' :: after) with
        | none => exact (rests_of_unclosed ahead none isHead apart (by simp [IsClosed, closed])).exists_end
        | some n =>
          obtain ⟨s₁, step, settled, whole₁, less⟩ := exists_cut ahead none isHead apart closed
          obtain ⟨s', run, rests, result⟩ := ih s₁ (whole₁.trans whole) (by omega)
          refine ⟨s', .head step run, rests, ?_⟩
          rw [place]
          simp only [settled]
          exact result

/-- The states in which the removal from a text can end. -/
def Ends (t : Text) (s : State) : Prop := Relation.ReflTransGen Step (.start t) s ∧ Rests s

/-- The removal ends, and its result is the text of the state it ends in. -/
theorem exists_ends (t : Text) : ∃ s, Ends t s ∧ removeConsoleCalls t = s.text := by
  obtain ⟨s, run, rests, result⟩ := exists_run t.length (.start t) rfl (Nat.le_refl _)
  refine ⟨s, ⟨run, rests⟩, ?_⟩
  rw [removeConsoleCalls, ← List.reverse_reverse s.text, ← result]
  rfl

/-- Reading on behind `before`: the statements that are cut out one after the other, and what is kept of
    the text between and behind them. -/
inductive Cuts : (before t : Text) → (cut : List Text) → (kept : Text) → Prop where
  | nil {before t : Text} : Cuts before t [] t
  | cons {before u statement after kept : Text} {cut : List Text}
      (isStatement : IsStatement (before ++ u) statement after)
      (later : Cuts (before ++ (u ++ statement)) after cut kept) :
      Cuts before (u ++ (statement ++ after)) (statement :: cut) (u ++ kept)

/-- What is read before the first statement is kept. -/
theorem Cuts.passed {before u t kept : Text} {cut : List Text} (cuts : Cuts (before ++ u) t cut kept) :
    Cuts before (u ++ t) cut (u ++ kept) := by
  cases cuts with
  | nil => exact .nil
  | cons isStatement later =>
    rw [← List.append_assoc, ← List.append_assoc u]
    rw [List.append_assoc before] at isStatement later
    exact .cons isStatement (by simpa using later)

/-- The characters of a text that are not blank. -/
def solid (t : Text) : Text := t.filter fun x => !isBlank x

theorem solid_append (t u : Text) : solid (t ++ u) = solid t ++ solid u := List.filter_append ..

theorem solid_eq_nil {t : Text} (blank : ∀ x ∈ t, isBlank x = true) : solid t = [] := by
  simpa [solid] using blank

theorem IsStatement.ne_nil {before statement after : Text} (h : IsStatement before statement after) :
    statement ≠ [] := by
  obtain ⟨head, args, tail, rfl, -, isHead, -⟩ := h
  have := isHead.length_pos
  intro none
  simp [(List.append_eq_nil_iff.1 none).1] at this

/-- A step loses nothing of a text that it keeps in order. -/
theorem Step.sublist {s s₁ : State} (step : Step s s₁) : s₁.text.Sublist s.text := by
  cases step with
  | @keep u head after ahead =>
    have same : s.text = s.out ++ (u ++ head) ++ after := by simp [State.text, ahead]
    exact same ▸ .refl _
  | @cut u statement gone rest out lost ahead _ _ split =>
    have before : s.text = out ++ ((lost ++ (statement ++ gone)) ++ rest) := by
      rw [State.text, ahead, ← List.append_assoc, split]
      simp
    rw [before]
    exact .append (.refl out) (List.sublist_append_right ..)

/-- A step cuts out a statement, or nothing if it leaves the text as it is; what else it takes away is
    blank. -/
theorem Step.exists_cuts {s s₁ : State} (step : Step s s₁) {cut : List Text} {kept : Text}
    (cuts : Cuts s₁.passed s₁.rest cut kept) : ∃ cut' kept', Cuts s.passed s.rest cut' kept' ∧
      solid (s₁.out ++ kept) = solid (s.out ++ kept') ∧ (cut' = [] ↔ cut = [] ∧ s₁.text = s.text) := by
  cases step with
  | @keep u head after ahead =>
    refine ⟨cut, (u ++ head) ++ kept, ?_, by rw [List.append_assoc], ?_⟩
    · rw [ahead, ← List.append_assoc]
      exact cuts.passed
    · simp [State.text, ahead]
  | @cut u statement gone rest out lost ahead _ isStatement split blank =>
    have blanks := List.forall_mem_append.1 blank
    refine ⟨statement :: cut, u ++ (gone ++ kept), ?_, ?_, ?_⟩
    · rw [ahead]
      exact .cons isStatement (Cuts.passed (by simpa using cuts))
    · rw [← List.append_assoc s.out, split]
      simp [solid_append, solid_eq_nil blanks.1, solid_eq_nil blanks.2]
    · refine ⟨fun none => (List.cons_ne_nil _ _ none).elim, fun ⟨_, same⟩ => ?_⟩
      have some := List.length_pos_of_ne_nil isStatement.ne_nil
      have before := congrArg List.length split
      have less := congrArg List.length same
      simp only [State.text, ahead, List.length_append] at before less
      omega

/-- What a run cuts out of the text ahead are statements, and but for blanks nothing else is lost. -/
theorem exists_cuts_of_run {s s' : State} (run : Relation.ReflTransGen Step s s') : ∃ cut kept,
    Cuts s.passed s.rest cut kept ∧ solid s'.text = solid (s.out ++ kept) ∧ s'.text.Sublist s.text ∧
      (cut = [] ↔ s'.text = s.text) := by
  induction run using Relation.ReflTransGen.head_induction_on with
  | refl => exact ⟨[], s'.rest, .nil, rfl, .refl _, by simp⟩
  | @head s s₁ step _ ih =>
    obtain ⟨cut, kept, cuts, same, sub, untouched⟩ := ih
    obtain ⟨cut', kept', cuts', same', untouched'⟩ := step.exists_cuts cuts
    refine ⟨cut', kept', cuts', same.trans same', sub.trans step.sublist, ?_⟩
    rw [untouched', untouched]
    constructor
    · rintro ⟨later, here⟩
      exact later.trans here
    · intro all
      have here : s₁.text = s.text := by
        refine step.sublist.eq_of_length (Nat.le_antisymm step.sublist.length_le ?_)
        rw [← all]
        exact sub.length_le
      exact ⟨all.trans here.symm, here⟩

end Fix.Console

open SourceAudit.Fix.Console in
/-- Removing the console calls of a file cuts out statements of own calls, one after the other, and
    loses nothing else but blanks. The result is what is left of the text in its order; it is the whole
    text exactly if no statement is cut out. -/
theorem console_removal_cuts_statements [Engine] (fileName code : String) :
    ∃ fixed cut kept, applyFix .removeConsoleLogs fileName code = .ok fixed ∧
      Cuts [] (Text.of code) cut kept ∧ solid (Text.of fixed) = solid kept ∧
      (Text.of fixed).Sublist (Text.of code) ∧ (cut = [] ↔ fixed = code) := by
  obtain ⟨s, ⟨run, -⟩, result⟩ := exists_ends (Text.of code)
  obtain ⟨cut, kept, cuts, same, sub, untouched⟩ := exists_cuts_of_run run
  refine ⟨s.text.str, cut, kept, ?_, cuts, by rwa [Text.of_str], by rwa [Text.of_str], ?_⟩
  · rw [applyFix, FixKind.edit, result]
    rfl
  · rw [untouched, State.text, State.start, ← String.toList_inj, Text.str, String.toList_ofList]
    rfl

end SourceAudit

/-
Module: SourceAudit.Proofs.Debugging.Functions
Layer: Proofs
Purpose: The headers of functions in front of a debug statement. A header reaches into the statement in
  two ways: what follows its parameters may run on there, which brings in no word that says who may call,
  and its parameters may end there, which makes a new header at the end of the text. So no function
  without such a word is lost.
Main exports: Solidity.exists_of_matchAt, Solidity.exists_matchAt_before,
  Solidity.matchAt_before_eq_none, Solidity.exists_findFrom_before, solidity_eased_debugStatement
-/
import SourceAudit.Proofs.Debugging.Statement
import SourceAudit.Proofs.Pattern.Edits

namespace SourceAudit

open Pattern

namespace Solidity

/-- A function up to its parameters. -/
def headerStart : Pattern :=
  wordEdge ++ text "function" ++ gap ++ name ++ blanks ++ text "(" ++ many (noneOf ")")

/-- What follows the parameters of a function up to its body. -/
def isModifierChar : Char → Bool := noneOf "\x7b;"

theorem functionHeader_eq :
    functionHeader = headerStart ++ text ")" ++ group 1 (many isModifierChar) := rfl

section

variable {c : Cursor} {hit : Hit}

/-- A function with its parameters passes the first closing bracket, and nothing behind it. -/
theorem exists_of_passes {m : Cursor} (way : (headerStart ++ text ")").Passes c m) :
    ∃ u, ')' ∉ u ∧ c.Moves (u ++ [')']) m := by
  obtain ⟨e, first, second⟩ := way
  obtain ⟨u, moves, absent⟩ := first.exists_moves (x := ')') (by decide)
  exact ⟨u, absent, moves.trans (passes_text.1 second)⟩

/-- A header ends where the characters that may follow the parameters end. -/
theorem exists_of_matchAt (found : functionHeader.matchAt c = some hit) :
    ∃ m, (headerStart ++ text ")").Passes c m ∧
      m.Moves (m.ahead.takeWhile isModifierChar) hit.whole.stop ∧
      hit.groupChars 1 = m.ahead.takeWhile isModifierChar := by
  obtain ⟨m, kept, way, moves, groups⟩ := exists_of_matchAt_most (functionHeader_eq ▸ found)
  obtain rfl := way.eq_nil rfl
  refine ⟨m, way.passes, moves, ?_⟩
  rw [Hit.groupChars, Hit.group?, groups]
  exact moves.chars

theorem exists_matchAt_of_passes {m : Cursor} (way : (headerStart ++ text ")").Passes c m) :
    ∃ hit, functionHeader.matchAt c = some hit := by
  rw [← Option.ne_none_iff_exists', Ne, matchAt_eq_none_iff, not_forall]
  have rest : (many isModifierChar).Passes m m :=
    passes_most.2 ⟨[], Nat.zero_le _, by simp, Cursor.moves_nil.2 rfl⟩
  exact ⟨m, fun stuck => stuck ⟨m, way, rest⟩⟩

/-- No word that says who may call is in the statement. -/
theorem occurs_visibilityWord_append (modifiers : Text) :
    visibilityWord.occurs (modifiers ++ debugStatement.takeWhile isModifierChar) =
      visibilityWord.occurs modifiers := by
  have feed : StartsWithFeed (debugStatement.takeWhile isModifierChar) := rfl
  exact occurs_back_eq feed rfl (stays_of_isStill (by decide))

/-- A header is one in front of the statement as well, with the same words that say who may call. It
    ends at the same place, unless it runs to the end of the text. -/
theorem exists_matchAt_before (found : functionHeader.matchAt c = some hit) :
    ∃ hit', functionHeader.matchAt (c.before debugStatement) = some hit' ∧
      visibilityWord.occurs (hit'.groupChars 1) = visibilityWord.occurs (hit.groupChars 1) ∧
      (hit.whole.stop.ahead = [] ∨ hit'.whole.stop = hit.whole.stop.before debugStatement) := by
  obtain ⟨m, way, moves, chars⟩ := exists_of_matchAt found
  obtain ⟨hit', found'⟩ := exists_matchAt_of_passes (way.before startsWithFeed_debugStatement rfl)
  obtain ⟨m', way', moves', chars'⟩ := exists_of_matchAt found'
  -- both ways end behind the first closing bracket
  obtain rfl : m.before debugStatement = m' := by
    obtain ⟨u, absent, here⟩ := exists_of_passes way
    obtain ⟨u', absent', there⟩ := exists_of_passes way'
    exact (here.before debugStatement).unique_of_not_mem there absent absent'
  have ahead : (m.before debugStatement).ahead = m.ahead ++ debugStatement := rfl
  rw [ahead, List.takeWhile_append] at moves' chars'
  refine ⟨hit', found', ?_⟩
  split at moves'
  · rename_i whole
    have all : m.ahead.takeWhile isModifierChar = m.ahead :=
      (List.takeWhile_prefix _).eq_of_length whole
    rw [if_pos whole] at chars'
    rw [all] at moves chars
    refine ⟨by rw [chars', chars, occurs_visibilityWord_append], .inl ?_⟩
    exact List.append_right_eq_self.1 moves.1.symm
  · rename_i part
    rw [if_neg part] at chars'
    exact ⟨by rw [chars', chars], .inr (moves'.unique (moves.before debugStatement))⟩

/-- Where no header starts, none starts in front of the statement, if the text has a closing bracket
    further on. -/
theorem matchAt_before_eq_none {t : Text} (place : c.IsIn t) (free : functionHeader.matchAt c = none)
    (closing : ')' ∈ c.ahead) : functionHeader.matchAt (c.before debugStatement) = none := by
  rw [Option.eq_none_iff_forall_not_mem]
  intro hit' found'
  obtain ⟨m', way', -, -⟩ := exists_of_matchAt found'
  obtain ⟨u, absent, moves⟩ := exists_of_passes way'
  -- the way ends behind the first closing bracket, which is in the text
  obtain ⟨v, r, split, absent'⟩ := List.eq_append_cons_of_mem closing
  rw [List.append_cons] at split
  obtain ⟨m, here, -⟩ := Cursor.exists_moves split
  obtain rfl := (here.before debugStatement).unique_of_not_mem moves absent' absent
  have inside : (m.before debugStatement).offset ≤ t.length :=
    Nat.le_of_add_right_le (Nat.le_of_eq (here.isIn place).offset_le)
  obtain ⟨e, -, -, way⟩ := way'.of_before startsWithFeed_debugStatement rfl place inside
  obtain ⟨hit, found⟩ := exists_matchAt_of_passes way
  rw [found] at free
  cases free

end

theorem mem_ahead_of_matchAt {c : Cursor} {hit : Hit} (found : functionHeader.matchAt c = some hit) :
    ')' ∈ c.ahead := by
  obtain ⟨m, way, -, -⟩ := exists_of_matchAt found
  obtain ⟨u, -, ahead, -⟩ := exists_of_passes way
  simp [ahead]

/-- The first header behind a place starts at the same place in front of the statement. -/
theorem exists_findFrom_before {t : Text} {b a : List Char} {o : Nat} {hit : Hit}
    (place : (⟨b, a, o⟩ : Cursor).IsIn t)
    (found : (functionHeader.search t).findFrom ⟨b, a, o⟩ = some hit) :
    ')' ∈ a ∧ ∃ hit', (functionHeader.search (t ++ debugStatement)).findFrom
        ((⟨b, a, o⟩ : Cursor).before debugStatement) = some hit' ∧
      visibilityWord.occurs (hit'.groupChars 1) = visibilityWord.occurs (hit.groupChars 1) ∧
      (hit.whole.stop.ahead = [] ∨ hit'.whole.stop = hit.whole.stop.before debugStatement) := by
  induction a generalizing b o with
  | nil => cases found
  | cons x a ih =>
    have there : (functionHeader.search (t ++ debugStatement)).findFrom
        ((⟨b, x :: a, o⟩ : Cursor).before debugStatement) = _ :=
      findFrom_cons rfl (place.before debugStatement)
    rw [there]
    rw [findFrom_cons rfl place, Option.or_eq_some_iff] at found
    rcases found with here | ⟨none, further⟩
    · obtain ⟨hit', found', alike⟩ := exists_matchAt_before here
      exact ⟨mem_ahead_of_matchAt here, hit', Option.or_eq_some_iff.2 (.inl found'), alike⟩
    · obtain ⟨closing, hit', found', alike⟩ := ih place.step further
      have closing' : ')' ∈ x :: a := List.mem_cons_of_mem x closing
      exact ⟨closing', hit', Option.or_eq_some_iff.2
        (.inr ⟨matchAt_before_eq_none place none closing', found'⟩), alike⟩

/-- The functions from a place on that do not say who may call them are no fewer in front of the
    statement. -/
theorem length_unmarked_le {t : Text} {c : Cursor} (place : c.IsIn t) {hits hits' : List Hit}
    (sweep : (functionHeader.search t).Sweep c hits)
    (sweep' : (functionHeader.search (t ++ debugStatement)).Sweep (c.before debugStatement) hits') :
    (hits.filter fun hit => !visibilityWord.occurs (hit.groupChars 1)).length ≤
      (hits'.filter fun hit => !visibilityWord.occurs (hit.groupChars 1)).length := by
  induction sweep generalizing hits' with
  | last none => exact Nat.zero_le _
  | @next c hit hits first later ih =>
    obtain ⟨-, hit', first', words, stop⟩ := exists_findFrom_before place first
    cases sweep' with
    | last none' =>
      rw [first'] at none'
      cases none'
    | @next _ _ hits' found later' =>
      obtain rfl := Option.some.inj (first'.symm.trans found)
      have rest : (hits.filter fun hit => !visibilityWord.occurs (hit.groupChars 1)).length ≤
          (hits'.filter fun hit => !visibilityWord.occurs (hit.groupChars 1)).length := by
        rcases stop with ending | stop
        · -- nothing is left in the text
          cases later with
          | last none => exact Nat.zero_le _
          | next more _ =>
            rw [Search.findFrom, ending] at more
            cases more
        · rw [stop] at later'
          exact ih (functionHeader.findFrom_eq_some place first).2.2.2.1 later'
      rw [List.filter_cons, List.filter_cons, words]
      split
      · exact Nat.succ_le_succ rest
      · exact rest

end Solidity

theorem solidity_eased_debugStatement (t : Text) : Solidity.Eased (t ++ debugStatement) t where
  version found := by rwa [includes_debugStatement (by decide) (by decide)] at found
  functions := Solidity.length_unmarked_le (Cursor.isIn_start t)
    (Solidity.functionHeader.sweep_findAll t)
    (Solidity.functionHeader.sweep_findAll (t ++ debugStatement))

end SourceAudit

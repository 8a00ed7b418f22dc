/-
Module: SourceAudit.Proofs.Deep.LoopBody
Layer: Proofs
Purpose: The body of a block and what a loop waits for in it. The body is the shortest stretch with as
  many opening as closing braces that a closing brace follows, or all of the text where there is none;
  on the way to it the count of open blocks never falls below zero. A loop is reported for what stands
  in its body alone: braces are no part of a word, so words there end where they end in the text.
Main exports: checkedLengthFrom, checkedLengthFrom_eq, ClosedBehind, bracedBody_cases, IsWaiting, Waits,
  blockWaits_iff, waitingLoop?_eq, bracedBody_isolates_loop_body
-/
import SourceAudit.Deep.Hazard
import SourceAudit.Proofs.Pattern.First
import SourceAudit.Proofs.Text.Depth
import SourceAudit.Proofs.Text.WholeWord
import Mathlib.Data.List.Find

namespace SourceAudit

open Pattern Cursor

/-! ### The body of a block -/

/-- The walk to the brace that closes a block, with a count of open blocks that has no value below zero:
    there the walk has no result. -/
def checkedLengthFrom (depth passed : Nat) : Text → Option Nat
  | [] => some passed
  | c :: cs =>
    if c = '{' then checkedLengthFrom (depth + 1) (passed + 1) cs
    else if c = '}' then
      match depth.ppred with
      | none => none
      | some depth => if depth = 0 then some passed else checkedLengthFrom depth (passed + 1) cs
    else checkedLengthFrom depth (passed + 1) cs

/-- The text begins with a stretch that has as many opening as closing braces and that a closing brace
    follows. -/
def ClosedBehind (body t : Text) : Prop := body.count '{' = body.count '}' ∧ body ++ ['}'] <+: t

section

variable {depth passed : Nat} {t body : Text}

/-- As long as a block is open, the count of open blocks has a value. -/
theorem checkedLengthFrom_eq (inside : 0 < depth) :
    checkedLengthFrom depth passed t = some (bodyLengthFrom depth passed t) := by
  induction t generalizing depth passed with
  | nil => rfl
  | cons c cs ih =>
    rw [checkedLengthFrom, bodyLengthFrom]
    obtain ⟨outer, rfl⟩ := Nat.exists_eq_add_of_le' inside
    split_ifs with opens closes last
    · exact ih (Nat.succ_pos _)
    · obtain rfl : outer = 0 := by omega
      rfl
    · exact (if_neg (by omega)).trans (ih (by omega))
    · exact ih inside

/-- The body ends where the depth is zero for the first time. -/
theorem bodyLengthFrom_eq (inside : 0 < depth) : bodyLengthFrom depth passed t =
    passed + (firstZero depth (t.map (turn '{' '}'))).getD t.length := by
  induction t generalizing depth passed with
  | nil => rfl
  | cons c cs ih =>
    have onward (d : Nat) (step : (d : Int) = depth + turn '{' '}' c) (inside : 0 < d) :
        bodyLengthFrom d (passed + 1) cs =
          passed + (firstZero depth ((c :: cs).map (turn '{' '}'))).getD (c :: cs).length := by
      rw [ih inside, List.map_cons, firstZero_cons, ← step, if_neg (by omega), List.length_cons]
      cases firstZero d (cs.map (turn '{' '}')) <;> simp only [Option.map_none, Option.map_some,
        Option.getD_none, Option.getD_some] <;> omega
    rw [bodyLengthFrom]
    split_ifs with opens closes last
    · exact onward (depth + 1) (by rw [opens, turn_opening]; rfl) (Nat.succ_pos _)
    · have up : (depth : Int) + turn '{' '}' c = 0 := by
        rw [closes, turn_closing (by decide)]
        omega
      rw [List.map_cons, firstZero_cons, if_pos up]
      rfl
    · refine onward (depth - 1) ?_ (by omega)
      rw [closes, turn_closing (by decide)]
      omega
    · exact onward depth (by rw [turn_other opens closes]; rfl) inside

theorem bodyLength_eq (t : Text) :
    bodyLength t = (firstZero 1 (t.map (turn '{' '}'))).getD t.length := by
  rw [bodyLength, bodyLengthFrom_eq Nat.one_pos, Nat.zero_add]
  rfl

/-- Behind a stretch and a closing brace, the depth tells by how much the braces of the stretch differ. -/
theorem depth_behind (closes : body ++ ['}'] <+: t) :
    1 + ((t.map (turn '{' '}')).take (body.length + 1)).sum = (body.count '{' : Int) - body.count '}' := by
  obtain ⟨after, rfl⟩ := closes
  have front : (body ++ ['}'] ++ after).take (body.length + 1) = body ++ ['}'] :=
    List.take_left' (List.length_append)
  rw [← List.map_take, front, List.map_append, List.sum_append, sum_turns (by decide), List.map_singleton,
    List.sum_singleton, turn_closing (by decide)]
  omega

theorem ClosedBehind.depth_eq_zero (closed : ClosedBehind body t) :
    1 + ((t.map (turn '{' '}')).take (body.length + 1)).sum = 0 := by
  rw [depth_behind closed.2, closed.1]
  omega

theorem ClosedBehind.length_lt (closed : ClosedBehind body t) :
    body.length < (t.map (turn '{' '}')).length := by
  have within := closed.2.length_le
  rw [List.length_append, List.length_singleton] at within
  rwa [List.length_map]

theorem closedBehind_take {n : Nat} (zero : firstZero 1 (t.map (turn '{' '}')) = some n) :
    ClosedBehind (t.take n) t := by
  have single : ∀ x ∈ t.map (turn '{' '}'), -1 ≤ x :=
    List.forall_mem_map.2 fun c _ => neg_one_le_turn '{' '}' c
  have up := getElem?_of_firstZero single Int.one_pos zero
  obtain ⟨inside, balanced, -⟩ := firstZero_eq_some_iff.1 zero
  rw [List.getElem?_map, Option.map_eq_some_iff] at up
  obtain ⟨c, here, up⟩ := up
  obtain rfl := eq_closing_of_turn up
  have closes : t.take n ++ ['}'] <+: t := by
    have front := List.take_prefix (n + 1) t
    rwa [List.take_add_one, here] at front
  refine ⟨?_, closes⟩
  have length : (t.take n).length = n := List.length_take_of_le (by rw [List.length_map] at inside; omega)
  have depth := depth_behind closes
  rw [length, balanced] at depth
  omega

/-- The body is the shortest stretch that is closed behind it, or all of the text where there is none. -/
theorem bracedBody_cases (t : Text) :
    ClosedBehind (bracedBody t) t ∧
        (∀ body, ClosedBehind body t → (bracedBody t).length ≤ body.length) ∨
      bracedBody t = t ∧ ∀ body, ¬ ClosedBehind body t := by
  rw [bracedBody, bodyLength_eq]
  cases zero : firstZero 1 (t.map (turn '{' '}')) with
  | none =>
    refine .inr ⟨List.take_length, fun body closed => ?_⟩
    exact firstZero_eq_none_iff.1 zero _ closed.length_lt closed.depth_eq_zero
  | some n =>
    refine .inl ⟨closedBehind_take zero, fun body closed => ?_⟩
    obtain ⟨-, -, first⟩ := firstZero_eq_some_iff.1 zero
    refine (List.length_take_le n t).trans (Nat.le_of_not_lt fun earlier => ?_)
    exact first body.length earlier closed.depth_eq_zero

end

/-! ### Waiting for a result -/

/-- These characters wait for a result: a chained call, or the word beside which no word character
    stands. -/
def IsWaiting (before cs after : Text) : Prop :=
  cs = ".then(".toList ∨ cs = "await".toList ∧ (∀ y ∈ before.getLast?, isWordChar y = false) ∧
    ∀ y ∈ after.head?, isWordChar y = false

/-- Somewhere in the text a result is waited for. -/
def Waits (t : Text) : Prop := StandsWhole "await".toList t ∨ ".then(".toList <:+: t

section

variable {before cs after front t u v body tail : Text}

theorem waits_iff : Waits t ↔ ∃ u cs v, t = u ++ (cs ++ v) ∧ IsWaiting u cs v := by
  rw [Waits, standsWhole_iff (x := 'a') (y := 't') rfl rfl (by decide) (by decide)]
  constructor
  · rintro (⟨u, v, rfl, apart, apart'⟩ | ⟨u, v, rfl⟩)
    · exact ⟨u, _, v, rfl, .inr ⟨rfl, apart, apart'⟩⟩
    · exact ⟨u, _, v, List.append_assoc u _ v, .inl rfl⟩
  · rintro ⟨u, _, v, rfl, rfl | ⟨rfl, apart, apart'⟩⟩
    · exact .inr ⟨u, v, List.append_assoc u _ v⟩
    · exact .inl ⟨u, v, rfl, apart, apart'⟩

theorem spells_waiting {kept : List (Nat × Text)} :
    waiting.Spells before cs after kept ↔ IsWaiting before cs after ∧ kept = [] := by
  have start (a : Text) : Edge.word.holds (between before ("await".toList ++ a)) = true ↔
      ∀ y ∈ before.getLast?, isWordChar y = false := wordStart_holds_iff (x := 'a') rfl (by decide)
  have letters : "await".toList.all isWordChar = true := by decide
  have stop : Edge.word.holds (between (before ++ "await".toList) after) = true ↔
      ∀ y ∈ after.head?, isWordChar y = false := wordEnd_holds_iff (by decide) (List.all_eq_true.1 letters)
  rw [waiting, spells_or, spells_text]
  constructor
  · rintro (⟨_, _, _, _, rfl, rfl, ⟨_, _, _, _, rfl, rfl, ⟨⟨edge, rfl⟩, rfl⟩, word⟩,
      ⟨⟨edge', rfl⟩, rfl⟩⟩ | ⟨rfl, rfl⟩)
    · obtain ⟨rfl, rfl⟩ := spells_text.1 word
      exact ⟨.inr ⟨rfl, (start _).1 edge, stop.1 edge'⟩, rfl⟩
    · exact ⟨.inl rfl, rfl⟩
  · rintro ⟨rfl | ⟨rfl, apart, apart'⟩, rfl⟩
    · exact .inr ⟨rfl, rfl⟩
    · refine .inl ⟨"await".toList, [], [], [], rfl, rfl, ?_, ⟨⟨stop.2 apart', rfl⟩, rfl⟩⟩
      exact ⟨[], "await".toList, [], [], rfl, rfl, ⟨⟨(start _).2 apart, rfl⟩, rfl⟩,
        spells_text.2 ⟨rfl, rfl⟩⟩

theorem IsWaiting.not_mem (waits : IsWaiting before cs after) : '}' ∉ cs := by
  rcases waits with rfl | ⟨rfl, -, -⟩ <;> decide

theorem IsWaiting.ne_nil (waits : IsWaiting before cs after) : cs ≠ [] := by
  rcases waits with rfl | ⟨rfl, -, -⟩ <;> decide

/-- Whether a result is waited for is read off the two neighbours. -/
theorem IsWaiting.congr {before' after' : Text} (waits : IsWaiting before cs after)
    (front : ∀ y ∈ before'.getLast?, y ∈ before.getLast? ∨ isWordChar y = false)
    (back : ∀ y ∈ after'.head?, y ∈ after.head? ∨ isWordChar y = false) :
    IsWaiting before' cs after' := by
  refine waits.imp id ?_
  rintro ⟨rfl, apart, apart'⟩
  exact ⟨rfl, fun y last => (front y last).elim (apart y) id,
    fun y first => (back y first).elim (apart' y) id⟩

theorem occurs_waiting_iff : waiting.occurs t = true ↔ Waits t := by
  rw [occurs_iff_spells rfl, waits_iff]
  simp only [spells_waiting, exists_eq_right, exists_and_left]

theorem spells_nextWaiting (waits : IsWaiting (before ++ u) cs after) :
    nextWaiting.Spells before (u ++ cs) after [(1, cs)] :=
  ⟨u, cs, [], [(1, cs)], rfl, rfl, ⟨⟨Nat.zero_le _, fun _ _ => rfl⟩, rfl⟩,
    spells_group.2 ⟨[], spells_waiting.2 ⟨waits, rfl⟩, rfl⟩⟩

/-- A block waits if something that waits starts in its body. -/
theorem blockWaits_iff {rest : Text} (place : (between before rest).IsIn t) :
    blockWaits (nextWaiting.search t) (between before rest) = true ↔ ∃ u cs after,
      rest = u ++ (cs ++ after) ∧ u.length < bodyLength rest ∧ IsWaiting (before ++ u) cs after := by
  rw [blockWaits, hitAt_eq_matchAt (p := nextWaiting) rfl place]
  cases found : nextWaiting.matchAt (between before rest) with
  | none =>
    constructor
    · intro near
      cases near
    · rintro ⟨u, cs, after, rfl, -, waits⟩
      have spelled := spells_nextWaiting waits
      exact absurd spelled (matchAt_between_eq_none_iff.1 found _ _ _ (List.append_assoc u cs after).symm)
  | some hit =>
    obtain ⟨u, cs, after, kept, rfl, group, spelled, first⟩ := exists_spells_of_matchAt_leap found
    rw [Option.bind_some, group]
    simp only [between, List.length_append, decide_eq_true_eq, Nat.add_lt_add_iff_left]
    constructor
    · intro near
      exact ⟨u, cs, after, rfl, near, (spells_waiting.1 spelled).1⟩
    · rintro ⟨u', cs', after', split, near, waits⟩
      exact (first u' cs' after' [] split (spells_waiting.2 ⟨waits, rfl⟩)).trans_lt near

/-- What waits in a text still waits in a longer one, unless a word goes on where the text ended. -/
theorem Waits.append (waits : Waits body) (ends : ∀ y ∈ tail.head?, isWordChar y = false) :
    Waits (body ++ tail) := by
  obtain ⟨u, cs, v, rfl, here⟩ := waits_iff.1 waits
  refine waits_iff.2 ⟨u, cs, v ++ tail, by simp only [List.append_assoc], here.congr (fun _ => .inl) ?_⟩
  cases v with
  | nil => exact fun y first => .inr (ends y first)
  | cons z v => exact fun y first => .inl first

end

/-! ### What waits in the body of a loop -/

theorem length_bracedBody (t : Text) : (bracedBody t).length = bodyLength t := by
  refine List.length_take_of_le ?_
  rw [bodyLength_eq]
  cases zero : firstZero 1 (t.map (turn '{' '}')) with
  | none => exact Nat.le_refl _
  | some n =>
    obtain ⟨inside, -, -⟩ := firstZero_eq_some_iff.1 zero
    exact (List.length_map (turn '{' '}') ▸ inside).le

/-- Behind the body stands a closing brace, or nothing. -/
theorem exists_bracedBody_append (t : Text) :
    ∃ tail, t = bracedBody t ++ tail ∧ ∀ y ∈ tail.head?, y = '}' := by
  rcases bracedBody_cases t with ⟨⟨-, after, whole⟩, -⟩ | ⟨whole, -⟩
  · refine ⟨'}' :: after, by simpa using whole.symm, fun y first => (Option.some.inj first).symm⟩
  · exact ⟨[], by rw [whole, List.append_nil], fun y first => nomatch first⟩

/-- What starts before a closing brace and has none in it ends before the brace. -/
theorem exists_of_starts_before_brace {body tail u cs after : Text} (closing : ∀ y ∈ tail.head?, y = '}')
    (braceless : '}' ∉ cs) (near : u.length < body.length) (same : body ++ tail = u ++ (cs ++ after)) :
    ∃ v, body = u ++ cs ++ v ∧ after = v ++ tail := by
  rw [← List.append_assoc] at same
  obtain ⟨v, outer, rest⟩ | ⟨v, inner, rest⟩ := List.append_eq_append_iff.1 same
  · cases v with
    | nil => exact ⟨[], by simpa using outer.symm, by simpa using rest.symm⟩
    | cons y v =>
      -- the brace behind the body would be one of the characters
      obtain rfl := closing y (by rw [rest]; rfl)
      obtain ⟨d, rfl⟩ : u <+: body :=
        List.prefix_of_prefix_length_le ⟨cs, rfl⟩ ⟨_, outer.symm⟩ near.le
      rw [List.append_assoc] at outer
      obtain rfl := List.append_cancel_left outer
      exact absurd (by simp) braceless
  · exact ⟨v, inner, rest⟩

section

variable {t front rest : Text} {head : Hit}

/-- Behind an opening brace, something that waits starts in the body exactly if the body alone, read as
    a text, waits for a result. -/
theorem starts_in_body_iff (opened : front.getLast? = some '{') :
    (∃ u cs after, rest = u ++ (cs ++ after) ∧ u.length < bodyLength rest ∧
      IsWaiting (front ++ u) cs after) ↔ Waits (bracedBody rest) := by
  obtain ⟨tail, split, closing⟩ := exists_bracedBody_append rest
  rw [waits_iff, ← length_bracedBody]
  generalize bracedBody rest = body at split
  subst split
  constructor
  · rintro ⟨u, cs, after, same, near, waits⟩
    obtain ⟨v, rfl, rfl⟩ := exists_of_starts_before_brace closing waits.not_mem near same
    refine ⟨u, cs, v, List.append_assoc u cs v, waits.congr (fun y last => .inl ?_) fun y first => .inl ?_⟩
    · exact List.mem_getLast?_append_of_mem_getLast? last
    · exact List.mem_head?_append_of_mem_head? first
  · rintro ⟨u, cs, v, rfl, waits⟩
    have some := List.length_pos_of_ne_nil waits.ne_nil
    refine ⟨u, cs, v ++ tail, by simp only [List.append_assoc], ?_, waits.congr ?_ ?_⟩
    · simp only [List.length_append]
      omega
    · intro y last
      rcases u.eq_nil_or_concat' with rfl | ⟨u, z, rfl⟩
      · rw [List.append_nil, opened] at last
        exact .inr (by rw [← Option.some.inj last]; decide)
      · exact .inl (by simpa using last)
    · cases v with
      | nil => exact fun y first => .inr (by rw [closing y first]; decide)
      | cons z v => exact fun y first => .inl first

/-- A loop's head ends in the brace that opens its body. -/
theorem exists_of_mem_loopHead (mem : head ∈ loopHead.findAll t) : ∃ before inner rest,
    t = before ++ (head.chars ++ rest) ∧ head.chars = inner ++ ['{'] ∧
      head.whole = ⟨between before (head.chars ++ rest), between (before ++ head.chars) rest⟩ := by
  obtain ⟨way, place⟩ := loopHead.keeps_of_mem_findAll mem
  obtain ⟨before, cs, rest, rfl, start, stop, spelled⟩ := exists_spells_of_keeps place way
  have whole : head.whole = ⟨between before (cs ++ rest), between (before ++ cs) rest⟩ := by
    rw [← start, ← stop]
  have chars : head.chars = cs := by
    rw [Hit.chars, whole]
    exact (moves_between before cs rest).chars
  obtain ⟨inner, _, _, _, rfl, -, -, brace⟩ := spells_append.1 spelled
  obtain ⟨rfl, -⟩ := spells_text.1 brace
  exact ⟨before, inner, rest, by rw [chars], chars, by rw [chars, whole]⟩

/-- Whether a loop is reported depends on its body alone. -/
theorem blockWaits_eq (mem : head ∈ loopHead.findAll t) : blockWaits (nextWaiting.search t) head.whole.stop =
    waiting.occurs (bracedBody head.whole.stop.ahead) := by
  obtain ⟨before, inner, rest, split, chars, whole⟩ := exists_of_mem_loopHead mem
  have place : (between (before ++ head.chars) rest).IsIn t := by
    rw [split, ← List.append_assoc]
    exact isIn_between _ _
  rw [whole, Bool.eq_iff_iff, blockWaits_iff place, occurs_waiting_iff]
  exact starts_in_body_iff (by rw [chars]; simp)

/-- The reported loop is the first one whose body waits for a result. -/
theorem waitingLoop?_eq (t : Text) : waitingLoop? t =
    (loopHead.findAll t).find? fun head => waiting.occurs (bracedBody head.whole.stop.ahead) :=
  List.find?_congr fun _ mem => blockWaits_eq mem

/-- What the body waits for stands in every stretch that is closed behind it. -/
theorem ClosedBehind.waits {body : Text} (closed : ClosedBehind body t) (waits : Waits (bracedBody t)) :
    Waits body := by
  rcases bracedBody_cases t with ⟨⟨-, ends⟩, shortest⟩ | ⟨-, never⟩
  · obtain ⟨more, rfl⟩ : bracedBody t <+: body := List.prefix_of_prefix_length_le
      ((List.prefix_append _ _).trans ends) ((List.prefix_append _ _).trans closed.2) (shortest body closed)
    refine waits.append fun y first => ?_
    obtain ⟨m, rfl⟩ : ∃ m, more = y :: m := List.head?_eq_some_iff.1 first
    obtain ⟨after, whole⟩ := closed.2
    obtain ⟨after', whole'⟩ := ends
    have same := whole'.trans whole.symm
    simp only [List.append_assoc, List.cons_append, List.append_cancel_left_eq, List.cons.injEq] at same
    rw [← same.1]
    decide
  · exact absurd closed (never body)

/-- The body of a loop is the shortest stretch behind its head that has as many opening as closing
    braces and that a closing brace follows, or all that follows the head where there is none, and the
    count of open blocks on the way there never falls below zero. The reported loop is the first whose
    body, read as a text of its own, waits for a result; so nothing that waits behind the closing brace
    of a loop makes the loop one that is reported. -/
theorem bracedBody_isolates_loop_body :
    (∀ t : Text, checkedLengthFrom 1 0 t = some (bracedBody t).length ∧
      (ClosedBehind (bracedBody t) t ∧
          (∀ body, ClosedBehind body t → (bracedBody t).length ≤ body.length) ∨
        bracedBody t = t ∧ ∀ body, ¬ ClosedBehind body t)) ∧
    (∀ t : Text, waitingLoop? t =
      (loopHead.findAll t).find? fun head => waiting.occurs (bracedBody head.whole.stop.ahead)) ∧
    ∀ (t : Text) (head : Hit) (before body after : Text),
      t = before ++ (head.chars ++ (body ++ '}' :: after)) → head.offset = before.length →
      body.count '{' = body.count '}' → ¬ Waits body → waitingLoop? t ≠ some head := by
  refine ⟨fun t => ⟨?_, bracedBody_cases t⟩, waitingLoop?_eq, ?_⟩
  · rw [checkedLengthFrom_eq Nat.one_pos, length_bracedBody]
    rfl
  · intro t head before body after parts start balanced silent found
    rw [waitingLoop?_eq] at found
    have reported := List.find?_some found
    obtain ⟨before', -, rest, parts', -, whole⟩ := exists_of_mem_loopHead (List.mem_of_find?_eq_some found)
    have length : before'.length = before.length := by
      rw [← start, Hit.offset, whole]
      rfl
    obtain ⟨-, behind⟩ := List.append_inj (parts'.symm.trans parts) length
    obtain rfl := List.append_cancel_left behind
    rw [whole] at reported
    have closed : ClosedBehind body (body ++ '}' :: after) := ⟨balanced, after, by simp⟩
    exact silent (closed.waits (occurs_waiting_iff.1 reported))

/-- A call that is awaited behind a loop does not make the loop a reported one. -/
theorem loop_before_await_unreported :
    let t := "for (const id of ids) \x7b queue(id); \x7d await flush();".toList
    ∃ head, loopHead.find t = some head ∧ head.chars = "for (const id of ids) \x7b".toList ∧
      waitingLoop? t ≠ some head := by
  intro t
  obtain ⟨head, found⟩ : ∃ head, loopHead.find t = some head :=
    Option.isSome_iff_exists.1 (by decide +kernel)
  have chars : (loopHead.find t).map Hit.chars = some "for (const id of ids) \x7b".toList := by
    decide +kernel
  have start : (loopHead.find t).map Hit.offset = some 0 := by decide +kernel
  have silent : waiting.occurs " queue(id); ".toList = false := by decide +kernel
  rw [found, Option.map_some, Option.some.injEq] at chars start
  refine ⟨head, found, chars, ?_⟩
  refine bracedBody_isolates_loop_body.2.2 t head [] " queue(id); ".toList " await flush();".toList
    ?_ start (by decide) fun waits => ?_
  · rw [chars]
    decide +kernel
  · rw [occurs_waiting_iff.2 waits] at silent
    cases silent

end

end SourceAudit

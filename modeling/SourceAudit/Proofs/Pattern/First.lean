/-
Module: SourceAudit.Proofs.Pattern.First
Layer: Proofs
Purpose: Matches, replacements and searches told by texts. A match spells what it covers; a replacement
  reads the text match by match; a search finds the first match behind a place, and where it finds
  nothing, the pattern spells nothing.
Main exports: Pattern.exists_spells_of_matchAt, Pattern.matchAt_between_eq_none_iff,
  Pattern.exists_spells_of_matchAt_fewest, Pattern.exists_spells_of_matchAt_leap,
  Pattern.exists_spells_of_matchAt_longest, Pattern.Edits.exists_of_found,
  Pattern.Edits.exists_of_silent, Pattern.keeps_replaceAll, Pattern.forall₂_findAll_flatMap,
  Pattern.findFrom_between_eq_none, Pattern.exists_spells_of_findFrom
-/
import SourceAudit.Proofs.Pattern.Edits
import SourceAudit.Proofs.Pattern.Spelling

namespace SourceAudit

namespace Pattern

open Cursor

variable {p : Pattern}

theorem Keeps.exists_between {before rest : Text} {d : Cursor} {groups : Groups}
    (way : p.Keeps (between before rest) d groups) : ∃ cs after, rest = cs ++ after ∧
      d = between (before ++ cs) after ∧ p.Spells before cs after (keptTexts groups) := by
  have inside := isIn_between before rest
  obtain ⟨place, below, -⟩ := way.passes.isIn inside
  obtain ⟨before', cs, after, -, here, rfl⟩ := inside.exists_between_between place below
  obtain ⟨rfl, rfl⟩ := between_inj here
  exact ⟨cs, after, rfl, rfl, way.spells⟩

/-- A match spells what it covers. -/
theorem exists_spells_of_matchAt {before rest : Text} {hit : Hit}
    (found : p.matchAt (between before rest) = some hit) : ∃ cs after, rest = cs ++ after ∧
      hit.whole = ⟨between before rest, between (before ++ cs) after⟩ ∧
      p.Spells before cs after (keptTexts hit.groups) := by
  obtain ⟨start, way⟩ := keeps_of_matchAt found
  obtain ⟨cs, after, rfl, stop, spelled⟩ := way.exists_between
  exact ⟨cs, after, rfl, by rw [← start, ← stop], spelled⟩

/-- A match covers its characters. -/
theorem exists_chars_of_matchAt {before rest : Text} {hit : Hit}
    (found : p.matchAt (between before rest) = some hit) : ∃ after, rest = hit.chars ++ after ∧
      hit.whole.stop = between (before ++ hit.chars) after ∧
      p.Spells before hit.chars after (keptTexts hit.groups) := by
  obtain ⟨cs, after, rfl, whole, spelled⟩ := exists_spells_of_matchAt found
  obtain rfl : hit.chars = cs := by
    rw [Hit.chars, whole]
    exact (moves_between before cs after).chars
  exact ⟨after, rfl, by rw [whole], spelled⟩

/-- There is no match at a place exactly if the pattern spells nothing there. -/
theorem matchAt_between_eq_none_iff {before rest : Text} :
    p.matchAt (between before rest) = none ↔
      ∀ cs after kept, rest = cs ++ after → ¬ p.Spells before cs after kept := by
  constructor
  · rintro none cs after kept rfl spelled
    exact (matchAt_eq_none_iff p _).1 none _ spelled.passes
  · intro silent
    cases found : p.matchAt (between before rest) with
    | none => rfl
    | some hit =>
      obtain ⟨cs, after, split, -, spelled⟩ := exists_spells_of_matchAt found
      exact absurd spelled (silent cs after _ split)

/-- A stretch that is kept as short as possible ends where the rest of the pattern is first spelled. -/
theorem exists_spells_of_matchAt_fewest {q : Pattern} {index : Nat} {set : Char → Bool}
    {before rest : Text} {hit : Hit}
    (found : (p ++ group index (fewest set 0) ++ q).matchAt (between before rest) = some hit) :
    ∃ xs cs ys after first last, rest = xs ++ (cs ++ (ys ++ after)) ∧
      hit.whole.stop = between (before ++ xs ++ cs ++ ys) after ∧
      p.Spells before xs (cs ++ (ys ++ after)) first ∧
      q.Spells (before ++ xs ++ cs) ys after last ∧
      keptTexts hit.groups = first ++ (index, cs) :: last ∧
      ∀ front back ys' after' kept, cs = front ++ back → back ≠ [] →
        back ++ (ys ++ after) = ys' ++ after' → ¬ q.Spells (before ++ xs ++ front) ys' after' kept := by
  obtain ⟨m, cs, d, kept, kept', way, moves, onward, groups, first⟩ := exists_of_matchAt_fewest found
  obtain ⟨xs, rest', rfl, rfl, spelled⟩ := way.exists_between
  have split : rest' = cs ++ d.ahead := moves.1
  obtain ⟨r, rfl⟩ : ∃ r, rest' = cs ++ r := ⟨d.ahead, split⟩
  obtain rfl := moves.unique (moves_between (before ++ xs) cs r)
  obtain ⟨ys, after, rfl, stop, spelled'⟩ := onward.exists_between
  refine ⟨xs, cs, ys, after, _, _, rfl, stop, spelled, spelled', ?_, ?_⟩
  · rw [groups, keptTexts, List.map_append, List.map_cons, moves.chars]
    rfl
  · rintro front back ys' after' _ rfl some same spelled''
    obtain ⟨x, back, rfl⟩ := List.exists_cons_of_ne_nil some
    have place := moves_between (before ++ xs) front (x :: back ++ (ys ++ after))
    rw [List.append_assoc] at first
    have passed := spelled''.passes
    rw [← same] at passed
    exact first front x back _ rfl place _ passed

/-- A part that is kept behind as little as possible stands where it is first spelled. -/
theorem exists_spells_of_matchAt_leap {q : Pattern} {index : Nat} {before rest : Text} {hit : Hit}
    (found : (leap ++ group index q).matchAt (between before rest) = some hit) :
    ∃ cs ys after kept, rest = cs ++ (ys ++ after) ∧
      hit.group? index = some ⟨between (before ++ cs) (ys ++ after), hit.whole.stop⟩ ∧
      q.Spells (before ++ cs) ys after kept ∧
      ∀ u ys' after' kept', rest = u ++ (ys' ++ after') → q.Spells (before ++ u) ys' after' kept' →
        cs.length ≤ u.length := by
  obtain ⟨cs, d, kept, moves, way, groups, first⟩ := exists_of_matchAt_leap found
  obtain ⟨r, rfl⟩ : ∃ r, rest = cs ++ r := ⟨d.ahead, moves.1⟩
  obtain rfl := moves.unique (moves_between before cs r)
  obtain ⟨ys, after, rfl, -, spelled⟩ := way.exists_between
  refine ⟨cs, ys, after, _, rfl, ?_, spelled, ?_⟩
  · rw [Hit.group?, groups, List.lookup_cons_self]
  intro u ys' after' kept' split spelled'
  by_contra shorter
  obtain ⟨back, rfl⟩ : u <+: cs :=
    List.prefix_of_prefix_length_le ⟨_, split.symm⟩ (List.prefix_append cs _) (by omega)
  cases back with
  | nil => simp at shorter
  | cons x back =>
    have place := moves_between before u (ys' ++ after')
    rw [← split] at place
    exact first u x back _ rfl place _ spelled'.passes

/-- A stretch that is kept as long as possible leaves no characters of its set behind it from where the
    rest of the pattern could be spelled as well. -/
theorem exists_spells_of_matchAt_longest {q : Pattern} {index least : Nat} {set : Char → Bool}
    {before rest : Text} {hit : Hit}
    (found : (p ++ group index (most set least) ++ q).matchAt (between before rest) = some hit) :
    ∃ xs cs ys after first last, rest = xs ++ (cs ++ (ys ++ after)) ∧
      p.Spells before xs (cs ++ (ys ++ after)) first ∧ (∀ x ∈ cs, set x = true) ∧
      q.Spells (before ++ xs ++ cs) ys after last ∧
      keptTexts hit.groups = first ++ (index, cs) :: last ∧
      ∀ more ys' after' kept, more ≠ [] → (∀ x ∈ more, set x = true) →
        ys ++ after = more ++ (ys' ++ after') → ¬ q.Spells (before ++ xs ++ cs ++ more) ys' after' kept := by
  obtain ⟨m, cs, d, kept, kept', way, all, moves, onward, groups, longest⟩ :=
    exists_of_matchAt_longest found
  obtain ⟨xs, rest', rfl, rfl, spelled⟩ := way.exists_between
  obtain ⟨r, rfl⟩ : ∃ r, rest' = cs ++ r := ⟨d.ahead, moves.1⟩
  obtain rfl := moves.unique (moves_between (before ++ xs) cs r)
  obtain ⟨ys, after, rfl, stop, spelled'⟩ := onward.exists_between
  refine ⟨xs, cs, ys, after, _, _, rfl, spelled, all, spelled', ?_, ?_⟩
  · rw [groups, keptTexts, List.map_append, List.map_cons, moves.chars]
    rfl
  · rintro more ys' after' kept'' some all' same spelled''
    have farther := moves_between (before ++ xs) (cs ++ more) (ys' ++ after')
    rw [List.append_assoc, ← same, ← List.append_assoc (before ++ xs)] at farther
    refine longest (cs ++ more) _ ?_ (List.forall_mem_append.2 ⟨all, all'⟩) farther _ spelled''.passes
    have positive := List.length_pos_of_ne_nil some
    rw [List.length_append]
    omega

/-- What the pattern spells is not nothing. -/
theorem Spells.exists_cons (moves : p.isSkippable = false) {before cs after : Text} {kept : List (Nat × Text)}
    (spelled : p.Spells before cs after kept) : ∃ x xs, cs = x :: xs := by
  have less := (spelled.passes.isIn (isIn_between before (cs ++ after))).2.2 moves
  cases cs with
  | nil => simp at less
  | cons x xs => exact ⟨x, xs, rfl⟩

/-! ### Replacements -/

section

variable {new : Hit → Text} {before u rest after : Text} {hits : List Hit}

theorem matchAt_end (moves : p.isSkippable = false) : p.matchAt (between before []) = none := by
  rw [matchAt_between_eq_none_iff]
  intro cs r kept split spelled
  obtain ⟨x, xs, rfl⟩ := spelled.exists_cons moves
  cases split

/-- Where a match starts, it is replaced. -/
theorem Edits.exists_of_found (moves : p.isSkippable = false) {hit : Hit}
    (edits : p.Edits new (between before rest) hits after)
    (found : p.matchAt (between before rest) = some hit) :
    ∃ hits' after', hits = hit :: hits' ∧ after = new hit ++ after' ∧
      p.Edits new hit.whole.stop hits' after' := by
  generalize place : between before rest = c at edits
  cases edits with
  | done =>
    obtain rfl : rest = [] := congrArg Cursor.ahead place
    cases (matchAt_end moves).symm.trans found
  | pass none =>
    rw [place, none] at found
    cases found
  | swap found' later =>
    rw [place, found'] at found
    obtain rfl := Option.some.inj found
    exact ⟨_, _, rfl, rfl, later⟩

/-- Where no match starts, one character is passed and stays. -/
theorem Edits.exists_of_none {x : Char} (edits : p.Edits new (between before (x :: rest)) hits after)
    (none : p.matchAt (between before (x :: rest)) = none) :
    ∃ after', after = x :: after' ∧ p.Edits new (between (before ++ [x]) rest) hits after' := by
  generalize place : between before (x :: rest) = c at edits
  cases edits with
  | done => cases place
  | pass _ later =>
    cases place
    exact ⟨_, rfl, by simpa [between] using later⟩
  | swap found =>
    rw [place, found] at none
    cases none

/-- A stretch in which no match starts is passed and stays. -/
theorem Edits.exists_of_silent
    (silent : ∀ a b, u = a ++ b → b ≠ [] → p.matchAt (between (before ++ a) (b ++ rest)) = none)
    (edits : p.Edits new (between before (u ++ rest)) hits after) :
    ∃ after', after = u ++ after' ∧ p.Edits new (between (before ++ u) rest) hits after' := by
  induction u generalizing before after with
  | nil => exact ⟨after, rfl, by simpa using edits⟩
  | cons x u ih =>
    have none := silent [] (x :: u) rfl (by simp)
    rw [List.append_nil] at none
    obtain ⟨after', rfl, later⟩ := edits.exists_of_none none
    obtain ⟨after'', rfl, edits'⟩ := ih (fun a b split some => by
      simpa using silent (x :: a) b (by simp [split]) some) later
    exact ⟨after'', rfl, by simpa using edits'⟩

theorem edits_between_replaceAll (moves : p.isSkippable = false) (new : Hit → Text) (t : Text) :
    p.Edits new (between [] t) (p.findAll t) (p.replaceAll new t) :=
  edits_replaceAll moves new t

/-- What each replacement keeps of its match, the edited text keeps of the text. -/
theorem Edits.keeps {R : Text → Text → Prop} (nil : R [] [])
    (cons : ∀ x {a b : Text}, R a b → R (x :: a) (x :: b))
    (swap : ∀ before rest hit, p.matchAt (between before rest) = some hit →
      ∀ {a b : Text}, R a b → R (hit.chars ++ a) (new hit ++ b))
    (edits : p.Edits new (between before rest) hits after) : R rest after := by
  generalize place : between before rest = c at edits
  induction edits generalizing before rest with
  | done =>
    obtain rfl : rest = [] := congrArg Cursor.ahead place
    exact nil
  | @pass b a o x hits after none later ih =>
    obtain rfl : rest = x :: a := congrArg Cursor.ahead place
    refine cons x (ih (show between (before ++ [x]) a = _ from ?_))
    cases place
    simp [between]
  | swap found later ih =>
    rw [← place] at found
    obtain ⟨after', rfl, stop, -⟩ := exists_chars_of_matchAt found
    exact swap _ _ _ found (ih stop.symm)

theorem keeps_replaceAll {R : Text → Text → Prop} (moves : p.isSkippable = false) (nil : R [] [])
    (cons : ∀ x {a b : Text}, R a b → R (x :: a) (x :: b))
    (swap : ∀ before rest hit, p.matchAt (between before rest) = some hit →
      ∀ {a b : Text}, R a b → R (hit.chars ++ a) (new hit ++ b)) (t : Text) :
    R t (p.replaceAll new t) :=
  (edits_between_replaceAll moves new t).keeps nil cons swap

/-- At the end of the text, nothing is left to be replaced. -/
theorem Edits.eq_nil (moves : p.isSkippable = false) (edits : p.Edits new (between before []) hits after) :
    hits = [] ∧ after = [] := by
  generalize place : between before [] = c at edits
  cases edits with
  | done => exact ⟨rfl, rfl⟩
  | pass => cases place
  | swap found =>
    rw [← place, matchAt_end moves] at found
    cases found

/-- Where a text is made of parts, and in each of them either nothing is matched or just the whole part,
    the matches are the parts of the second sort. -/
theorem forall₂_findAll_flatMap {α : Type} {part : α → Text} {isMatched : α → Bool} {Q : α → Hit → Prop}
    (moves : p.isSkippable = false)
    (matched : ∀ a before after, isMatched a = true →
      ∃ hit, p.matchAt (between before (part a ++ after)) = some hit ∧
        hit.whole.stop = between (before ++ part a) after ∧ Q a hit)
    (silent : ∀ a before u v after, isMatched a = false → part a = u ++ v → v ≠ [] →
      p.matchAt (between (before ++ u) (v ++ after)) = none) (as : List α) :
    List.Forall₂ Q (as.filter isMatched) (p.findAll (as.flatMap part)) := by
  have read {before : Text} {hits : List Hit} {after : Text}
      (edits : p.Edits (fun _ => []) (between before (as.flatMap part)) hits after) :
      List.Forall₂ Q (as.filter isMatched) hits := by
    induction as generalizing before hits after with
    | nil =>
      obtain ⟨rfl, -⟩ := edits.eq_nil moves
      exact .nil
    | cons a as ih =>
      rw [List.flatMap_cons] at edits
      cases kind : isMatched a with
      | true =>
        obtain ⟨hit, found, stop, holds⟩ := matched a before _ kind
        obtain ⟨hits', after', rfl, -, later⟩ := edits.exists_of_found moves found
        rw [stop] at later
        rw [List.filter_cons_of_pos kind]
        exact .cons holds (ih later)
      | false =>
        obtain ⟨after', -, later⟩ :=
          edits.exists_of_silent fun u v split some => silent a before u v _ kind split some
        rw [List.filter_cons_of_neg (by simp [kind])]
        exact ih later
  exact read (edits_between_replaceAll moves _ _)

end

section

variable (moves : p.isSkippable = false) {t : Text}
include moves

/-- The search for the first match, one character on. -/
theorem findFrom_between_cons {before rest : Text} {x : Char}
    (place : (between before (x :: rest)).IsIn t) :
    (p.search t).findFrom (between before (x :: rest)) =
      (p.matchAt (between before (x :: rest))).or
        ((p.search t).findFrom (between (before ++ [x]) rest)) := by
  have step := findFrom_cons moves place
  rw [between, step]
  simp [between]

/-- Where the search finds nothing, the pattern spells nothing. -/
theorem findFrom_between_eq_none {before rest : Text} (place : (between before rest).IsIn t)
    (none : (p.search t).findFrom (between before rest) = none) {u cs after : Text}
    {kept : List (Nat × Text)} (split : rest = u ++ (cs ++ after)) :
    ¬ p.Spells (before ++ u) cs after kept := by
  subst split
  induction u generalizing before with
  | nil =>
    rw [List.append_nil]
    intro spelled
    obtain ⟨x, xs, rfl⟩ := spelled.exists_cons moves
    rw [List.nil_append, List.cons_append] at place none
    rw [findFrom_between_cons moves place, Option.or_eq_none_iff] at none
    exact matchAt_between_eq_none_iff.1 none.1 (x :: xs) after kept rfl spelled
  | cons x u ih =>
    rw [List.cons_append] at place none
    rw [findFrom_between_cons moves place, Option.or_eq_none_iff] at none
    have next := moves_between before [x] (u ++ (cs ++ after))
    simpa using ih (next.isIn place) none.2

/-- What the search finds is spelled by the pattern, and nothing that starts before it is. -/
theorem exists_spells_of_findFrom {before rest : Text} (place : (between before rest).IsIn t) {hit : Hit}
    (found : (p.search t).findFrom (between before rest) = some hit) : ∃ u cs after,
      rest = u ++ (cs ++ after) ∧
      hit.whole = ⟨between (before ++ u) (cs ++ after), between (before ++ u ++ cs) after⟩ ∧
      p.Spells (before ++ u) cs after (keptTexts hit.groups) ∧
      ∀ u' cs' after' kept, rest = u' ++ (cs' ++ after') → p.Spells (before ++ u') cs' after' kept →
        u.length ≤ u'.length := by
  induction rest generalizing before with
  | nil => cases found
  | cons x rest ih =>
    rw [findFrom_between_cons moves place, Option.or_eq_some_iff] at found
    rcases found with here | ⟨none, further⟩
    · obtain ⟨cs, after, split, whole, spelled⟩ := exists_spells_of_matchAt here
      refine ⟨[], cs, after, split, ?_, by simpa using spelled, fun u' _ _ _ _ _ => Nat.zero_le _⟩
      rw [List.append_nil, whole, split]
    · have next := (moves_between before [x] rest).isIn place
      obtain ⟨u, cs, after, rfl, whole, spelled, first⟩ := ih next further
      refine ⟨x :: u, cs, after, rfl, by simpa using whole, by simpa using spelled, ?_⟩
      intro u' cs' after' kept split spelled'
      cases u' with
      | nil =>
        rw [List.append_nil] at spelled'
        exact absurd spelled' (matchAt_between_eq_none_iff.1 none cs' after' kept split)
      | cons y u' =>
        obtain ⟨rfl, later⟩ := List.cons.inj split
        exact Nat.succ_le_succ (first u' cs' after' kept later (by simpa using spelled'))

end

end Pattern

end SourceAudit

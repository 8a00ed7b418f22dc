/-
Module: SourceAudit.Proofs.Pattern.Stretch
Layer: Proofs
Purpose: Patterns and stretches of a text. What a way through a pattern passes is said part by part, in
  the words that patterns are written in. A pattern that looks at no edges matches in every text that
  has a stretch in which it matches.
Main exports: Cursor.skip_eq_some_iff_forall₂, Cursor.exists_moves, Pattern.passes_append,
  Pattern.passes_most, Pattern.groupChars_subset, Pattern.exists_of_matchAt_fewest,
  Pattern.exists_of_matchAt_leap, Pattern.exists_of_matchAt_longest, Pattern.exists_of_matchAt_most,
  Pattern.neverPasses, Cursor.within, Pattern.occurs_of_infix
-/
import SourceAudit.Proofs.Pattern.Places
import SourceAudit.Proofs.Text.Needle
import Mathlib.Data.List.Forall2

namespace SourceAudit

/-- In lists that agree member by member, each member has its partner. -/
theorem exists_partner_of_mem {α β : Type} {R : α → β → Prop} {as : List α} {bs : List β}
    (h : List.Forall₂ R as bs) {b : β} (mem : b ∈ bs) : ∃ a ∈ as, R a b := by
  induction h with
  | nil => cases mem
  | cons here _ ih =>
    rcases List.mem_cons.1 mem with rfl | mem
    · exact ⟨_, List.mem_cons_self, here⟩
    · obtain ⟨a, inside, partner⟩ := ih mem
      exact ⟨a, List.mem_cons_of_mem _ inside, partner⟩

theorem forall₂_mem {α β : Type} {R : α → β → Prop} {as : List α} {bs : List β} (h : List.Forall₂ R as bs) :
    List.Forall₂ (fun a b => a ∈ as ∧ b ∈ bs ∧ R a b) as bs := by
  induction h with
  | nil => exact .nil
  | cons here _ ih =>
    refine .cons ⟨List.mem_cons_self, List.mem_cons_self, here⟩ (ih.imp ?_)
    exact fun _ _ ⟨left, right, there⟩ => ⟨List.mem_cons_of_mem _ left, List.mem_cons_of_mem _ right, there⟩

namespace Cursor

/-- What a literal passes: characters that are like its own. -/
theorem skip_eq_some_iff_forall₂ {same : Char → Char → Bool} {cs : List Char} {c d : Cursor} :
    c.skip same cs = some d ↔
      ∃ xs, List.Forall₂ (fun x y => same x y = true) cs xs ∧ c.Moves xs d := by
  induction cs generalizing c with
  | nil =>
    rw [skip, Option.some.injEq, eq_comm, ← moves_nil]
    constructor
    · exact fun here => ⟨[], .nil, here⟩
    · rintro ⟨xs, none, here⟩
      rwa [List.forall₂_nil_left_iff.1 none] at here
  | cons y ys ih =>
    obtain ⟨b, a, o⟩ := c
    cases a with
    | nil =>
      simp only [skip, reduceCtorEq, false_iff]
      rintro ⟨xs, like, moves⟩
      obtain ⟨x, xs, -, -, rfl⟩ := List.forall₂_cons_left_iff.1 like
      exact not_moves_cons moves
    | cons z zs =>
      rw [skip]
      simp only
      constructor
      · intro skipped
        split at skipped
        · rename_i first
          obtain ⟨xs, like, moves⟩ := ih.1 skipped
          exact ⟨z :: xs, .cons first like, moves_cons.2 ⟨rfl, moves⟩⟩
        · cases skipped
      · rintro ⟨xs, like, moves⟩
        obtain ⟨x, xs, first, others, rfl⟩ := List.forall₂_cons_left_iff.1 like
        obtain ⟨rfl, onward⟩ := moves_cons.1 moves
        rw [if_pos first]
        exact ih.2 ⟨xs, others, onward⟩

/-- The place behind the first characters ahead. -/
theorem exists_moves {c : Cursor} {cs r : Text} (h : c.ahead = cs ++ r) :
    ∃ d, c.Moves cs d ∧ d.ahead = r :=
  ⟨⟨cs.reverse ++ c.behind, r, c.offset + cs.length⟩, ⟨h, rfl, rfl⟩, rfl⟩

theorem Moves.unique {cs : List Char} {c d d' : Cursor} (h : c.Moves cs d) (h' : c.Moves cs d') :
    d = d' := by
  obtain ⟨ahead, behind, offset⟩ := h
  obtain ⟨ahead', behind', offset'⟩ := h'
  obtain ⟨b, a, o⟩ := d
  obtain ⟨b', a', o'⟩ := d'
  obtain rfl := List.append_cancel_left (ahead.symm.trans ahead')
  obtain rfl : b = b' := behind.trans behind'.symm
  obtain rfl : o = o' := offset.trans offset'.symm
  rfl

/-- There is one place behind the first occurrence of a character. -/
theorem Moves.unique_of_not_mem {x : Char} {u u' : List Char} {c d d' : Cursor}
    (h : c.Moves (u ++ [x]) d) (h' : c.Moves (u' ++ [x]) d') (absent : x ∉ u) (absent' : x ∉ u') :
    d = d' := by
  have other {v : Text} (out : x ∉ v) : ∀ y ∈ v, (y == x) = false := by
    intro y mem
    rw [beq_eq_false_iff_ne]
    rintro rfl
    exact out mem
  have same := h.1.symm.trans h'.1
  rw [List.append_assoc, List.append_assoc, List.singleton_append, List.singleton_append] at same
  obtain ⟨rfl, -, -⟩ := Text.split_unique (· == x) same (other absent) (other absent')
    (beq_self_eq_true x) (beq_self_eq_true x)
  exact h.unique h'

/-- A sparing run stops at the first place where the rest is found. -/
theorem exists_of_sparing {α : Type} {set : Char → Bool} {next : Cursor → Option α} {b a : List Char}
    {o : Nat} {r : α} (found : sparing set next b o a = some r) :
    ∃ cs d, (∀ x ∈ cs, set x = true) ∧ (⟨b, a, o⟩ : Cursor).Moves cs d ∧ next d = some r ∧
      ∀ front x back e, cs = front ++ x :: back → (⟨b, a, o⟩ : Cursor).Moves front e →
        next e = none := by
  induction a generalizing b o with
  | nil => exact ⟨[], _, by simp, moves_nil.2 rfl, found, fun front x back e split => by simp at split⟩
  | cons y a ih =>
    rw [sparing] at found
    cases here : next ⟨b, y :: a, o⟩ with
    | some s =>
      rw [here] at found
      exact ⟨[], _, by simp, moves_nil.2 rfl, here.trans found,
        fun front x back e split => by simp at split⟩
    | none =>
      rw [here] at found
      simp only at found
      split at found
      · rename_i inside
        obtain ⟨cs, d, all, moves, there, first⟩ := ih found
        refine ⟨y :: cs, d, List.forall_mem_cons.2 ⟨inside, all⟩, moves_cons.2 ⟨rfl, moves⟩, there, ?_⟩
        intro front x back e split moves'
        cases front with
        | nil =>
          rw [moves_nil.1 moves']
          exact here
        | cons z front =>
          obtain ⟨rfl, rest⟩ := List.cons.inj split
          exact first front x back e rest (moves_cons.1 moves').2
      · cases found

/-- A greedy run stops at the last place where the rest is found. -/
theorem exists_of_greedy {α : Type} {set : Char → Bool} {next : Cursor → Option α} {b a : List Char}
    {o : Nat} {r : α} (found : greedy set next b o a = some r) :
    ∃ cs d, (∀ x ∈ cs, set x = true) ∧ (⟨b, a, o⟩ : Cursor).Moves cs d ∧ next d = some r ∧
      ∀ cs' e, cs.length < cs'.length → (∀ x ∈ cs', set x = true) →
        (⟨b, a, o⟩ : Cursor).Moves cs' e → next e = none := by
  induction a generalizing b o with
  | nil =>
    refine ⟨[], _, by simp, moves_nil.2 rfl, found, fun cs' e longer _ moves => ?_⟩
    cases cs' with
    | nil => cases longer
    | cons y ys => exact absurd moves not_moves_cons
  | cons x a ih =>
    rw [greedy] at found
    split at found
    · rename_i inside
      cases further : greedy set next (x :: b) (o + 1) a with
      | some s =>
        rw [further] at found
        obtain ⟨cs, d, all, moves, there, last⟩ := ih (further.trans found)
        refine ⟨x :: cs, d, List.forall_mem_cons.2 ⟨inside, all⟩, moves_cons.2 ⟨rfl, moves⟩, there, ?_⟩
        intro cs' e longer all' moves'
        cases cs' with
        | nil => cases longer
        | cons y ys =>
          obtain ⟨rfl, onward⟩ := moves_cons.1 moves'
          exact last ys e (Nat.lt_of_succ_lt_succ longer) (List.forall_mem_cons.1 all').2 onward
      | none =>
        rw [further] at found
        rw [greedy_eq_findSome?, List.findSome?_eq_none_iff] at further
        refine ⟨[], _, by simp, moves_nil.2 rfl, found, fun cs' e longer all' moves' => ?_⟩
        cases cs' with
        | nil => cases longer
        | cons y ys =>
          obtain ⟨rfl, onward⟩ := moves_cons.1 moves'
          exact further e (List.mem_reverse.2
            (mem_run_iff.2 ⟨ys, (List.forall_mem_cons.1 all').2, onward⟩))
    · rename_i outside
      refine ⟨[], _, by simp, moves_nil.2 rfl, found, fun cs' e longer all' moves' => ?_⟩
      cases cs' with
      | nil => cases longer
      | cons y ys =>
        obtain ⟨rfl, -⟩ := moves_cons.1 moves'
        exact absurd (List.forall_mem_cons.1 all').1 outside

/-- A greedy run with nothing to refuse it passes all characters of the set. -/
theorem exists_greedy_eq {α : Type} (set : Char → Bool) (result : Cursor → α) (b : List Char) (o : Nat)
    (a : List Char) : ∃ d, (⟨b, a, o⟩ : Cursor).Moves (a.takeWhile set) d ∧
      greedy set (fun d => some (result d)) b o a = some (result d) := by
  induction a generalizing b o with
  | nil => exact ⟨_, moves_nil.2 rfl, rfl⟩
  | cons x a ih =>
    rw [greedy, List.takeWhile_cons]
    split
    · obtain ⟨d, moves, found⟩ := ih (x :: b) (o + 1)
      rw [found]
      exact ⟨d, moves_cons.2 ⟨rfl, moves⟩, rfl⟩
    · exact ⟨_, moves_nil.2 rfl, rfl⟩

/-- The place of a text when the text becomes a stretch of another one. -/
def within (left right : Text) (c : Cursor) : Cursor :=
  ⟨c.behind ++ left.reverse, c.ahead ++ right, left.length + c.offset⟩

theorem IsIn.within {t : Text} {c : Cursor} (left right : Text) (h : c.IsIn t) :
    (c.within left right).IsIn (left ++ t ++ right) := by
  obtain ⟨parts, count⟩ := h
  refine ⟨?_, ?_⟩
  · simp [Cursor.within, ← parts]
  · simp [Cursor.within, count, Nat.add_comm]

theorem Moves.within {c d : Cursor} {cs : List Char} (left right : Text) (h : c.Moves cs d) :
    (c.within left right).Moves cs (d.within left right) := by
  obtain ⟨ahead, behind, offset⟩ := h
  refine ⟨?_, ?_, ?_⟩
  · simp [Cursor.within, ahead]
  · simp [Cursor.within, behind]
  · simp [Cursor.within, offset, Nat.add_assoc]

end Cursor

/-- Before a word character, a word starts exactly if no word character stands before. -/
theorem wordEdge_holds_iff {c : Cursor} {x : Char} {a : Text} (ahead : c.ahead = x :: a)
    (letter : isWordChar x = true) :
    Edge.word.holds c = true ↔ c.behind.head?.any isWordChar = false := by
  rw [Edge.holds, ahead, List.head?_cons, Option.any_some, letter]
  cases c.behind.head?.any isWordChar <;> decide

namespace Pattern

section Ways

variable {p q : Pattern} {c d : Cursor}

theorem passes_append : (p ++ q).Passes c d ↔ ∃ m, p.Passes c m ∧ q.Passes m d := Iff.rfl

theorem passes_group {index : Nat} : (group index p).Passes c d ↔ p.Passes c d := Iff.rfl

theorem passes_wordEdge : wordEdge.Passes c d ↔ Edge.word.holds c = true ∧ d = c := Iff.rfl

theorem passes_text {s : String} : (text s).Passes c d ↔ c.Moves s.toList d := Cursor.skip_eq_some_iff

theorem passes_anyCase {s : String} : (anyCase s).Passes c d ↔
    ∃ xs, List.Forall₂ (fun x y => sameFold x y = true) s.toList xs ∧ c.Moves xs d :=
  Cursor.skip_eq_some_iff_forall₂

theorem passes_most {set : Char → Bool} {least : Nat} : (most set least).Passes c d ↔
    ∃ cs, least ≤ cs.length ∧ (∀ x ∈ cs, set x = true) ∧ c.Moves cs d :=
  Cursor.mem_choices_iff

theorem passes_one {set : Char → Bool} :
    (one set).Passes c d ↔ ∃ x, set x = true ∧ c.Moves [x] d := by
  refine Cursor.pass_eq_some_iff.trans ?_
  constructor
  · rintro ⟨cs, single, all, moves⟩
    obtain ⟨x, rfl⟩ := List.length_eq_one_iff.1 single
    exact ⟨x, all x (List.mem_singleton_self x), moves⟩
  · rintro ⟨x, inside, moves⟩
    exact ⟨[x], rfl, by simpa using inside, moves⟩

/-- Whether the pattern has no part that is kept. -/
def isGroupFree : Pattern → Bool
  | .group _ _ => false
  | .seq p q | .alt p q => p.isGroupFree && q.isGroupFree
  | _ => true

theorem Keeps.eq_nil {kept : Groups} (h : p.Keeps c d kept) (free : p.isGroupFree = true) :
    kept = [] := by
  induction p generalizing c d kept with
  | literal | one | most | fewest | edge => exact h.2
  | seq p q ihp ihq =>
    obtain ⟨hp, hq⟩ := (Bool.and_eq_true _ _).mp free
    obtain ⟨m, first, second, way, way', rfl⟩ := h
    rw [ihp way hp, ihq way' hq, List.append_nil]
  | alt p q ihp ihq =>
    obtain ⟨hp, hq⟩ := (Bool.and_eq_true _ _).mp free
    rcases h with way | way
    · exact ihp way hp
    · exact ihq way hq
  | group index p ih => cases free

/-- The stretches that are kept lie in the text. -/
theorem Keeps.isIn {t : Text} {kept : Groups} (h : p.Keeps c d kept) (place : c.IsIn t) {index : Nat}
    {s : Span} (mem : (index, s) ∈ kept) : s.start.IsIn t := by
  induction p generalizing c d kept with
  | literal | one | most | fewest | edge =>
    obtain ⟨-, rfl⟩ := h
    cases mem
  | seq p q ihp ihq =>
    obtain ⟨m, first, second, way, way', rfl⟩ := h
    rcases List.mem_append.1 mem with mem | mem
    · exact ihp way place mem
    · exact ihq way' (way.passes.isIn place).1 mem
  | alt p q ihp ihq =>
    rcases h with way | way
    · exact ihp way place mem
    · exact ihq way place mem
  | group i p ih =>
    obtain ⟨inner, way, rfl⟩ := h
    rcases List.mem_cons.1 mem with here | mem
    · obtain ⟨-, rfl⟩ := Prod.mk.inj here
      exact place
    · exact ih way place mem

/-- What the first match keeps are characters of the text. -/
theorem groupChars_subset {t : Text} {hit : Hit} (found : p.find t = some hit) (index : Nat) :
    hit.groupChars index ⊆ t := by
  rw [Hit.groupChars]
  cases group : hit.group? index with
  | none => exact List.nil_subset t
  | some s =>
    obtain ⟨place, -, way, -, -⟩ := p.findFrom_eq_some (Cursor.isIn_start t) found
    have inside := way.isIn place (Hit.mem_groups_of_group? group)
    intro x mem
    rw [← inside.1]
    exact List.mem_append_right _ (List.mem_of_mem_take mem)

/-- A stretch that is kept as short as possible ends where the rest of the pattern first goes on. -/
theorem exists_of_matchAt_fewest {index : Nat} {set : Char → Bool} {hit : Hit}
    (found : (p ++ group index (fewest set 0) ++ q).matchAt c = some hit) :
    ∃ m cs d kept kept', p.Keeps c m kept ∧ m.Moves cs d ∧ q.Keeps d hit.whole.stop kept' ∧
      hit.groups = kept ++ (index, ⟨m, d⟩) :: kept' ∧
      ∀ front x back e, cs = front ++ x :: back → m.Moves front e → ∀ k, ¬ q.Passes e k := by
  obtain ⟨r, reached, rfl⟩ := Option.map_eq_some_iff.1 found
  obtain ⟨m, kept, s, way, there, rfl⟩ := p.exists_keeps_of_reach reached
  obtain ⟨inner, spared, rfl⟩ := Option.map_eq_some_iff.1 there
  obtain ⟨cs, d, -, moves, onward, first⟩ := Cursor.exists_of_sparing spared
  obtain ⟨outer, after, rfl⟩ := Option.map_eq_some_iff.1 onward
  obtain ⟨stop, kept', last, way', done, rfl⟩ := q.exists_keeps_of_reach after
  obtain rfl : Trace.done stop = last := Option.some.inj done
  refine ⟨m, cs, d, kept, kept', way, moves, ?_, by simp [Trace.begin, Trace.close, Trace.done], ?_⟩
  · simpa [Trace.begin, Trace.close, Trace.done] using way'
  intro front x back e split moves'
  exact not_passes_of_reach_eq_none (fun _ => rfl)
    (Option.map_eq_none_iff.1 (first front x back e split moves'))

/-- A part that is kept behind as little as possible stands at the first place where it has a way. -/
theorem exists_of_matchAt_leap {index : Nat} {hit : Hit}
    (found : (leap ++ group index q).matchAt c = some hit) :
    ∃ cs d kept, c.Moves cs d ∧ q.Keeps d hit.whole.stop kept ∧
      hit.groups = (index, ⟨d, hit.whole.stop⟩) :: kept ∧
      ∀ front x back e, cs = front ++ x :: back → c.Moves front e → ∀ k, ¬ q.Passes e k := by
  obtain ⟨r, reached, rfl⟩ := Option.map_eq_some_iff.1 found
  obtain ⟨cs, d, -, moves, onward, first⟩ := Cursor.exists_of_sparing reached
  obtain ⟨inner, there, rfl⟩ := Option.map_eq_some_iff.1 onward
  obtain ⟨stop, kept, last, way, done, rfl⟩ := q.exists_keeps_of_reach there
  obtain rfl : Trace.close stop (.done stop) = last := Option.some.inj done
  refine ⟨cs, d, kept, moves, ?_, by simp [Trace.begin, Trace.close, Trace.done], ?_⟩
  · simpa [Trace.begin, Trace.close, Trace.done] using way
  intro front x back e split moves'
  exact not_passes_of_reach_eq_none (fun _ => rfl)
    (Option.map_eq_none_iff.1 (first front x back e split moves'))

/-- A stretch that is kept as long as possible ends at the last place from where the rest goes on. -/
theorem exists_of_matchAt_longest {index least : Nat} {set : Char → Bool} {hit : Hit}
    (found : (p ++ group index (most set least) ++ q).matchAt c = some hit) :
    ∃ m cs d kept kept', p.Keeps c m kept ∧ (∀ x ∈ cs, set x = true) ∧ m.Moves cs d ∧
      q.Keeps d hit.whole.stop kept' ∧ hit.groups = kept ++ (index, ⟨m, d⟩) :: kept' ∧
      ∀ cs' e, cs.length < cs'.length → (∀ x ∈ cs', set x = true) → m.Moves cs' e →
        ∀ k, ¬ q.Passes e k := by
  obtain ⟨r, reached, rfl⟩ := Option.map_eq_some_iff.1 found
  obtain ⟨m, kept, s, way, there, rfl⟩ := p.exists_keeps_of_reach reached
  obtain ⟨inner, run, rfl⟩ := Option.map_eq_some_iff.1 there
  obtain ⟨f, passed, run⟩ := Option.bind_eq_some_iff.1 run
  obtain ⟨xs, count, all, moves⟩ := Cursor.pass_eq_some_iff.1 passed
  obtain ⟨ys, d, all', moves', onward, last⟩ := Cursor.exists_of_greedy run
  obtain ⟨outer, after, rfl⟩ := Option.map_eq_some_iff.1 onward
  obtain ⟨stop, kept', t, way', done, rfl⟩ := q.exists_keeps_of_reach after
  obtain rfl : Trace.done stop = t := Option.some.inj done
  refine ⟨m, xs ++ ys, d, kept, kept', way, List.forall_mem_append.2 ⟨all, all'⟩, moves.trans moves', ?_,
    by simp [Trace.begin, Trace.close, Trace.done], ?_⟩
  · simpa [Trace.begin, Trace.close, Trace.done] using way'
  intro cs' e longer all'' moves''
  rw [List.length_append] at longer
  -- the first characters of the longer stretch are the ones that have to be passed anyway
  rw [← List.take_append_drop xs.length cs'] at moves'' all''
  obtain ⟨f', first, second⟩ := moves''.split
  have front : cs'.take xs.length = xs := by
    have enough : xs.length ≤ cs'.length := by omega
    have same := first.1.symm.trans moves.1
    exact (List.append_inj same (List.length_take_of_le enough)).1
  rw [front] at first
  obtain rfl := first.unique moves
  have stuck := last (cs'.drop xs.length) e (by rw [List.length_drop]; omega)
    (List.forall_mem_append.1 all'').2 second
  exact not_passes_of_reach_eq_none (fun _ => rfl) (Option.map_eq_none_iff.1 stuck)

/-- A stretch that is kept at the end of a pattern has all characters of the set. -/
theorem exists_of_matchAt_most {index : Nat} {set : Char → Bool} {hit : Hit}
    (found : (p ++ group index (most set 0)).matchAt c = some hit) :
    ∃ m kept, p.Keeps c m kept ∧ m.Moves (m.ahead.takeWhile set) hit.whole.stop ∧
      hit.groups = kept ++ [(index, ⟨m, hit.whole.stop⟩)] := by
  obtain ⟨r, reached, rfl⟩ := Option.map_eq_some_iff.1 found
  obtain ⟨m, kept, s, way, there, rfl⟩ := p.exists_keeps_of_reach reached
  obtain ⟨inner, run, rfl⟩ := Option.map_eq_some_iff.1 there
  obtain ⟨d, moves, farthest⟩ := Cursor.exists_greedy_eq set
    (fun d => Trace.close d (.done d)) m.behind m.offset m.ahead
  obtain rfl : Trace.close d (.done d) = inner := Option.some.inj (farthest.symm.trans run)
  exact ⟨m, kept, way, moves, rfl⟩

/-- Whether no way through the pattern passes a certain character. -/
def neverPasses (x : Char) : Pattern → Bool
  | .literal same cs => cs.all fun y => !same y x
  | .one set | .most set _ | .fewest set _ => !set x
  | .edge _ => true
  | .seq p q | .alt p q => p.neverPasses x && q.neverPasses x
  | .group _ p => p.neverPasses x

theorem Passes.exists_moves {x : Char} (way : p.Passes c d) (never : p.neverPasses x = true) :
    ∃ cs, c.Moves cs d ∧ x ∉ cs := by
  have outside {set : Char → Bool} {cs : List Char} (out : (!set x) = true)
      (all : ∀ y ∈ cs, set y = true) : x ∉ cs := by
    intro mem
    rw [all x mem] at out
    cases out
  induction p generalizing c d with
  | literal same ys =>
    obtain ⟨cs, like, moves⟩ := Cursor.skip_eq_some_iff_forall₂.1 way
    refine ⟨cs, moves, fun mem => ?_⟩
    obtain ⟨y, inside, alike⟩ := exists_partner_of_mem like mem
    have apart := List.all_eq_true.1 never y inside
    rw [alike] at apart
    cases apart
  | one set =>
    obtain ⟨cs, -, all, moves⟩ := Cursor.pass_eq_some_iff.1 way
    exact ⟨cs, moves, outside never all⟩
  | most set least | fewest set least =>
    obtain ⟨cs, -, all, moves⟩ := Cursor.mem_choices_iff.1 way
    exact ⟨cs, moves, outside never all⟩
  | edge e =>
    obtain ⟨-, rfl⟩ := way
    exact ⟨[], Cursor.moves_nil.2 rfl, List.not_mem_nil⟩
  | seq p q ihp ihq =>
    obtain ⟨hp, hq⟩ := (Bool.and_eq_true _ _).mp never
    obtain ⟨m, first, second⟩ := way
    obtain ⟨cs, moves, absent⟩ := ihp first hp
    obtain ⟨cs', moves', absent'⟩ := ihq second hq
    exact ⟨cs ++ cs', moves.trans moves', by simp [absent, absent']⟩
  | alt p q ihp ihq =>
    obtain ⟨hp, hq⟩ := (Bool.and_eq_true _ _).mp never
    exact way.elim (ihp · hp) (ihq · hq)
  | group index p ih => exact ih way never

end Ways

/-- Whether the pattern sets no condition on places. -/
def isEdgeFree : Pattern → Bool
  | .edge _ => false
  | .seq p q | .alt p q => p.isEdgeFree && q.isEdgeFree
  | .group _ p => p.isEdgeFree
  | _ => true

theorem Passes.within {p : Pattern} (free : p.isEdgeFree = true) {c d : Cursor} (left right : Text)
    (way : p.Passes c d) : p.Passes (c.within left right) (d.within left right) := by
  induction p generalizing c d with
  | literal same cs =>
    obtain ⟨xs, like, moves⟩ := Cursor.skip_eq_some_iff_forall₂.1 way
    exact Cursor.skip_eq_some_iff_forall₂.2 ⟨xs, like, moves.within left right⟩
  | one set =>
    obtain ⟨xs, one, all, moves⟩ := Cursor.pass_eq_some_iff.1 way
    exact Cursor.pass_eq_some_iff.2 ⟨xs, one, all, moves.within left right⟩
  | most set least | fewest set least =>
    obtain ⟨xs, enough, all, moves⟩ := Cursor.mem_choices_iff.1 way
    exact Cursor.mem_choices_iff.2 ⟨xs, enough, all, moves.within left right⟩
  | edge e => cases free
  | seq p q ihp ihq =>
    obtain ⟨hp, hq⟩ := (Bool.and_eq_true _ _).mp free
    obtain ⟨m, first, second⟩ := way
    exact ⟨m.within left right, ihp hp first, ihq hq second⟩
  | alt p q ihp ihq =>
    obtain ⟨hp, hq⟩ := (Bool.and_eq_true _ _).mp free
    exact way.imp (ihp hp) (ihq hq)
  | group index p ih => exact ih free way

/-- A pattern without edges that matches in a stretch of a text matches in the text. -/
theorem occurs_of_infix {p : Pattern} (free : p.isEdgeFree = true) (moves : p.isSkippable = false)
    {s t : Text} (inside : s <:+: t) (found : p.occurs s = true) : p.occurs t = true := by
  obtain ⟨left, right, rfl⟩ := inside
  rw [occurs_iff moves] at found ⊢
  obtain ⟨c, d, place, way⟩ := found
  exact ⟨_, _, place.within left right, way.within free left right⟩

end Pattern

end SourceAudit

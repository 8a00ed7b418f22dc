/-
Module: SourceAudit.Proofs.Pattern.WordSwap
Layer: Proofs
Purpose: One word put in the place of another. The words stand whole, with a blank or nothing behind
  them. A pattern does not notice when none of its literals fits into such a word, from its start on or
  from amid it, and each of its sets holds all characters of the words or none.
Main exports: SwapsWord, wordSight, Likeness.wordSwap, SwapsWord.findAll_edited, SwapsWord.occurs_eq
-/
import SourceAudit.Proofs.Pattern.Likeness
import SourceAudit.Proofs.Text.LineEnd
import Mathlib.Data.List.Infix

namespace SourceAudit

/-- The second text has the second word where the first text has the first one. -/
inductive SwapsWord (w w' : Text) : (t t' : Text) → Prop where
  | intro (u v : Text) (before : ∀ x ∈ u.getLast?, isWordChar x = false)
      (after : ∀ x ∈ v.head?, isBlank x = true) : SwapsWord w w' (u ++ (w ++ v)) (u ++ (w' ++ v))

/-- Whether characters can be read off a word, or the rest of one, with a blank behind it. -/
def meets : (cs word : List Char) → Bool
  | [], _ => true
  | c :: _, [] => isBlank c
  | c :: cs, x :: word => c == x && meets cs word

/-- Whether no part of the characters that follows a non-word character can be read off the word. -/
def isClearBehind (word : Text) : (cs : List Char) → Bool
  | [] => true
  | c :: cs => (isWordChar c || cs.isEmpty || !meets cs word) && isClearBehind word cs

/-- Whether the characters can be read off no part of the word. -/
def isClearOf (word : Text) (cs : List Char) : Bool :=
  cs.isEmpty || (word.tails.all fun rest => rest.isEmpty || !meets cs rest) && isClearBehind word cs

/-- The words that are put in each other's place. -/
def keywords : List Text := ["var", "let", "const"].map String.toList

theorem two_le_length_of_mem_keywords : ∀ word ∈ keywords, 2 ≤ word.length := by decide

theorem isWordChar_of_mem_keywords : ∀ word ∈ keywords, ∀ c ∈ word, isWordChar c = true := by
  have all : keywords.all (·.all isWordChar) = true := by decide
  simpa only [List.all_eq_true] using all

/-- Literals that are clear of the keywords, and sets of all their characters or none. -/
def wordSight : Sight where
  Avoids same cs := same = (· == ·) ∧ keywords.all (fun word => isClearOf word cs) = true
  covers set := keywords.all fun word => word.all set
  misses set := keywords.all fun word => word.all fun c => !set c
  covers_any := rfl

theorem meets_of_isClearOf {word cs rest : Text} (clear : isClearOf word cs = true) (some : cs ≠ [])
    (tail : rest <:+ word) (more : rest ≠ []) : meets cs rest = false := by
  simp only [isClearOf, Bool.or_eq_true, List.isEmpty_iff, some, false_or, Bool.and_eq_true,
    List.all_eq_true, List.mem_tails, Bool.not_eq_true'] at clear
  exact (clear.1 rest tail).resolve_left more

theorem isClearBehind_of_isClearOf {word cs : Text} (clear : isClearOf word cs = true) :
    isClearBehind word cs = true := by
  cases cs with
  | nil => rfl
  | cons c cs =>
    rw [isClearOf, Bool.or_eq_true, Bool.and_eq_true] at clear
    exact (clear.resolve_left (by simp)).2

namespace Pattern

/-- The pattern with literals that have to be met exactly. -/
def exact : Pattern → Pattern
  | .literal _ cs => .literal (· == ·) cs
  | .seq p q => .seq p.exact q.exact
  | .alt p q => .alt p.exact q.exact
  | .group index p => .group index p.exact
  | p => p

/-- Whether all literals are clear of the keywords. -/
def isClear : Pattern → Bool
  | .literal _ cs => keywords.all fun word => isClearOf word cs
  | .seq p q | .alt p q => p.isClear && q.isClear
  | .group _ p => p.isClear
  | _ => true

theorem avoids_wordSight {p : Pattern} (exactly : p.exact = p) (clear : p.isClear = true) :
    p.Avoids wordSight := by
  have all : ∀ q : Pattern, q.isClear = true → q.exact.Avoids wordSight := by
    intro q
    induction q with
    | literal same cs => exact fun clear => ⟨rfl, clear⟩
    | one | most | fewest | edge => exact fun _ => trivial
    | seq p q ihp ihq | alt p q ihp ihq =>
      intro clear
      obtain ⟨left, right⟩ := (Bool.and_eq_true _ _).mp clear
      exact ⟨ihp left, ihq right⟩
    | group index p ih => exact ih
  rw [← exactly]
  exact all p clear

end Pattern

/-- Characters that cannot be read off the rest of a word are not skipped there. -/
theorem skip_of_not_meets {cs rest v : Text} (unmet : meets cs rest = false)
    (after : ∀ x ∈ v.head?, isBlank x = true) (p : Text) :
    (Cursor.between p (rest ++ v)).skip (· == ·) cs = none := by
  induction rest generalizing cs p with
  | nil =>
    cases cs with
    | nil => cases unmet
    | cons c cs =>
      cases v with
      | nil => rfl
      | cons x v =>
        have unlike : (c == x) = false := by
          cases same : c == x with
          | false => rfl
          | true =>
            obtain rfl := beq_iff_eq.1 same
            rw [meets, after c rfl] at unmet
            cases unmet
        rw [List.nil_append, Cursor.skip_between, unlike]
        rfl
  | cons x rest ih =>
    cases cs with
    | nil => cases unmet
    | cons c cs =>
      rw [List.cons_append, Cursor.skip_between]
      split
      · rename_i same
        rw [meets, same, Bool.true_and] at unmet
        exact ih unmet _
      · rfl

section

variable (u w w' v : Text)

/-- Places before the words, and places behind them. -/
inductive WordMatched : Cursor → Cursor → Prop where
  | before {p q : Text} (h : p ++ q = u) :
      WordMatched (.between p (q ++ (w ++ v))) (.between p (q ++ (w' ++ v)))
  | after {p q : Text} (h : p ++ q = v) :
      WordMatched (.between (u ++ (w ++ p)) q) (.between (u ++ (w' ++ p)) q)

/-- A place amid a word. -/
def IsAmid (u w v : Text) (c : Cursor) : Prop :=
  ∃ s r, s ≠ [] ∧ r ≠ [] ∧ s ++ r = w ∧ c = .between (u ++ s) (r ++ v)

/-- Places amid the words. -/
def WordAmid (c c' : Cursor) : Prop := IsAmid u w v c ∧ IsAmid u w' v c'

variable {u w w' v : Text}

theorem WordMatched.run_after {set : Char → Bool} {p q : Text} (h : p ++ q = v) :
    List.Forall₂ (WordMatched u w w' v)
      ((Cursor.between (u ++ (w ++ p)) q).choices set 0)
      ((Cursor.between (u ++ (w' ++ p)) q).choices set 0) := by
  induction q generalizing p with
  | nil => exact .cons (.after h) .nil
  | cons y q ih =>
    have next := ih (p := p ++ [y]) (by simpa using h)
    rw [Cursor.choices_between, Cursor.choices_between]
    refine .cons (.after h) ?_
    split
    · simpa using next
    · exact .nil

/-- A run over a whole word passes places amid it and goes on behind it. -/
theorem exists_choices_amid_word {set : Char → Bool} (full : w.all set = true) {s r : Text}
    (some : s ≠ []) (parts : s ++ r = w) :
    ∃ l, (∀ d ∈ l, IsAmid u w v d) ∧ (r ≠ [] → l ≠ []) ∧
      (Cursor.between (u ++ s) (r ++ v)).choices set 0 =
        l ++ (Cursor.between (u ++ (w ++ [])) v).choices set 0 := by
  induction r generalizing s with
  | nil =>
    obtain rfl : s = w := by simpa using parts
    exact ⟨[], by simp, by simp, by simp⟩
  | cons x r ih =>
    obtain ⟨l, amid, -, rest⟩ := ih (s := s ++ [x]) (by simp) (by simpa using parts)
    have inside : set x = true := List.all_eq_true.1 full x (by simp [← parts])
    refine ⟨.between (u ++ s) (x :: r ++ v) :: l, ?_, by simp, ?_⟩
    · intro d mem
      rcases List.mem_cons.1 mem with rfl | mem
      · exact ⟨s, x :: r, some, by simp, parts, rfl⟩
      · exact amid d mem
    · rw [List.cons_append, Cursor.choices_between, if_pos inside, List.append_assoc, rest]
      rfl

/-- A run that takes in the words has like choices behind them. -/
theorem runsAlike_amid {l l' a a' : List Cursor} (amid : ∀ d ∈ l, IsAmid u w v d)
    (amid' : ∀ d ∈ l', IsAmid u w' v d) (some : l ≠ []) (some' : l' ≠ [])
    (tails : List.Forall₂ (WordMatched u w w' v) a a') (more : a ≠ []) :
    RunsAlike (WordMatched u w w' v) (WordAmid u w w' v) (WordMatched u w w' v) (l ++ a) (l' ++ a') := by
  obtain ⟨d, left⟩ := List.exists_mem_of_ne_nil l some
  obtain ⟨d', right⟩ := List.exists_mem_of_ne_nil l' some'
  refine ⟨?_, ?_, ?_⟩
  · exact (Aligned.of_forall some some' fun x mem y mem' => .inr ⟨amid x mem, amid' y mem'⟩).append
      (.of_forall₂ (tails.imp fun _ _ => .inl))
  · exact (Aligned.of_lone (fun x mem => ⟨d', amid x mem, amid' d' right⟩)
      (fun y mem => ⟨d, amid d left, amid' y mem⟩)).append (.of_forall₂ tails)
  · obtain ⟨e, e', last, last', m⟩ :=
      (RunsAlike.of_forall₂ (A := WordAmid u w w' v) (K := WordMatched u w w' v) id tails more).last
    refine ⟨e, e', ?_, ?_, m⟩
    · rw [List.getLast?_append, last, Option.some_or]
    · rw [List.getLast?_append, last', Option.some_or]

section

variable (mem : w ∈ keywords) (mem' : w' ∈ keywords)
  (before : ∀ x ∈ u.getLast?, isWordChar x = false) (after : ∀ x ∈ v.head?, isBlank x = true)
include before after in
theorem skip_before {cs : List Char} (clear : isClearBehind w cs = true)
    (clear' : isClearBehind w' cs = true) {p q : Text} (h : p ++ q = u)
    (start : q = [] → cs = [] ∨ meets cs w = false ∧ meets cs w' = false) :
    Option.Rel (WordMatched u w w' v) ((Cursor.between p (q ++ (w ++ v))).skip (· == ·) cs)
      ((Cursor.between p (q ++ (w' ++ v))).skip (· == ·) cs) := by
  induction cs generalizing p q with
  | nil => exact .some (.before h)
  | cons y ys ih =>
    simp only [isClearBehind, Bool.and_eq_true] at clear clear'
    cases q with
    | nil =>
      obtain ⟨unmet, unmet'⟩ := (start rfl).resolve_left (List.cons_ne_nil _ _)
      rw [List.nil_append, List.nil_append, skip_of_not_meets unmet after,
        skip_of_not_meets unmet' after]
      exact .none
    | cons x q =>
      rw [List.cons_append, List.cons_append, Cursor.skip_between, Cursor.skip_between]
      split
      · rename_i same
        obtain rfl := beq_iff_eq.1 same
        refine ih clear.2 clear'.2 (by simpa using h) ?_
        rintro rfl
        -- what stands right before the word is no word character
        have outside : isWordChar y = false := before y (by simp [← h])
        have here := clear.1
        have here' := clear'.1
        simp only [outside, Bool.false_or, Bool.or_eq_true, List.isEmpty_iff, Bool.not_eq_true'] at here here'
        rcases here with done | unmet
        · exact .inl done
        · exact here'.imp id fun unmet' => ⟨unmet, unmet'⟩
      · exact .none

theorem skip_after (same : Char → Char → Bool) (cs : List Char) {p q : Text} (h : p ++ q = v) :
    Option.Rel (WordMatched u w w' v) ((Cursor.between (u ++ (w ++ p)) q).skip same cs)
      ((Cursor.between (u ++ (w' ++ p)) q).skip same cs) := by
  induction cs generalizing p q with
  | nil => exact .some (.after h)
  | cons y ys ih =>
    cases q with
    | nil => exact .none
    | cons x q =>
      have onward := ih (p := p ++ [x]) (q := q) (by simpa using h)
      rw [Cursor.skip_between, Cursor.skip_between]
      split
      · simpa using onward
      · exact .none

/-- A run from the start of a word passes places amid it and goes on behind it. -/
theorem exists_choices_of_keyword {set : Char → Bool} {word : Text} (keyword : word ∈ keywords)
    (full : wordSight.covers set = true) :
    ∃ l, (∀ d ∈ l, IsAmid u word v d) ∧ l ≠ [] ∧ (Cursor.between u (word ++ v)).choices set 1 =
      l ++ (Cursor.between (u ++ (word ++ [])) v).choices set 0 := by
  have all : word.all set = true := List.all_eq_true.1 full word keyword
  match word, two_le_length_of_mem_keywords word keyword, all with
  | x :: y :: rest, _, all =>
    obtain ⟨l, amid, some, run⟩ :=
      exists_choices_amid_word (u := u) (v := v) all (s := [x]) (r := y :: rest) (by simp) rfl
    have inside : set x = true := List.all_eq_true.1 all x List.mem_cons_self
    refine ⟨l, amid, some (by simp), ?_⟩
    rw [List.cons_append, Cursor.choices_succ, Cursor.pass_between, if_pos inside, Option.map_some,
      Option.getD_some, run]

theorem exists_choices_of_isAmid {set : Char → Bool} {word : Text} (keyword : word ∈ keywords)
    (full : wordSight.covers set = true) {c : Cursor} (amid : IsAmid u word v c) :
    ∃ l, (∀ d ∈ l, IsAmid u word v d) ∧
      c.choices set 1 = l ++ (Cursor.between (u ++ (word ++ [])) v).choices set 0 := by
  have all : word.all set = true := List.all_eq_true.1 full word keyword
  obtain ⟨s, r, some, more, parts, rfl⟩ := amid
  cases r with
  | nil => exact absurd rfl more
  | cons x r =>
    have inside : set x = true := List.all_eq_true.1 all x (by simp [← parts])
    obtain ⟨l, amid, -, run⟩ :=
      exists_choices_amid_word (u := u) (v := v) all (s := s ++ [x]) (r := r) (by simp)
        (by simpa using parts)
    rw [← List.append_assoc] at run
    refine ⟨l, amid, ?_⟩
    rw [List.cons_append, Cursor.choices_succ, Cursor.pass_between, if_pos inside, Option.map_some,
      Option.getD_some, run]

include mem mem' in
/-- The choices of at least one character from the start of the words. -/
theorem runsAlike_keywords {set : Char → Bool} (full : wordSight.covers set = true) :
    RunsAlike (WordMatched u w w' v) (WordAmid u w w' v) (WordMatched u w w' v)
      ((Cursor.between u (w ++ v)).choices set 1) ((Cursor.between u (w' ++ v)).choices set 1) := by
  obtain ⟨l, amid, some, run⟩ := exists_choices_of_keyword (u := u) (v := v) mem full
  obtain ⟨l', amid', some', run'⟩ := exists_choices_of_keyword (u := u) (v := v) mem' full
  rw [run, run']
  refine runsAlike_amid amid amid' some some' (WordMatched.run_after rfl) ?_
  rw [Cursor.choices_zero_eq_cons]
  exact List.cons_ne_nil _ _

include mem mem' in
/-- The choices from a place before the words. -/
theorem runsAlike_before_word {set : Char → Bool} (full : wordSight.covers set = true) {p q : Text}
    (h : p ++ q = u) :
    RunsAlike (WordMatched u w w' v) (WordAmid u w w' v) (WordMatched u w w' v)
      ((Cursor.between p (q ++ (w ++ v))).choices set 0)
      ((Cursor.between p (q ++ (w' ++ v))).choices set 0) := by
  induction q generalizing p with
  | nil =>
    obtain rfl : p = u := by simpa using h
    have here : WordMatched p w w' v (.between p (w ++ v)) (.between p (w' ++ v)) :=
      .before (q := []) h
    rw [List.nil_append, List.nil_append, Cursor.choices_zero_eq_cons, Cursor.choices_zero_eq_cons]
    exact .cons here (runsAlike_keywords mem mem' full)
  | cons x q ih =>
    have here : WordMatched u w w' v (.between p (x :: (q ++ (w ++ v))))
        (.between p (x :: (q ++ (w' ++ v)))) := .before h
    rw [List.cons_append, List.cons_append, Cursor.choices_between, Cursor.choices_between]
    split
    · exact .cons here (ih (p := p ++ [x]) (by simpa using h))
    · exact .single id here

end

/-- The places of two texts that differ in a keyword. -/
def Likeness.wordSwap (u v : Text) {w w' : Text} (mem : w ∈ keywords) (mem' : w' ∈ keywords)
    (before : ∀ x ∈ u.getLast?, isWordChar x = false) (after : ∀ x ∈ v.head?, isBlank x = true) :
    Likeness wordSight (u ++ (w ++ v)) (u ++ (w' ++ v)) where
  matched := WordMatched u w w' v
  amid := WordAmid u w w' v
  kept := WordMatched u w w' v
  kept_of_matched := id
  partners_of_kept := .inl
  isIn_matched := by
    rintro c c' (@⟨p, q, rfl⟩ | @⟨p, q, rfl⟩)
    · exact ⟨by simpa using Cursor.isIn_between p (q ++ (w ++ v)),
        by simpa using Cursor.isIn_between p (q ++ (w' ++ v))⟩
    · exact ⟨by simpa using Cursor.isIn_between (u ++ (w ++ p)) q,
        by simpa using Cursor.isIn_between (u ++ (w' ++ p)) q⟩
  isIn_amid := by
    rintro c c' ⟨⟨s, r, -, -, rfl, rfl⟩, ⟨s', r', -, -, rfl, rfl⟩⟩
    exact ⟨by simpa using Cursor.isIn_between (u ++ s) (r ++ v),
      by simpa using Cursor.isIn_between (u ++ s') (r' ++ v)⟩
  skip_matched := by
    rintro same cs ⟨rfl, clear⟩ c c' m
    have clears := List.all_eq_true.1 clear
    have nonempty := fun word keyword => List.ne_nil_of_length_pos
      (Nat.lt_of_lt_of_le Nat.zero_lt_two (two_le_length_of_mem_keywords word keyword))
    rcases m with @⟨p, q, h⟩ | @⟨p, q, h⟩
    · refine skip_before before after (isClearBehind_of_isClearOf (clears w mem))
        (isClearBehind_of_isClearOf (clears w' mem')) h fun _ => ?_
      by_cases some : cs = []
      · exact .inl some
      · exact .inr ⟨meets_of_isClearOf (clears w mem) some List.suffix_rfl (nonempty w mem),
          meets_of_isClearOf (clears w' mem') some List.suffix_rfl (nonempty w' mem')⟩
    · exact skip_after _ cs h
  skip_amid := by
    rintro same x cs ⟨rfl, clear⟩ c c' ⟨amid, amid'⟩
    have stuck : ∀ {word : Text} {d : Cursor}, word ∈ keywords → IsAmid u word v d →
        d.skip (· == ·) (x :: cs) = none := by
      rintro word d keyword ⟨s, r, -, more, parts, rfl⟩
      have clear := List.all_eq_true.1 clear word keyword
      exact skip_of_not_meets
        (meets_of_isClearOf clear (List.cons_ne_nil _ _) ⟨s, parts⟩ more) after _
    exact ⟨stuck mem amid, stuck mem' amid'⟩
  pass_matched := by
    intro set free c c' m
    rcases m with @⟨p, q, h⟩ | @⟨p, q, h⟩
    · cases q with
      | cons x q =>
        rw [List.cons_append, List.cons_append, Cursor.pass_between, Cursor.pass_between]
        split
        · exact .some (.before (by simpa using h))
        · exact .none
      | nil =>
        have stuck : ∀ {word : Text}, word ∈ keywords →
            (Cursor.between p (word ++ v)).pass set 1 = none := by
          intro word keyword
          have none := List.all_eq_true.1 (List.all_eq_true.1 free word keyword)
          cases word with
          | nil => exact absurd (two_le_length_of_mem_keywords _ keyword) (by decide)
          | cons x xs =>
            have outside : set x = false := by simpa using none x List.mem_cons_self
            rw [List.cons_append, Cursor.pass_between, outside]
            rfl
        rw [List.nil_append, List.nil_append, stuck mem, stuck mem']
        exact .none
    · cases q with
      | nil => exact .none
      | cons x q =>
        rw [Cursor.pass_between, Cursor.pass_between]
        split
        · have onward : WordMatched u w w' v (.between (u ++ (w ++ (p ++ [x]))) q)
              (.between (u ++ (w' ++ (p ++ [x]))) q) := .after (by simpa using h)
          simpa using Option.Rel.some onward
        · exact .none
  pass_amid := by
    rintro set free c c' ⟨amid, amid'⟩
    have stuck : ∀ {word : Text} {d : Cursor}, word ∈ keywords → IsAmid u word v d →
        d.pass set 1 = none := by
      rintro word d keyword ⟨s, r, -, more, parts, rfl⟩
      have none := List.all_eq_true.1 (List.all_eq_true.1 free word keyword)
      cases r with
      | nil => exact absurd rfl more
      | cons x r =>
        have outside : set x = false := by simpa using none x (by simp [← parts])
        rw [List.cons_append, Cursor.pass_between, outside]
        rfl
    exact ⟨stuck mem amid, stuck mem' amid'⟩
  choices := by
    intro set full c c' partners
    have alike : RunsAlike (WordMatched u w w' v) (WordAmid u w w' v) (WordMatched u w w' v)
        (c.choices set 0) (c'.choices set 0) := by
      rcases partners with (@⟨p, q, h⟩ | @⟨p, q, h⟩) | ⟨amid, amid'⟩
      · exact runsAlike_before_word mem mem' full h
      · refine .of_forall₂ id (WordMatched.run_after h) ?_
        rw [Cursor.choices_zero_eq_cons]
        exact List.cons_ne_nil _ _
      · obtain ⟨l, inside, run⟩ := exists_choices_of_isAmid mem full amid
        obtain ⟨l', inside', run'⟩ := exists_choices_of_isAmid mem' full amid'
        rw [Cursor.choices_zero_eq_cons, Cursor.choices_zero_eq_cons, run, run', ← List.cons_append,
          ← List.cons_append]
        refine runsAlike_amid (List.forall_mem_cons.2 ⟨amid, inside⟩)
          (List.forall_mem_cons.2 ⟨amid', inside'⟩) (List.cons_ne_nil _ _) (List.cons_ne_nil _ _)
          (WordMatched.run_after rfl) ?_
        rw [Cursor.choices_zero_eq_cons]
        exact List.cons_ne_nil _ _
    exact ⟨alike.partners, alike.last⟩
  choices_one := by
    intro set full c c' partners
    rcases partners with (@⟨p, q, h⟩ | @⟨p, q, h⟩) | ⟨amid, amid'⟩
    · cases q with
      | nil =>
        obtain rfl : p = u := by simpa using h
        exact (runsAlike_keywords mem mem' full).matched
      | cons x q =>
        rw [List.cons_append, List.cons_append, Cursor.choices_succ, Cursor.choices_succ,
          Cursor.pass_between, Cursor.pass_between]
        split
        · exact (runsAlike_before_word mem mem' full (p := p ++ [x]) (by simpa using h)).matched
        · exact .nil
    · cases q with
      | nil => exact .nil
      | cons x q =>
        have tails := @WordMatched.run_after u w w' v set (p ++ [x]) q (by simpa using h)
        rw [Cursor.choices_succ, Cursor.choices_succ, Cursor.pass_between, Cursor.pass_between]
        split
        · exact .of_forall₂ (by simpa using tails)
        · exact .nil
    · obtain ⟨l, inside, run⟩ := exists_choices_of_isAmid mem full amid
      obtain ⟨l', inside', run'⟩ := exists_choices_of_isAmid mem' full amid'
      rw [run, run']
      exact (Aligned.of_lone (fun d here => ⟨c', inside d here, amid'⟩)
        (fun d here => ⟨c, amid, inside' d here⟩)).append (.of_forall₂ (WordMatched.run_after rfl))
  word_matched := by
    have first : ∀ {word : Text}, word ∈ keywords → (word ++ v).head?.any isWordChar = true := by
      intro word keyword
      cases word with
      | nil => exact absurd (two_le_length_of_mem_keywords _ keyword) (by decide)
      | cons x xs => exact isWordChar_of_mem_keywords _ keyword x List.mem_cons_self
    have last : ∀ {word : Text}, word ∈ keywords →
        (u ++ (word ++ [])).reverse.head?.any isWordChar = true := by
      intro word keyword
      rcases List.eq_nil_or_concat word with rfl | ⟨xs, x, rfl⟩
      · exact absurd (two_le_length_of_mem_keywords _ keyword) (by decide)
      · simpa using isWordChar_of_mem_keywords _ keyword x (by simp)
    rintro c c' (@⟨p, q, h⟩ | @⟨p, q, h⟩)
    · cases q with
      | cons x q => rfl
      | nil => simp only [Edge.holds, Cursor.between, List.nil_append, first mem, first mem']
    · rcases List.eq_nil_or_concat p with rfl | ⟨p, x, rfl⟩
      · simp only [Edge.holds, Cursor.between, last mem, last mem']
      · simp [Edge.holds, Cursor.between]

/-- The characters of corresponding stretches are the same, but for the keyword. -/
theorem Span.chars_wordSwap (before : ∀ x ∈ u.getLast?, isWordChar x = false)
    (after : ∀ x ∈ v.head?, isBlank x = true) {s s' : Span}
    (h : s.Alike (WordMatched u w w' v) s') :
    s.chars = s'.chars ∨ SwapsWord w w' s.chars s'.chars := by
  obtain ⟨start, stop⟩ := s
  obtain ⟨start', stop'⟩ := s'
  obtain ⟨@⟨p, q, h⟩ | @⟨p, q, h⟩, @⟨p', q', h'⟩ | @⟨p', q', h'⟩⟩ := h
  all_goals simp only [chars, length]
  case before.before =>
    left
    have inside : p'.length - p.length ≤ q.length := by
      have := congrArg List.length (h.trans h'.symm)
      simp only [List.length_append] at this
      omega
    rw [List.take_append_of_le_length inside, List.take_append_of_le_length inside]
  case before.after =>
    right
    subst h h'
    have count (word : Text) :
        (p ++ q ++ (word ++ p')).length - p.length = (q ++ (word ++ p')).length := by simp
    have split (word : Text) : q ++ (word ++ (p' ++ q')) = q ++ (word ++ p') ++ q' := by simp
    rw [count, count, split, split, List.take_left, List.take_left]
    refine .intro q p' ?_ ?_
    · intro x last
      exact before x (by rw [List.getLast?_append, last, Option.some_or]; rfl)
    · intro x first
      exact after x (by rw [List.head?_append, first, Option.some_or]; rfl)
  case after.before =>
    left
    have short : p'.length ≤ u.length := by
      rw [← h', List.length_append]
      omega
    have none (word : Text) : p'.length - (u ++ (word ++ p)).length = 0 := by
      rw [List.length_append]
      omega
    rw [none, none, List.take_zero]
  case after.after =>
    left
    congr 1
    simp only [List.length_append]
    omega

end

namespace SwapsWord

variable {w w' t t' : Text} (h : SwapsWord w w' t t') (mem : w ∈ keywords) (mem' : w' ∈ keywords)
include h mem mem'

theorem exists_likeness : ∃ like : Likeness wordSight t t', like.matched (.start t) (.start t') ∧
    ∀ {s s' : Span}, s.Alike like.kept s' → s.chars = s'.chars ∨ SwapsWord w w' s.chars s'.chars := by
  obtain ⟨u, v, before, after⟩ := h
  exact ⟨.wordSwap u v mem mem' before after, .before (p := []) rfl,
    Span.chars_wordSwap before after⟩

variable {p : Pattern} (unmoved : p.Unmoved wordSight)
include unmoved

theorem findAll_edited :
    List.Forall₂ (Hit.Edited (SwapsWord w w')) (p.findAll t) (p.findAll t') := by
  obtain ⟨like, start, spans⟩ := h.exists_likeness mem mem'
  exact ((like.shuts unmoved).findAll_alike start).imp fun _ _ alike => alike.edited spans

theorem occurs_eq : p.occurs t = p.occurs t' := by
  obtain ⟨like, start, -⟩ := h.exists_likeness mem mem'
  exact (like.shuts unmoved).occurs_eq start

omit unmoved

/-- A needle that is clear of the keywords is found in both texts or in none. -/
theorem includes_eq {needle : Text} (some : needle ≠ [])
    (clear : keywords.all (fun word => isClearOf word needle) = true) :
    t.includes needle = t'.includes needle := by
  have unmoved : (Pattern.chars needle).Unmoved wordSight := by
    cases needle with
    | nil => exact absurd rfl some
    | cons c cs => exact ⟨rfl, ⟨rfl, clear⟩, rfl⟩
  apply Text.includes_congr
  rw [← Pattern.occurs_chars some, ← Pattern.occurs_chars some, h.occurs_eq mem mem' unmoved]

end SwapsWord

end SourceAudit

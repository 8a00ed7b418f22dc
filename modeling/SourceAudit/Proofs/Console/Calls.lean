/-
Module: SourceAudit.Proofs.Console.Calls
Layer: Proofs
Purpose: Console calls as stretches of a text. A call starts with the word, a point, a name and an
  opening parenthesis. It is an own call unless a point stands before it, and it is closed if its
  parenthesis is. No two calls overlap, because the point and the parenthesis stand once in each.
Main exports: Console.IsCallHead, Console.spells_consoleCall, Console.EndsApart, Console.IsClosed,
  Console.OwnCall, Console.IsCallHead.unique_of_append, Console.IsCallHead.unique_of_prefix
-/
import SourceAudit.Fix.Console
import SourceAudit.Proofs.Pattern.Spelling
import SourceAudit.Proofs.Text.LineEnd

namespace SourceAudit.Fix.Console

open Pattern

/-- How a call starts: the word, a point, a name, and a parenthesis behind any number of blanks. -/
def IsCallHead (head : Text) : Prop :=
  ∃ x name bs, head = "console.".toList ++ x :: (name ++ (bs ++ ['('])) ∧ isNameStart x = true ∧
    (∀ y ∈ name, (isWordChar y || y == '$') = true) ∧ ∀ y ∈ bs, isBlank y = true

/-- Whether a character may stand before an own call: it neither goes on with a word nor leads to a
    member. -/
def isApart (x : Char) : Bool := !isWordChar x && x != '.'

theorem isApart_of_isBlank {x : Char} (blank : isBlank x = true) : isApart x = true := by
  have point : x ≠ '.' := by
    rintro rfl
    cases blank
  simp [isApart, isWordChar_of_isBlank blank, point]

theorem spells_wordEdge {before cs after : Text} {x : Char} {kept : List (Nat × Text)}
    (first : after.head? = some x) (word : isWordChar x = true) :
    wordEdge.Spells before cs after kept ↔
      ((∀ y ∈ before.getLast?, isWordChar y = false) ∧ cs = []) ∧ kept = [] := by
  rw [wordEdge, Spells, wordStart_holds_iff first word]

theorem spells_consoleCall {before cs after : Text} {kept : List (Nat × Text)} :
    consoleCall.Spells before cs after kept ↔
      (∀ y ∈ before.getLast?, isWordChar y = false) ∧ IsCallHead cs ∧ kept = [] := by
  have edge {xs a : Text} {kept : List (Nat × Text)} :
      wordEdge.Spells before xs ("console.".toList ++ a) kept ↔
        ((∀ y ∈ before.getLast?, isWordChar y = false) ∧ xs = []) ∧ kept = [] :=
    spells_wordEdge (x := 'c') rfl (by decide)
  constructor
  · rintro ⟨_, _, _, _, rfl, rfl, ⟨_, bs, _, _, rfl, rfl, ⟨_, name, _, _, rfl, rfl, ⟨_, _, _, _, rfl, rfl,
      ⟨_, _, _, _, rfl, rfl, start, word⟩, first⟩, others⟩, gap⟩, parenthesis⟩
    obtain ⟨rfl, rfl⟩ := spells_text.1 word
    obtain ⟨⟨x, isFirst, rfl⟩, rfl⟩ := spells_one.1 first
    obtain ⟨letters, rfl⟩ := spells_many.1 others
    obtain ⟨blank, rfl⟩ := spells_blanks.1 gap
    obtain ⟨rfl, rfl⟩ := spells_text.1 parenthesis
    obtain ⟨⟨apart, rfl⟩, rfl⟩ := edge.1 start
    exact ⟨apart, ⟨x, name, bs, by simp, isFirst, letters, blank⟩, rfl⟩
  · rintro ⟨apart, ⟨x, name, bs, rfl, isFirst, letters, blank⟩, rfl⟩
    refine ⟨"console.".toList ++ [x] ++ name ++ bs, ['('], [], [], by simp, rfl, ?_, spells_text.2 ⟨rfl, rfl⟩⟩
    refine ⟨"console.".toList ++ [x] ++ name, bs, [], [], rfl, rfl, ?_, spells_blanks.2 ⟨blank, rfl⟩⟩
    refine ⟨"console.".toList ++ [x], name, [], [], rfl, rfl, ?_, spells_many.2 ⟨letters, rfl⟩⟩
    refine ⟨"console.".toList, [x], [], [], rfl, rfl, ?_, spells_one.2 ⟨⟨x, isFirst, rfl⟩, rfl⟩⟩
    exact ⟨[], "console.".toList, [], [], rfl, rfl, edge.2 ⟨⟨apart, rfl⟩, rfl⟩, spells_text.2 ⟨rfl, rfl⟩⟩

/-- Nothing at the end of the text keeps an own call from starting behind it. -/
def EndsApart (t : Text) : Prop := ∀ y ∈ t.getLast?, isApart y = true

instance (t : Text) : Decidable (EndsApart t) :=
  Option.decidableForallMem t.getLast?

theorem endsApart_iff {t : Text} :
    EndsApart t ↔ (∀ y ∈ t.getLast?, isWordChar y = false) ∧ t.getLast? ≠ some '.' := by
  cases h : t.getLast? with
  | none => simp [EndsApart, h]
  | some y => simp [EndsApart, isApart, h]

theorem endsApart_nil : EndsApart [] := fun _ last => nomatch last

theorem endsApart_concat {t : Text} {x : Char} (apart : isApart x = true) : EndsApart (t ++ [x]) := by
  intro y last
  rw [List.getLast?_concat] at last
  exact Option.some.inj last ▸ apart

theorem EndsApart.append {t u : Text} (apart : EndsApart t) (letters : ∀ x ∈ u, isApart x = true) :
    EndsApart (t ++ u) := by
  intro y last
  rw [List.getLast?_append, Option.mem_def, Option.or_eq_some_iff] at last
  rcases last with last | ⟨-, last⟩
  · exact letters y (List.mem_of_getLast? last)
  · exact apart y last

theorem endsApart_append_congr {a b : Text} (ha : EndsApart a) (hb : EndsApart b) (u : Text) :
    EndsApart (a ++ u) ↔ EndsApart (b ++ u) := by
  cases u with
  | nil => simp [ha, hb]
  | cons x u => simp [EndsApart, List.getLast?_append, List.getLast?_cons]

/-- Where a parenthesis is closed, one that closes it stands. -/
theorem exists_of_closingFrom {quote : Option Char} {depth index n : Nat} {t : Text}
    (closed : closingFrom quote depth index t = some n) :
    ∃ front rest, t = front ++ ')' :: rest ∧ n = index + front.length := by
  fun_induction closingFrom quote depth index t with
  | case1 => cases closed
  | case2 => cases closed
  | case3 depth index q y rest ih =>
    obtain ⟨front, rest, rfl, rfl⟩ := ih closed
    exact ⟨'\\' :: y :: front, rest, rfl, by simp only [List.length_cons]; omega⟩
  | case7 depth index cs => exact ⟨[], cs, rfl, by simpa using closed.symm⟩
  | case4 _ _ _ _ _ _ ih | case5 _ _ _ _ _ ih | case6 _ _ _ _ ih | case8 _ _ _ _ _ _ ih | case9 _ _ _ _ _ _ _ ih =>
    obtain ⟨front, rest, rfl, rfl⟩ := ih closed
    exact ⟨_ :: front, rest, rfl, by simp only [List.length_cons]; omega⟩

theorem exists_of_closingParen {after : Text} {n : Nat} (closed : closingParen ('(' :: after) = some n) :
    ∃ args rest, after = args ++ rest ∧ args.length = n ∧ args.getLast? = some ')' := by
  obtain ⟨front, rest, split, rfl⟩ := exists_of_closingFrom closed
  cases front with
  | nil => simp at split
  | cons x front =>
    obtain ⟨rfl, rfl⟩ := List.cons.inj split
    exact ⟨front ++ [')'], rest, by simp, by simp, by simp⟩

/-- The parenthesis of a call is closed in what follows it. -/
def IsClosed (after : Text) : Prop := (closingParen ('(' :: after)).isSome = true

instance (after : Text) : Decidable (IsClosed after) :=
  inferInstanceAs (Decidable ((closingParen ('(' :: after)).isSome = true))

/-- An own call of a text, with what stands before and behind its start. -/
structure OwnCall (t : Text) where
  before : Text
  head : Text
  after : Text
  whole : t = before ++ (head ++ after)
  apart : EndsApart before
  isHead : IsCallHead head

/-- One of these seams of the text runs through the start of the call. -/
def OwnCall.IsTorn {t : Text} (call : OwnCall t) (seams : List Nat) : Prop :=
  ∃ n ∈ seams, call.before.length < n ∧ n < call.before.length + call.head.length

/-- Before the call stands an own call that is never closed. -/
def OwnCall.IsShielded {t : Text} (call : OwnCall t) : Prop :=
  ∃ shield : OwnCall t, ¬ IsClosed shield.after ∧ shield.before.length < call.before.length

section

variable {head : Text} (isHead : IsCallHead head)
include isHead

/-- The parenthesis is the last character of a call's start and no other one of it. -/
theorem IsCallHead.exists_concat : ∃ front, head = front ++ ['('] ∧ '(' ∉ front := by
  obtain ⟨x, name, bs, rfl, first, letters, blank⟩ := isHead
  refine ⟨"console.".toList ++ x :: (name ++ bs), by simp, ?_⟩
  have notFirst : '(' ≠ x := by
    rintro rfl
    cases first
  have notLetter : '(' ∉ name := fun mem => by cases letters _ mem
  have notBlank : '(' ∉ bs := fun mem => by cases blank _ mem
  simp [notFirst, notLetter, notBlank]

/-- The point stands behind the word and nowhere else. -/
theorem IsCallHead.exists_point : ∃ name, head = "console".toList ++ '.' :: name ∧ '.' ∉ name := by
  obtain ⟨x, name, bs, rfl, first, letters, blank⟩ := isHead
  refine ⟨x :: (name ++ (bs ++ ['('])), rfl, ?_⟩
  have notFirst : '.' ≠ x := by
    rintro rfl
    cases first
  have notLetter : '.' ∉ name := fun mem => by cases letters _ mem
  have notBlank : '.' ∉ bs := fun mem => by cases blank _ mem
  simp [notFirst, notLetter, notBlank]

theorem IsCallHead.length_pos : 0 < head.length := by
  obtain ⟨front, rfl, -⟩ := isHead.exists_concat
  simp

theorem IsCallHead.append_ne_nil (u after : Text) : u ++ (head ++ after) ≠ [] := by
  have := isHead.length_pos
  refine List.ne_nil_of_length_pos ?_
  simp only [List.length_append]
  omega

/-- A call's start is known by its end. -/
theorem IsCallHead.unique_of_append {head' a a' : Text} (isHead' : IsCallHead head')
    (same : a ++ head = a' ++ head') : a = a' ∧ head = head' := by
  obtain ⟨name, rfl, absent⟩ := isHead.exists_point
  obtain ⟨name', rfl, absent'⟩ := isHead'.exists_point
  have turned := congrArg List.reverse same
  simp only [List.reverse_append, List.reverse_cons, List.append_assoc] at turned
  obtain ⟨names, -, fronts⟩ := Text.split_unique (· == '.') turned
    (by simpa using fun y mem => ne_of_mem_of_not_mem mem absent)
    (by simpa using fun y mem => ne_of_mem_of_not_mem mem absent') rfl rfl
  obtain rfl := List.reverse_inj.1 names
  exact ⟨by simpa using fronts, rfl⟩

/-- A call's start is known by its place. -/
theorem IsCallHead.unique_of_prefix {head' r r' : Text} (isHead' : IsCallHead head')
    (same : head ++ r = head' ++ r') : head = head' ∧ r = r' := by
  obtain ⟨front, rfl, absent⟩ := isHead.exists_concat
  obtain ⟨front', rfl, absent'⟩ := isHead'.exists_concat
  rw [List.append_assoc, List.append_assoc] at same
  obtain ⟨rfl, -, rest⟩ := Text.split_unique (· == '(') same
    (by simpa using fun y mem => ne_of_mem_of_not_mem mem absent)
    (by simpa using fun y mem => ne_of_mem_of_not_mem mem absent') rfl rfl
  exact ⟨rfl, rest⟩

/-- Nothing of a call's start stands behind its parenthesis. -/
theorem IsCallHead.eq_nil_of_append {front r : Text} (split : head = front ++ '(' :: r) : r = [] := by
  obtain ⟨front', whole, absent⟩ := isHead.exists_concat
  rcases r.eq_nil_or_concat with rfl | ⟨r, x, rfl⟩
  · rfl
  · rw [whole, List.concat_eq_append, ← List.cons_append, ← List.append_assoc] at split
    obtain ⟨rfl, -⟩ := List.append_inj' split rfl
    exact absurd (by simp) absent

end

end SourceAudit.Fix.Console
